import Mathlib
import CoopShooter.Proofs.Client.Calls

/-!
The room that is joined.
-/

namespace CoopShooter.LobbyClient

/-- A client knows the room that it is about to join exactly while a request to join is under
way. -/
def KnowsJoin (c : LobbyClient) : Prop :=
  c.joining.isSome ↔ c.waiting.expected? = some .joinAnswer

/-- What is done with a client leaves the request under way as it is. -/
def Apart {α : Type} (x : Exchange α) : Prop :=
  ∀ c, (perform x c).2.waiting = c.waiting ∧ (perform x c).2.joining = c.joining ∧
    (perform x c).2.ended = c.ended

section

variable {α β : Type} {c : LobbyClient}

lemma lasting_apart : Lasting fun c d =>
    d.waiting = c.waiting ∧ d.joining = c.joining ∧ d.ended = c.ended where
  refl _ := ⟨rfl, rfl, rfl⟩
  trans h h' := ⟨h'.1.trans h.1, h'.2.1.trans h.2.1, h'.2.2.trans h.2.2⟩
  writes _ _ := ⟨rfl, rfl, rfl⟩

lemma apart_fill : Apart fill := by
  intro c
  obtain ⟨server, incoming, ended, sent, buffer, waiting, inbox, welcome, room, joining⟩ := c
  cases ended <;> exact ⟨rfl, rfl, rfl⟩

lemma apart_await (wanted : LobbyOp → Bool) : Apart (await wanted) := by
  refine lasting_apart.bind apart_fill fun _ c => ?_
  simp only [perform, Bind.bind, EStateM.bind, get, getThe, MonadStateOf.get, EStateM.get, set,
    MonadStateOf.set, EStateM.set]
  rcases search wanted c.buffer with ⟨lines, _ | frame, buffer⟩ <;> exact ⟨rfl, rfl, rfl⟩

lemma apart_listRooms : Apart listRooms := lasting_apart.listRooms apart_await

lemma apart_lobbyState : Apart lobbyState := lasting_apart.lobbyState apart_await

/-- What a poll comes to: the request goes on, or it is over, or another one is under way. -/
lemma poll_cases {request : Type} (answer : Type) [Message request] [Message answer] (op : LobbyOp)
    (m : request) (hopen : c.ended = false) :
    (poll answer op m c).2.joining = c.joining ∧ (poll answer op m c).2.ended = false ∧
      ((∀ other, c.waiting.expected? = some other → other = op) ∧
          ((poll answer op m c).1 = .pending ∧
              (poll answer op m c).2.waiting.expected? = some op ∨
            (∃ r, (poll answer op m c).1 = .ready r) ∧
              (poll answer op m c).2.waiting = .idle) ∨
        poll answer op m c = (.ready (.error .busy), c) ∧
          ∃ other, c.waiting.expected? = some other ∧ other ≠ op) := by
  rcases hexpected : c.waiting.expected? with _ | other
  · have hidle : c.waiting = .idle := by
      cases hw : c.waiting with
      | idle => rfl
      | requested | announced | arrived =>
        rw [hw] at hexpected
        cases hexpected
    rw [poll_idle answer op m hidle]
    exact ⟨rfl, hopen, .inl ⟨by simp, .inl ⟨rfl, rfl⟩⟩⟩
  · by_cases hop : other = op
    · have hown : ∀ other', some other = some other' → other' = op :=
        fun other' h => (Option.some.inj h).symm.trans hop
      subst hop
      cases hw : c.waiting with
      | idle =>
        rw [hw] at hexpected
        cases hexpected
      | requested =>
        rw [hw] at hexpected
        cases hexpected
        obtain ⟨hjoining, hended, hwaiting⟩ := looked_keeps c.pumped other
        rw [poll_requested answer other m hw hopen]
        exact ⟨hjoining, hended.trans hopen, .inl ⟨hown, .inl ⟨rfl, hwaiting⟩⟩⟩
      | announced =>
        rw [hw] at hexpected
        cases hexpected
        obtain ⟨hjoining, hended, hwaiting⟩ := grabbed_keeps c.pumped other
        rw [poll_announced answer other m hw hopen]
        exact ⟨hjoining, hended.trans hopen, .inl ⟨hown, .inl ⟨rfl, hwaiting⟩⟩⟩
      | arrived expected frame =>
        rw [hw] at hexpected
        cases hexpected
        rw [poll_arrived answer other m hw]
        rcases Message.decode answer frame with err | a
        · exact ⟨rfl, hopen, .inl ⟨hown, .inr ⟨⟨_, rfl⟩, rfl⟩⟩⟩
        · exact ⟨rfl, hopen, .inl ⟨hown, .inr ⟨⟨_, rfl⟩, rfl⟩⟩⟩
    · rw [poll_busy answer op m hexpected hop]
      exact ⟨rfl, hopen, .inr ⟨rfl, other, rfl, hop⟩⟩

end

/-! ## Every call -/

variable {c d : LobbyClient}

lemma KnowsJoin.joining_eq_none (h : c.KnowsJoin) (hne : c.waiting.expected? ≠ some .joinAnswer) :
    c.joining = none := by
  rw [KnowsJoin, iff_false_intro hne] at h
  simpa using h

lemma KnowsJoin.congr (h : c.KnowsJoin) (hwaiting : d.waiting = c.waiting)
    (hjoining : d.joining = c.joining) : d.KnowsJoin := by
  rw [KnowsJoin, hwaiting, hjoining]
  exact h

/-- A client that joins no room knows that it joins none. -/
lemma knowsJoin_of_none (hjoining : c.joining = none)
    (hne : c.waiting.expected? ≠ some .joinAnswer) : c.KnowsJoin := by
  rw [KnowsJoin, iff_false_intro hne, hjoining]
  simp

lemma KnowsJoin.createRoom (h : c.KnowsJoin) (hopen : c.ended = false) :
    c.createRoom.2.KnowsJoin ∧ c.createRoom.2.ended = false := by
  obtain ⟨hjoining, hended, hcases⟩ :=
    poll_cases CreateAnswer .createAnswer ({} : CreateRequest) hopen
  rw [createRoom_state]
  refine ⟨?_, hended⟩
  have hnone (hown : ∀ other, c.waiting.expected? = some other → other = .createAnswer) :
      c.joining = none :=
    h.joining_eq_none fun hjoin => LobbyOp.noConfusion (hown _ hjoin)
  rcases hcases with ⟨hown, ⟨-, hwaiting⟩ | ⟨-, hwaiting⟩⟩ | ⟨hbusy, -⟩
  · refine knowsJoin_of_none (hjoining.trans (hnone hown)) ?_
    rw [hwaiting]
    exact fun heq => LobbyOp.noConfusion (Option.some.inj heq)
  · refine knowsJoin_of_none (hjoining.trans (hnone hown)) ?_
    rw [hwaiting]
    exact (Option.some_ne_none _).symm
  · rw [hbusy]
    exact h

lemma KnowsJoin.joinRoom (h : c.KnowsJoin) (hopen : c.ended = false) (room : UInt32) :
    (c.joinRoom room).2.KnowsJoin ∧ (c.joinRoom room).2.ended = false := by
  obtain ⟨hjoining, hended, hcases⟩ :=
    poll_cases JoinAnswer .joinAnswer (⟨room⟩ : JoinRequest) hopen
  rw [LobbyClient.joinRoom]
  by_cases hfree : c.joining.all (· = room) = true
  · rw [if_pos hfree]
    rcases hpoll : poll JoinAnswer .joinAnswer (⟨room⟩ : JoinRequest) c with ⟨_ | r, d⟩
    · rw [hpoll] at hcases hended
      rcases hcases with ⟨-, ⟨-, hwaiting⟩ | ⟨⟨r, hr⟩, -⟩⟩ | ⟨hbusy, -⟩
      · exact ⟨by simpa [KnowsJoin] using hwaiting, hended⟩
      · cases hr
      · cases hbusy
    · have hne : d.waiting.expected? ≠ some .joinAnswer := by
        rw [hpoll] at hcases
        rcases hcases with ⟨-, ⟨hpending, -⟩ | ⟨-, hwaiting⟩⟩ | ⟨hbusy, other, hother, hne⟩
        · cases hpending
        · rw [hwaiting]
          exact (Option.some_ne_none _).symm
        · rw [show d = c from (Prod.mk.inj hbusy).2, hother]
          simpa using hne
      rw [hpoll] at hended
      rcases r with err | a
      · exact ⟨knowsJoin_of_none rfl hne, hended⟩
      · by_cases hstatus : a.status = 0
        · simp only [hstatus, if_true]
          exact ⟨knowsJoin_of_none rfl hne, hended⟩
        · simp only [hstatus, if_false]
          exact ⟨knowsJoin_of_none rfl hne, hended⟩
  · rw [if_neg hfree]
    exact ⟨h, hopen⟩

/-- A step: every call leaves the client knowing which room it joins. -/
lemma KnowsJoin.call (h : c.KnowsJoin) (hopen : c.ended = false) (a : Call) :
    (c.call a).2.KnowsJoin ∧ (c.call a).2.ended = false := by
  cases a with
  | deliver bs => exact ⟨h, hopen⟩
  | createRoom => exact h.createRoom hopen
  | joinRoom room => exact h.joinRoom hopen room
  | listRooms =>
    obtain ⟨hwaiting, hjoining, hended⟩ := apart_listRooms c
    exact ⟨h.congr hwaiting hjoining, hended.trans hopen⟩
  | lobbyState =>
    obtain ⟨hwaiting, hjoining, hended⟩ := apart_lobbyState c
    exact ⟨h.congr hwaiting hjoining, hended.trans hopen⟩
  | receiveChat =>
    rw [receiveChat_open hopen]
    exact ⟨h, hopen⟩
  | isConnected =>
    rw [isConnected_open hopen]
    exact ⟨h, hopen⟩

/-- A run: a client knows which room it joins, whatever is called. -/
lemma KnowsJoin.after (h : c.KnowsJoin) (hopen : c.ended = false) (calls : List Call) :
    (c.after calls).KnowsJoin := by
  induction calls generalizing c with
  | nil => exact h
  | cons a calls ih =>
    obtain ⟨hcall, hended⟩ := h.call hopen a
    exact ih hcall hended

end CoopShooter.LobbyClient
