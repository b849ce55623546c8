import Mathlib
import CoopShooter.Proofs.Client.Errand
import CoopShooter.Proofs.Client.Joining

/-!
Every errand gets the answer that is its own.

From its request on until it is over, an errand is under way after every run of calls. Its end is
told by the messages of the server alone: the first one of the kind that is expected is the answer,
and what is in front of it is gone by then.
-/

namespace CoopShooter.LobbyClient

open CoopShooter.Frame (Whole lines lines_append)

namespace Errand

/-- Every one of these calls that takes an errand further leaves it unfinished. -/
def GoesOn (e : Errand) (c : LobbyClient) : List Call → Prop
  | [] => True
  | a :: calls => (a = e.call → (c.call a).1 = e.pending) ∧ e.GoesOn (c.call a).2 calls

variable {e : Errand} {c c₀ : LobbyClient} {told : List Chat} {calls more : List Call}
  {future : Bytes} {gone left : List Whole}

lemma goesOn_append :
    e.GoesOn c (calls ++ more) ↔ e.GoesOn c calls ∧ e.GoesOn (c.after calls) more := by
  induction calls generalizing c with
  | nil => simp [GoesOn]
  | cons a calls ih => simp only [List.cons_append, GoesOn, ih, after_cons, and_assoc]

/-- An errand that does not go on for ever is over at one of the calls that take it further. -/
lemma exists_end (h : ¬ e.GoesOn c calls) :
    ∃ before since, calls = before ++ e.call :: since ∧ e.GoesOn c before ∧
      ((c.after before).call e.call).1 ≠ e.pending := by
  induction calls generalizing c with
  | nil => exact absurd trivial h
  | cons a calls ih =>
    by_cases ha : a = e.call → (c.call a).1 = e.pending
    · obtain ⟨before, since, rfl, hbefore, hend⟩ := ih fun hgoes => h ⟨ha, hgoes⟩
      exact ⟨a :: before, since, rfl, ⟨ha, hbefore⟩, hend⟩
    · obtain ⟨rfl, hend⟩ := not_forall.1 ha
      exact ⟨[], calls, rfl, trivial, hend⟩

/-- A run of an errand. As long as it goes on it is under way, and each call that takes it
further counts once the answer has arrived. -/
lemma UnderWay.after
    (h : e.UnderWay c₀ c told calls (more.flatMap Call.arriving ++ future) gone left)
    (hreached : c = (c₀.call e.call).2.after calls) (hgoes : e.GoesOn c more) :
    ∃ read left', left = read ++ left' ∧
      e.UnderWay c₀ (c.after more) (told ++ c.heard more) (calls ++ more) future (gone ++ read)
        left' ∧
      ∀ n, e.Owes c.waiting left (more.flatMap Call.arriving ++ future) (n + more.count e.call) →
        e.Owes (c.after more).waiting left' future n := by
  induction more generalizing c told calls gone left with
  | nil =>
    refine ⟨[], left, rfl, ?_, fun n hn => hn⟩
    simpa only [heard, after_nil, List.append_nil, List.flatMap_nil, List.nil_append] using h
  | cons a more ih =>
    rw [List.flatMap_cons, List.append_assoc] at h
    obtain ⟨read, rest, rfl, hstep, howes⟩ := h.call hreached hgoes.1
    have hreached' : (c.call a).2 = (c₀.call e.call).2.after (calls ++ [a]) := by
      rw [after_snoc, ← hreached]
    obtain ⟨read', left', rfl, hrun, howes'⟩ := ih hstep hreached' hgoes.2
    refine ⟨read ++ read', left', (List.append_assoc _ _ _).symm, ?_, fun n hn => ?_⟩
    · simpa only [heard, after_cons, List.append_assoc, List.singleton_append] using hrun
    · refine howes' n (howes _ ?_)
      rw [List.flatMap_cons, List.append_assoc, List.count_cons, ← Nat.add_assoc] at hn
      simpa only [beq_iff_eq] using hn

/-- An errand that begins is under way. -/
lemma underWay_begin {ms : List Whole} (hidle : c.waiting = .idle) (hjoining : c.joining = none)
    (hopen : c.ended = false) (hms : ∀ x ∈ ms, x.1.Spells x.2)
    (hbytes : c.unread ++ future = ms.flatMap (·.2)) :
    e.UnderWay c (c.call e.call).2 [] [] future [] ms := by
  rw [call_begin hidle hjoining]
  exact {
    opened := hopen
    joining := rfl
    sent := rfl
    holds := ⟨hms, by rw [← hbytes, unread, List.append_assoc]⟩
    inbox := List.append_nil _
    stands := .asked rfl (by simp) }

/-- Once its answer has arrived, an errand needs a call for each message that is dropped, and
three more. -/
lemma UnderWay.owes (h : e.UnderWay c₀ c told calls future gone left) {front behind : List Whole}
    {answer : Bytes} (hthere : e.There (gone ++ left) future front behind answer) :
    e.Owes c.waiting left future ((front.filter (·.1 ≠ .chat)).length + 3) := by
  cases h.stands with
  | asked hwaiting hgone =>
    obtain ⟨front', rfl, hthere'⟩ := hthere.skip hgone
    rw [hwaiting, List.filter_append, List.length_append]
    exact ⟨front', behind, answer, hthere', by omega⟩
  | seen hwaiting hgone hpeek =>
    obtain ⟨front', rfl, hthere'⟩ := hthere.skip hgone
    obtain ⟨x, rest, rfl, hx⟩ : ∃ x rest, left = x :: rest ∧ x.1 = e.expected := by
      rcases h.holds.peek? with ⟨-, hnone⟩ | ⟨x, rest, hleft, hx⟩
      · cases hpeek.symm.trans hnone
      · exact ⟨x, rest, hleft, Option.some.inj (hx.symm.trans hpeek)⟩
    rw [hwaiting]
    exact ⟨behind, answer, hthere'.answer_first hx, by omega⟩
  | taken hwaiting =>
    rw [hwaiting]
    exact Nat.le_add_left 1 _

/-- An errand that owes nothing any more is over. -/
lemma not_owes_zero {waiting : Waiting} : ¬ e.Owes waiting left future 0 := by
  intro h
  cases waiting with
  | idle => exact h
  | requested =>
    obtain ⟨front, behind, answer, -, hlen⟩ := h
    omega
  | announced =>
    obtain ⟨behind, answer, -, hlen⟩ := h
    omega
  | arrived => exact absurd h (by simp [Owes])

/-- How a client waits in whose state an errand goes on. -/
structure Waits (e : Errand) (c₀ c : LobbyClient) : Prop where
  /-- The request is written, and nothing else. -/
  sent : c.sent = c₀.sent ++ e.request
  /-- Whatever would begin another request, or join another room, finds the client busy and leaves
  it as it is. -/
  busy : ∀ a refusal, a.refusal? = some refusal → a ≠ e.call → c.call a = (refusal, c)

lemma UnderWay.waits (h : e.UnderWay c₀ c told calls future gone left) : e.Waits c₀ c where
  sent := h.sent
  busy _ _ hrefusal ha := call_busy h.stands.expected h.joining hrefusal ha

/-- How an errand is over that a client begins, after some calls and with some bytes to come, when
these are the messages of the server: the last call is answered and leaves the client so. -/
structure Over (e : Errand) (c : LobbyClient) (calls : List Call) (last : Answer × LobbyClient)
    (future : Bytes) (ms front talk behind : List Whole) (answer : Bytes) : Prop where
  messages : ms = front ++ (e.expected, answer) :: (talk ++ behind)
  /-- The answer is the first message that is expected. -/
  first : ∀ x ∈ front, x.1 ≠ e.expected
  /-- It is read without failure, and the player is told what it says. -/
  settles : e.Settles answer last.1
  /-- What is in front of the answer is gone, and what is behind it is still to be read, but for
  chat that was put aside by listening late. -/
  unread : last.2.unread ++ future = behind.flatMap (·.2)
  talk_chat : ∀ x ∈ talk, x.1 = .chat
  talk_late : talk ≠ [] → e.ListensLate c calls
  /-- The player has heard the chat or will hear it next, in order and each line once. -/
  inbox : c.inbox ++ lines (front ++ talk) = (c.call e.call).2.heard calls ++ last.2.inbox
  next_heard : last.2.heard (List.replicate last.2.inbox.length .receiveChat) = last.2.inbox
  /-- Nothing more was written, and another request can begin. -/
  sent : last.2.sent = c.sent ++ e.request
  waiting : last.2.waiting = .idle
  joining : last.2.joining = none

/-- An errand that does not go on is over. -/
lemma UnderWay.over (h : e.UnderWay c₀ c told calls future gone left)
    (htold : told = (c₀.call e.call).2.heard calls) (hend : (c.call e.call).1 ≠ e.pending) :
    ∃ front talk answer, e.Over c₀ calls (c.call e.call) future (gone ++ left) front talk left
      answer := by
  cases h.stands with
  | asked hwaiting =>
    rw [call_requested hwaiting h.joining h.opened] at hend
    exact absurd rfl hend
  | seen hwaiting =>
    rw [call_announced hwaiting h.joining h.opened] at hend
    exact absurd rfl hend
  | @taken front talk answer hwaiting hspells hgone hfront htalk hlate =>
    obtain ⟨hsettles, room, hlast⟩ := call_arrived hwaiting h.joining hspells
    refine ⟨front, talk, answer, ?_⟩
    exact {
      messages := by rw [hgone, List.append_assoc, List.cons_append]
      first := hfront
      settles := hsettles
      unread := by
        rw [hlast, ← h.holds.bytes, unread, List.append_assoc]
      talk_chat := htalk
      talk_late := hlate
      inbox := by
        have hanswer : lines [(e.expected, answer)] = [] :=
          Frame.lines_eq_nil (List.forall_mem_singleton.2 e.expected_ne_chat)
        have hgone' : gone = front ++ ([(e.expected, answer)] ++ talk) := hgone
        have hinbox := h.inbox
        rw [hgone', lines_append, lines_append, hanswer, List.nil_append, htold] at hinbox
        rw [hlast, lines_append, hinbox]
      next_heard := by
        have hopen : (c.call e.call).2.ended = false := by
          rw [hlast]
          exact h.opened
        exact (heard_receiveChat hopen le_rfl).trans List.take_length
      sent := by
        rw [hlast]
        exact h.sent
      waiting := by rw [hlast]
      joining := by rw [hlast] }

end Errand

/-- **An errand is matched to its answer.** A client with no request under way begins an errand by
writing its request. Whatever arrives then, in whatever cuts, and whatever is called, as long as the
errand goes on nothing else is written, and any other request finds the client busy and changes
nothing. When it is over, the player is told what the first message of the expected kind says; what
was in front of it is gone, the chat of it heard or put aside; and what was behind it is still to be
read, but for chat that the player listened to after the answer had been taken. Once the answer has
arrived, an errand is over after as many calls as there are messages to drop, and three more. And
all the time the client knows a room that it is about to join exactly while it waits to join. -/
theorem answer_matched (e : Errand) (c : LobbyClient) (hidle : c.waiting = .idle)
    (hjoining : c.joining = none) (hopen : c.ended = false) :
    (c.call e.call).1 = e.pending ∧
    (∀ (ms : List Whole) (calls : List Call) (future : Bytes), (∀ x ∈ ms, x.1.Spells x.2) →
      c.unread ++ calls.flatMap Call.arriving ++ future = ms.flatMap (·.2) →
      e.GoesOn (c.call e.call).2 calls →
        e.Waits c ((c.call e.call).2.after calls) ∧
        ((((c.call e.call).2.after calls).call e.call).1 ≠ e.pending →
          ∃ front talk behind answer, e.Over c calls (((c.call e.call).2.after calls).call e.call)
            future ms front talk behind answer) ∧
        ∀ front behind answer, e.There ms future front behind answer →
          ∀ more later, future = more.flatMap Call.arriving ++ later →
            (front.filter (·.1 ≠ .chat)).length + 3 ≤ more.count e.call →
            ∃ before since, more = before ++ e.call :: since ∧
              e.GoesOn (c.call e.call).2 (calls ++ before) ∧
              (((c.call e.call).2.after (calls ++ before)).call e.call).1 ≠ e.pending) ∧
    ∀ calls, (c.after calls).joining.isSome ↔
      (c.after calls).waiting.expected? = some .joinAnswer := by
  refine ⟨by rw [call_begin hidle hjoining], fun ms calls future hms hbytes hgoes => ?_,
    (knowsJoin_of_none hjoining (by rw [hidle]; exact (Option.some_ne_none _).symm)).after hopen⟩
  rw [List.append_assoc] at hbytes
  have hbegin := Errand.underWay_begin (e := e) hidle hjoining hopen hms hbytes
  obtain ⟨gone, left, rfl, hunder, -⟩ := hbegin.after rfl hgoes
  rw [List.nil_append, List.nil_append, List.nil_append] at hunder
  refine ⟨hunder.waits, fun hend => ?_,
    fun front behind answer hthere more later hfuture hcount => ?_⟩
  · obtain ⟨front, talk, answer, hover⟩ := hunder.over rfl hend
    exact ⟨front, talk, left, answer, hover⟩
  · subst hfuture
    have hstops : ¬ e.GoesOn ((c.call e.call).2.after calls) more := by
      intro hmore
      obtain ⟨read, left', -, -, howes⟩ := hunder.after rfl hmore
      refine Errand.not_owes_zero (howes 0 ?_)
      rw [Nat.zero_add]
      exact (hunder.owes hthere).mono hcount
    obtain ⟨before, since, rfl, hbefore, hend⟩ := Errand.exists_end hstops
    rw [← after_append] at hend
    exact ⟨before, since, rfl, Errand.goesOn_append.2 ⟨hgoes, hbefore⟩, hend⟩

/-- A player joins a room: chat and a notice come first, the answer comes in two parts, and a call
for a new room finds the client busy meanwhile. -/
theorem join_matched :
    let line := Message.encode (⟨2, .ofString lineWidth "hi"⟩ : ChatLine)
    let ms : List Whole :=
      [(.chat, line), (.startNotice, [19]), (.joinAnswer, [15, 1]), (.startNotice, [19])]
    let calls : List Call := [.deliver (line ++ [19, 15]), .joinRoom 4, .joinRoom 4, .createRoom,
      .receiveChat, .deliver [1, 19], .joinRoom 4]
    let c : LobbyClient := {}
    let b := (c.call (.joinRoom 4)).2
    let last := (b.after calls).call (.joinRoom 4)
    (c.waiting = .idle ∧ c.joining = none ∧ c.ended = false) ∧
      (∀ x ∈ ms, x.1.Spells x.2) ∧
      c.unread ++ calls.flatMap Call.arriving ++ [] = ms.flatMap (·.2) ∧
      (Errand.join 4).GoesOn b calls ∧ (Errand.join 4).Waits c (b.after calls) ∧
      last.1 = .joined (.ready (.ok true)) ∧
      ∃ front talk behind answer,
        (Errand.join 4).Over c calls last [] ms front talk behind answer := by
  intro line ms calls c b last
  have hms : ∀ x ∈ ms, x.1.Spells x.2 := by
    simp only [ms, List.forall_mem_cons]
    exact ⟨⟨(⟨2, .ofString lineWidth "hi"⟩ : ChatLine), rfl⟩, ⟨({} : StartNotice), rfl⟩,
      ⟨(⟨1⟩ : JoinAnswer), rfl⟩, ⟨({} : StartNotice), rfl⟩, by simp⟩
  have hbytes : c.unread ++ calls.flatMap Call.arriving ++ [] = ms.flatMap (·.2) := by
    rw [List.append_nil]
    simp [c, unread, calls, ms, Call.arriving]
  have hgoes : (Errand.join 4).GoesOn b calls :=
    ⟨fun h => (by cases h), fun _ => (by cbv), fun _ => (by cbv), fun h => (by cases h),
      fun h => (by cases h), fun h => (by cases h), fun _ => (by cbv), trivial⟩
  have hlast : last.1 = .joined (.ready (.ok true)) := by cbv
  obtain ⟨-, hmatched, -⟩ := answer_matched (.join 4) c rfl rfl rfl
  obtain ⟨hwaits, hover, -⟩ := hmatched ms calls [] hms hbytes hgoes
  have hend : last.1 ≠ (Errand.join 4).pending := by
    rw [hlast]
    simp [Errand.pending]
  exact ⟨⟨rfl, rfl, rfl⟩, hms, hbytes, hgoes, hwaits, hlast, hover hend⟩

/-- Not all that is behind the answer is left unread when an errand is over: who listens after the
answer was taken, and before it is told, hears the chat behind it. -/
theorem chat_behind_answer_heard :
    let answer := Message.encode (⟨7⟩ : CreateAnswer)
    let line := Message.encode (⟨2, .ofString lineWidth "hi"⟩ : ChatLine)
    let calls : List Call := [.deliver (answer ++ line), .createRoom, .createRoom, .receiveChat]
    let b := (({} : LobbyClient).call .createRoom).2
    let last := (b.after calls).call .createRoom
    (LobbyOp.createAnswer.Spells answer ∧ LobbyOp.chat.Spells line) ∧
      Errand.create.GoesOn b calls ∧ last.1 = .created (.ready (.ok 7)) ∧
      b.heard calls = [⟨2, "hi"⟩] ∧ last.2.unread ≠ line := by
  intro answer line calls b last
  have hgoes : Errand.create.GoesOn b calls :=
    ⟨fun h => (by cases h), fun _ => (by cbv), fun _ => (by cbv), fun h => (by cases h), trivial⟩
  have hunread : last.2.unread = [] := by cbv
  refine ⟨⟨⟨_, rfl⟩, ⟨_, rfl⟩⟩, hgoes, by cbv, by cbv, ?_⟩
  rw [hunread]
  exact (List.cons_ne_nil _ _).symm

end CoopShooter.LobbyClient
