import Mathlib
import CoopShooter.Proofs.Client.Heard
import CoopShooter.Proofs.Client.Matching

/-!
A server that ends its side. From then on a client looks at nothing that has arrived, whether it was
taken in before or not: what was not heard is never heard, and a request is answered only if its
answer had been taken.
-/

namespace CoopShooter.LobbyClient

open CoopShooter.Frame (Whole lines)

variable {c d : LobbyClient} {e : Errand}

/-! ## What a client keeps to itself -/

/-- Nothing is looked at, and nothing is given away. -/
structure Keeps (c d : LobbyClient) (arriving : Bytes) : Prop where
  ended : d.ended = true
  inbox : d.inbox = c.inbox
  unread : d.unread = c.unread ++ arriving

lemma keeps_same (hended : d.ended = true) (hinbox : d.inbox = c.inbox)
    (hunread : d.unread = c.unread) : Keeps c d [] :=
  ⟨hended, hinbox, hunread.trans (List.append_nil _).symm⟩

lemma Keeps.trans {b : LobbyClient} {as bs : Bytes} (h : Keeps b c as) (h' : Keeps c d bs) :
    Keeps b d (as ++ bs) where
  ended := h'.ended
  inbox := h'.inbox.trans h.inbox
  unread := by rw [h'.unread, h.unread, List.append_assoc]

lemma unread_soaked (c : LobbyClient) : c.soaked.unread = c.unread := List.append_nil _

lemma lasting_keeps : Lasting fun c d => c.ended = true → Keeps c d [] where
  refl _ hended := keeps_same hended rfl rfl
  trans h h' hended := (h hended).trans (h' (h hended).ended)
  writes _ _ hended := keeps_same hended rfl rfl

lemma keeps_await (wanted : LobbyOp → Bool) :
    Within (fun c d => c.ended = true → Keeps c d []) (await wanted) := by
  intro c hended
  have hstate : (perform (await wanted) c).2 = c.soaked := by
    simp only [perform, await, Bind.bind, EStateM.bind, fill_ended hended]
  rw [hstate]
  exact keeps_same hended rfl c.unread_soaked

lemma receiveChat_ended (h : c.ended = true) :
    c.call .receiveChat = (.chat (.error .disconnected), c.soaked) := by
  have hread : receiveChat c = .error .disconnected c.soaked := by
    simp only [receiveChat, bind, EStateM.bind, pump_ended h]
  rw [call, perform, hread]

lemma isConnected_ended (h : c.ended = true) :
    c.call .isConnected = (.connected false, c.soaked) := by
  rw [call, isConnected, pump_ended h]

lemma keeps_poll (hended : c.ended = true) {request : Type} (answer : Type) [Message request]
    [Message answer] (op : LobbyOp) (m : request) : Keeps c (poll answer op m c).2 [] := by
  rcases poll_state answer op m c with ⟨sent, waiting, hstate⟩ | ⟨hopen, -⟩ | ⟨-, hstate⟩
  · rw [hstate]
    exact keeps_same hended rfl rfl
  · cases hopen.symm.trans hended
  · rw [hstate]
    exact keeps_same hended rfl c.unread_soaked

/-- A step: once the server has ended its side, no call hears or reads anything. -/
lemma keeps_call (hended : c.ended = true) (a : Call) :
    (c.call a).1.heard = [] ∧ Keeps c (c.call a).2 a.arriving := by
  cases a with
  | deliver bs => exact ⟨rfl, hended, rfl, (List.append_assoc _ _ _).symm⟩
  | createRoom =>
    refine ⟨rfl, ?_⟩
    simp only [call, createRoom_state]
    exact keeps_poll hended _ _ _
  | joinRoom room =>
    refine ⟨rfl, ?_⟩
    have hpoll := keeps_poll hended JoinAnswer .joinAnswer (⟨room⟩ : JoinRequest)
    rcases c.joinRoom_state room with hstate | ⟨joining, room', hstate⟩
    · simp only [call, hstate]
      exact keeps_same hended rfl rfl
    · simp only [call, hstate]
      exact hpoll.trans (keeps_same hpoll.ended rfl rfl)
  | listRooms => exact ⟨rfl, lasting_keeps.listRooms keeps_await c hended⟩
  | lobbyState => exact ⟨rfl, lasting_keeps.lobbyState keeps_await c hended⟩
  | receiveChat =>
    rw [receiveChat_ended hended]
    exact ⟨rfl, keeps_same hended rfl c.unread_soaked⟩
  | isConnected =>
    rw [isConnected_ended hended]
    exact ⟨rfl, keeps_same hended rfl c.unread_soaked⟩

/-- A run. -/
lemma keeps_after (hended : c.ended = true) (calls : List Call) :
    c.heard calls = [] ∧ Keeps c (c.after calls) (calls.flatMap Call.arriving) := by
  induction calls generalizing c with
  | nil => exact ⟨rfl, keeps_same hended rfl rfl⟩
  | cons a calls ih =>
    obtain ⟨hsilent, hkeeps⟩ := keeps_call hended a
    obtain ⟨hrest, hkeeps'⟩ := ih hkeeps.ended
    refine ⟨?_, hkeeps.trans hkeeps'⟩
    rw [heard, hsilent, hrest]
    rfl

/-! ## A request under way -/

namespace Errand

/-- It has failed. -/
def failed (e : Errand) (err : LobbyError) : Answer :=
  match e with
  | create => .created (.ready (.error err))
  | join _ => .joined (.ready (.error err))

/-- A request is under way, and the client waits for the end of it. -/
structure Pends (e : Errand) (c : LobbyClient) : Prop where
  waiting : c.waiting.expected? = some e.expected
  joining : c.joining = e.room?

end Errand

/-- Other calls than its own leave a request where it is, when the server has ended its side. -/
lemma Errand.Pends.call (h : e.Pends c) (hended : c.ended = true) {a : Call} (ha : a ≠ e.call) :
    (c.call a).2.waiting = c.waiting ∧ (c.call a).2.joining = c.joining := by
  rcases hrefusal : a.refusal? with _ | refusal
  · cases a with
    | deliver bs => exact ⟨rfl, rfl⟩
    | receiveChat =>
      rw [receiveChat_ended hended]
      exact ⟨rfl, rfl⟩
    | isConnected =>
      rw [isConnected_ended hended]
      exact ⟨rfl, rfl⟩
    | createRoom | joinRoom | listRooms | lobbyState => cases hrefusal
  · rw [call_busy h.waiting h.joining hrefusal ha]
    exact ⟨rfl, rfl⟩

lemma Errand.Pends.after (h : e.Pends c) (hended : c.ended = true) {calls : List Call}
    (hcalls : e.call ∉ calls) :
    (c.after calls).waiting = c.waiting ∧ (c.after calls).joining = c.joining := by
  induction calls generalizing c with
  | nil => exact ⟨rfl, rfl⟩
  | cons a calls ih =>
    obtain ⟨ha, hcalls⟩ := not_or.1 (List.mem_cons.not.1 hcalls)
    obtain ⟨hwaiting, hjoining⟩ := h.call hended (Ne.symm ha)
    have hpends : e.Pends (c.call a).2 :=
      ⟨hwaiting ▸ h.waiting, hjoining.trans h.joining⟩
    obtain ⟨hwaiting', hjoining'⟩ := ih hpends (keeps_call hended a).2.ended hcalls
    exact ⟨hwaiting'.trans hwaiting, hjoining'.trans hjoining⟩

/-- A request whose answer has not been taken fails. -/
lemma call_failed (hended : c.ended = true) (hjoining : c.joining = e.room?)
    (hwaiting : c.waiting = .requested e.expected ∨ c.waiting = .announced e.expected) :
    c.call e.call =
      (e.failed .disconnected, { c.soaked with waiting := .idle, joining := none }) := by
  cases e with
  | create =>
    have hpoll := poll_ended CreateAnswer .createAnswer ({} : CreateRequest) hended hwaiting
    simp only [Errand.call, call, createRoom, hpoll, Errand.failed]
    exact congrArg (fun joining => (_, { c.soaked with waiting := .idle, joining := joining }))
      hjoining
  | join room =>
    have hpoll := poll_ended JoinAnswer .joinAnswer (⟨room⟩ : JoinRequest) hended hwaiting
    have hfree : c.joining.all (· = room) = true := by rw [hjoining]; simp [Errand.room?]
    simp only [Errand.call, call, joinRoom, hfree, if_true, hpoll, Errand.failed]

/-- How a request that was under way ends when the server has ended its side: it is answered if its
answer had been taken, and has failed if not. -/
lemma Errand.UnderWay.ends {c₀ : LobbyClient} {told : List Chat} {calls since : List Call}
    {future : Bytes} {gone left : List Whole} (h : e.UnderWay c₀ d told calls future gone left)
    (hsince : e.call ∉ since) :
    let last := (d.close.after since).call e.call
    (∃ front behind answer, gone = front ++ (e.expected, answer) :: behind ∧
        (∀ x ∈ front, x.1 ≠ e.expected) ∧ d.waiting = .arrived e.expected answer ∧
        e.Settles answer last.1) ∨
      (∀ answer, d.waiting ≠ .arrived e.expected answer) ∧ last.1 = e.failed .disconnected ∧
        last.2.waiting = .idle ∧ last.2.joining = none := by
  have hpends : e.Pends d.close := ⟨h.stands.expected, h.joining⟩
  have hended : d.close.ended = true := rfl
  have hended' := (keeps_after hended since).2.ended
  obtain ⟨hwaiting, hjoining⟩ := hpends.after hended hsince
  have hroom := hjoining.trans hpends.joining
  have hfails (hw : d.waiting = .requested e.expected ∨ d.waiting = .announced e.expected) :
      (d.close.after since).call e.call = (e.failed .disconnected,
        { (d.close.after since).soaked with waiting := .idle, joining := none }) :=
    call_failed hended' hroom (by rw [hwaiting]; exact hw)
  cases h.stands with
  | asked hw =>
    rw [hfails (.inl hw)]
    exact .inr ⟨fun answer => by rw [hw]; exact Waiting.noConfusion, rfl, rfl, rfl⟩
  | seen hw =>
    rw [hfails (.inr hw)]
    exact .inr ⟨fun answer => by rw [hw]; exact Waiting.noConfusion, rfl, rfl, rfl⟩
  | @taken front talk answer hw hspells hgone hfront =>
    exact .inl ⟨front, talk, answer, hgone, hfront, hw,
      (call_arrived (hwaiting.trans hw) hroom hspells).1⟩

/-- **Nothing is looked at once the server has ended its side.** A stream of messages arrives at a
client, in whatever cuts, the last of it perhaps never. Whatever was called until the server ended
its side, the first messages of the stream have been read, and their chat was heard in order but for
the lines that waited in the inbox. After that nothing is heard, whatever is called: those lines are
lost, and so are the messages that had not been read, though all their bytes have arrived. A request
that was under way is answered with the first message of the kind it expects, if that had been
taken. Otherwise the next call that takes it further tells that the server is gone, whether the
answer has arrived or not. -/
theorem closing_ends_reading (hopen : c.ended = false) {ms : List Whole}
    (hms : ∀ x ∈ ms, x.1.Spells x.2) (never : Bytes) :
    (∀ before since : List Call,
      c.unread ++ before.flatMap Call.arriving ++ never = ms.flatMap (·.2) →
      let d := c.after before
      let z := d.close.after since
      ∃ read left, ms = read ++ left ∧ d.unread ++ never = left.flatMap (·.2) ∧
        c.inbox ++ lines read = c.heard before ++ d.inbox ∧
        d.close.heard since = [] ∧ z.inbox = d.inbox ∧
        z.unread = d.unread ++ since.flatMap Call.arriving) ∧
    ∀ (e : Errand) (calls since : List Call), c.waiting = .idle → c.joining = none →
      c.unread ++ calls.flatMap Call.arriving ++ never = ms.flatMap (·.2) →
      e.GoesOn (c.call e.call).2 calls → e.call ∉ since →
      let d := (c.call e.call).2.after calls
      let last := (d.close.after since).call e.call
      (∃ front behind answer, ms = front ++ (e.expected, answer) :: behind ∧
          (∀ x ∈ front, x.1 ≠ e.expected) ∧ d.waiting = .arrived e.expected answer ∧
          e.Settles answer last.1) ∨
        (∀ answer, d.waiting ≠ .arrived e.expected answer) ∧ last.1 = e.failed .disconnected ∧
          last.2.waiting = .idle ∧ last.2.joining = none := by
  refine ⟨fun before since hbytes => ?_,
    fun e calls since hidle hjoining hbytes hgoes hsince => ?_⟩
  · intro d z
    obtain ⟨read, left, hread, hunread, hinbox⟩ := heard_in_order hopen before hms hbytes
    obtain ⟨hsilent, hkeeps⟩ := keeps_after (c := d.close) rfl since
    exact ⟨read, left, hread, hunread, hinbox, hsilent, hkeeps.inbox, hkeeps.unread⟩
  · intro d last
    rw [List.append_assoc] at hbytes
    have hbegin := Errand.underWay_begin (e := e) hidle hjoining hopen hms hbytes
    obtain ⟨gone, left, rfl, hunder, -⟩ := hbegin.after rfl hgoes
    rw [List.nil_append] at hunder
    rcases hunder.ends hsince with ⟨front, behind, answer, rfl, hends⟩ | hfailed
    · exact .inl ⟨front, behind ++ left, answer, by simp, hends⟩
    · exact .inr hfailed

/-- A player makes a room, and chat is in front of the answer. The answer has been taken when the
server goes, so that the player is told; the chat was put aside, and is lost. -/
theorem taken_answer_is_told :
    let line := Message.encode (⟨2, .ofString lineWidth "hi"⟩ : ChatLine)
    let answer := Message.encode (⟨7⟩ : CreateAnswer)
    let ms : List Whole := [(.chat, line), (.createAnswer, answer)]
    let calls : List Call := [.deliver (line ++ answer), .createRoom, .createRoom]
    let since : List Call := [.receiveChat, .isConnected, .receiveChat]
    let c : LobbyClient := {}
    let d := (c.call .createRoom).2.after calls
    c.ended = false ∧ (∀ x ∈ ms, x.1.Spells x.2) ∧ c.waiting = .idle ∧ c.joining = none ∧
      c.unread ++ calls.flatMap Call.arriving ++ [] = ms.flatMap (·.2) ∧
      Errand.create.GoesOn (c.call .createRoom).2 calls ∧ .createRoom ∉ since ∧
      ((d.close.after since).call .createRoom).1 = .created (.ready (.ok 7)) ∧
      d.close.heard since = [] ∧ (d.close.after since).inbox = [⟨2, "hi"⟩] := by
  intro line answer ms calls since c d
  have hms : ∀ x ∈ ms, x.1.Spells x.2 := by
    simp only [ms, List.forall_mem_cons]
    exact ⟨⟨(⟨2, .ofString lineWidth "hi"⟩ : ChatLine), rfl⟩, ⟨(⟨7⟩ : CreateAnswer), rfl⟩, by simp⟩
  have hbytes : c.unread ++ calls.flatMap Call.arriving ++ [] = ms.flatMap (·.2) := by
    simp [c, unread, calls, ms, Call.arriving]
  have hgoes : Errand.create.GoesOn (c.call .createRoom).2 calls :=
    ⟨fun h => (by cases h), fun _ => (by cbv), fun _ => (by cbv), trivial⟩
  have hsince : .createRoom ∉ since := by simp [since]
  have hwaiting : d.waiting = .arrived .createAnswer answer := by decide +kernel
  have hinbox : d.inbox = [⟨2, "hi"⟩] := by decide +kernel
  obtain ⟨hread, hends⟩ := closing_ends_reading (c := c) rfl hms []
  obtain ⟨-, -, -, -, -, hsilent, hkept, -⟩ := hread (.createRoom :: calls) since hbytes
  refine ⟨rfl, hms, rfl, rfl, hbytes, hgoes, hsince, ?_, hsilent, hkept.trans hinbox⟩
  rcases hends .create calls since rfl rfl hbytes hgoes hsince with
    ⟨front, behind, frame, -, -, htaken, hsettles⟩ | ⟨hnot, -⟩
  · cases hwaiting.symm.trans htaken
    obtain ⟨m, hm, hanswer⟩ := hsettles
    rw [Message.decode_encode] at hm
    cases hm
    exact hanswer
  · exact absurd hwaiting (hnot answer)

/-- Chat and the answer to a request have arrived whole when the server goes. The chat is never
heard, and the request fails. -/
theorem arrived_whole_and_lost :
    let line := Message.encode (⟨2, .ofString lineWidth "hi"⟩ : ChatLine)
    let answer := Message.encode (⟨7⟩ : CreateAnswer)
    let ms : List Whole := [(.chat, line), (.createAnswer, answer)]
    let d := ((({} : LobbyClient).call .createRoom).2.call (.deliver (line ++ answer))).2
    (∀ x ∈ ms, x.1.Spells x.2) ∧ d.unread = ms.flatMap (·.2) ∧ lines ms = [⟨2, "hi"⟩] ∧
      d.waiting = .requested .createAnswer ∧ (∀ since, d.close.heard since = []) ∧
      (d.close.call .createRoom).1 = .created (.ready (.error .disconnected)) := by
  intro line answer ms d
  refine ⟨?_, ?_, ?_, rfl, fun since => (keeps_after rfl since).1, rfl⟩
  · simp only [ms, List.forall_mem_cons]
    exact ⟨⟨(⟨2, .ofString lineWidth "hi"⟩ : ChatLine), rfl⟩, ⟨(⟨7⟩ : CreateAnswer), rfl⟩, by simp⟩
  · simp only [ms, List.flatMap_cons, List.flatMap_nil, List.append_nil]
    rfl
  · decide +kernel

end CoopShooter.LobbyClient
