import Mathlib
import CoopShooter.Client.LobbyClient
import CoopShooter.Proofs.Client.Reassembly

/-!
What can be done with a lobby client, one call after the other, and what each call comes to while
the server has not ended its side. A request goes through four stages, one a call; every other call
that would begin a request finds the client busy meanwhile.
-/

namespace CoopShooter.LobbyClient

/-- What can happen to a client: bytes arrive from the server, or its owner calls. -/
inductive Call where
  | deliver (bs : Bytes)
  | createRoom
  | joinRoom (room : UInt32)
  | listRooms
  | lobbyState
  | receiveChat
  | isConnected
  deriving DecidableEq

/-- What a call is answered. Nobody is answered when bytes arrive. -/
inductive Answer where
  | delivered
  | created (p : Progress UInt32)
  | joined (p : Progress Bool)
  | rooms (r : Except LobbyError (List RoomSummary))
  | lobby (r : Except LobbyError LobbyState)
  | chat (r : Except LobbyError (Option Chat))
  | connected (b : Bool)

/-- What is done with a client, with what comes of it. -/
def perform {α : Type} (x : Exchange α) (c : LobbyClient) : Except LobbyError α × LobbyClient :=
  match x c with
  | .ok a c => (.ok a, c)
  | .error e c => (.error e, c)

/-- One call. -/
def call (c : LobbyClient) : Call → Answer × LobbyClient
  | .deliver bs => (.delivered, c.deliver bs)
  | .createRoom => (.created c.createRoom.1, c.createRoom.2)
  | .joinRoom room => (.joined (c.joinRoom room).1, (c.joinRoom room).2)
  | .listRooms => (.rooms (perform listRooms c).1, (perform listRooms c).2)
  | .lobbyState => (.lobby (perform lobbyState c).1, (perform lobbyState c).2)
  | .receiveChat => (.chat (perform receiveChat c).1, (perform receiveChat c).2)
  | .isConnected => (.connected c.isConnected.1, c.isConnected.2)

/-- The client after some calls. -/
def after (c : LobbyClient) (calls : List Call) : LobbyClient :=
  calls.foldl (fun c a => (c.call a).2) c

@[simp] lemma after_nil (c : LobbyClient) : c.after [] = c := rfl
@[simp] lemma after_cons (c : LobbyClient) (a : Call) (calls : List Call) :
    c.after (a :: calls) = (c.call a).2.after calls := rfl
lemma after_append (c : LobbyClient) (as bs : List Call) :
    c.after (as ++ bs) = (c.after as).after bs := by
  simp [after, List.foldl_append]
lemma after_snoc (c : LobbyClient) (as : List Call) (a : Call) :
    c.after (as ++ [a]) = ((c.after as).call a).2 := by
  rw [after_append]; rfl

/-- The bytes that arrive. -/
def Call.arriving : Call → Bytes
  | deliver bs => bs
  | _ => []

/-- The line of chat that is read. -/
def Answer.heard : Answer → List Chat
  | chat (.ok (some line)) => [line]
  | _ => []

lemma Answer.heard_chat (line : Option Chat) : (chat (.ok line)).heard = line.toList := by
  cases line <;> rfl

/-- The lines of chat that are read in some calls. -/
def heard (c : LobbyClient) : List Call → List Chat
  | [] => []
  | a :: calls => (c.call a).1.heard ++ heard (c.call a).2 calls

/-- What has arrived and not been looked at, or not been taken. -/
def unread (c : LobbyClient) : Bytes := c.buffer.bytes ++ c.incoming

/-! ## Reading the stream -/

variable {c : LobbyClient}

/-- The client with all that has arrived taken in, and nothing looked at. -/
def soaked (c : LobbyClient) : LobbyClient :=
  { c with buffer := c.buffer.append c.incoming, incoming := [] }

lemma fill_open (hopen : c.ended = false) : fill c = .ok () c.soaked := by
  obtain ⟨server, incoming, ended, sent, buffer, waiting, inbox, welcome, room, joining⟩ := c
  obtain rfl : ended = false := hopen
  rfl

lemma await_open {wanted : LobbyOp → Bool} {lines : List Chat} {found : Option (LobbyOp × Bytes)}
    {left : FrameBuffer} (hopen : c.ended = false)
    (hsearch : search wanted (c.buffer.append c.incoming) = (lines, found, left)) :
    await wanted c = found.elim
      (.error .timeout { c with incoming := [], buffer := left, inbox := c.inbox ++ lines })
      (.ok · { c with incoming := [], buffer := left, inbox := c.inbox ++ lines }) := by
  simp only [await, bind, EStateM.bind, fill_open hopen, soaked, get, getThe, MonadStateOf.get,
    EStateM.get, hsearch, set, MonadStateOf.set, EStateM.set]
  cases found <;> rfl

/-- The client with the chat at the front of what has arrived put aside. -/
def pumped (c : LobbyClient) : LobbyClient :=
  { c with
    buffer := (takeChat (c.buffer.append c.incoming)).2
    incoming := []
    inbox := c.inbox ++ (takeChat (c.buffer.append c.incoming)).1 }

lemma pump_open (hopen : c.ended = false) : pump c = .ok () c.pumped := by
  obtain ⟨server, incoming, ended, sent, buffer, waiting, inbox, welcome, room, joining⟩ := c
  obtain rfl : ended = false := hopen
  rfl

/-- The client after a look for an answer. Another message that comes next is dropped. -/
def looked (c : LobbyClient) (op : LobbyOp) : LobbyClient :=
  match c.buffer.peek? with
  | none => { c with waiting := .requested op }
  | some next =>
    if next = op then { c with waiting := .announced op }
    else { c with buffer := c.buffer.take?.2, waiting := .requested op }

lemma looked_found {op : LobbyOp} (h : c.buffer.peek? = some op) :
    c.looked op = { c with waiting := .announced op } := by
  simp only [looked, h, if_true]

lemma looked_other {op : LobbyOp} (h : c.buffer.peek? ≠ some op) {x : Option (LobbyOp × Bytes)}
    {b : FrameBuffer} (htake : c.buffer.take? = (x, b))
    (hnothing : c.buffer.peek? = none → b = c.buffer) :
    c.looked op = { c with buffer := b, waiting := .requested op } := by
  rcases hpeek : c.buffer.peek? with _ | next
  · simp only [looked, hpeek, hnothing hpeek]
  · have hne : next ≠ op := fun heq => h (by rw [hpeek, heq])
    simp only [looked, hpeek, hne, if_false, htake]

/-- The client after the next message was taken for the answer, if it is there whole. -/
def grabbed (c : LobbyClient) (op : LobbyOp) : LobbyClient :=
  match c.buffer.take? with
  | (none, buffer) => { c with buffer := buffer, waiting := .announced op }
  | (some (_, frame), buffer) => { c with buffer := buffer, waiting := .arrived op frame }

section

variable {request : Type} (answer : Type) [Message request] [Message answer] (op : LobbyOp)
  (m : request)

lemma poll_idle (h : c.waiting = .idle) :
    poll answer op m c =
      (.pending, { c with sent := c.sent ++ Message.encode m, waiting := .requested op }) := by
  obtain ⟨server, incoming, ended, sent, buffer, waiting, inbox, welcome, room, joining⟩ := c
  obtain rfl : waiting = .idle := h
  rfl

lemma poll_busy {other : LobbyOp} (h : c.waiting.expected? = some other) (hne : other ≠ op) :
    poll answer op m c = (.ready (.error .busy), c) := by
  rw [poll, h, if_neg]
  simpa using hne

lemma poll_requested (h : c.waiting = .requested op) (hopen : c.ended = false) :
    poll answer op m c = (.pending, c.pumped.looked op) := by
  have hpump : pump { c with waiting := .idle } =
      .ok () { c.pumped with waiting := .idle } := pump_open hopen
  have hstep : step answer op m c = .ok none (c.pumped.looked op) := by
    simp only [step, bind, EStateM.bind, get, getThe, MonadStateOf.get, EStateM.get, modify,
      modifyGet, MonadStateOf.modifyGet, EStateM.modifyGet, h, hpump, set, MonadStateOf.set, pure,
      looked]
    rcases c.pumped.buffer.peek? with _ | next
    · rfl
    · by_cases hnext : next = op
      · simp only [hnext, if_true]
        rfl
      · simp only [hnext, if_false]
        rfl
  rw [poll, h, if_pos (by simp [Waiting.expected?]), hstep]

lemma poll_announced (h : c.waiting = .announced op) (hopen : c.ended = false) :
    poll answer op m c = (.pending, c.pumped.grabbed op) := by
  have hpump : pump { c with waiting := .idle } =
      .ok () { c.pumped with waiting := .idle } := pump_open hopen
  have hstep : step answer op m c = .ok none (c.pumped.grabbed op) := by
    simp only [step, nextFrame?, bind, EStateM.bind, get, getThe, MonadStateOf.get, EStateM.get,
      modify, modifyGet, MonadStateOf.modifyGet, EStateM.modifyGet, h, hpump, set,
      MonadStateOf.set, EStateM.set, pure, EStateM.pure, grabbed]
    rcases c.pumped.buffer.take? with ⟨_ | ⟨next, frame⟩, buffer⟩ <;> rfl
  rw [poll, h, if_pos (by simp [Waiting.expected?]), hstep]

lemma poll_arrived {frame : Bytes} (h : c.waiting = .arrived op frame) :
    poll answer op m c =
      match Message.decode answer frame with
      | .ok a => (.ready (.ok a), { c with waiting := .idle })
      | .error e => (.ready (.error (.protocol e)), { c with waiting := .idle }) := by
  rw [poll, h, if_pos (by simp [Waiting.expected?])]
  simp only [step, bind, EStateM.bind, get, getThe, MonadStateOf.get, EStateM.get, modify,
    modifyGet, MonadStateOf.modifyGet, EStateM.modifyGet, h, pure, EStateM.pure]
  rcases Message.decode answer frame with e | a <;> rfl

end

lemma receiveChat_open (hopen : c.ended = false) :
    c.call .receiveChat =
      (.chat (.ok c.pumped.inbox.head?), { c.pumped with inbox := c.pumped.inbox.tail }) := by
  have hread : receiveChat c =
      .ok c.pumped.inbox.head? { c.pumped with inbox := c.pumped.inbox.tail } := by
    simp only [receiveChat, bind, EStateM.bind, pump_open hopen]
    rfl
  rw [call, perform, hread]

/-- Lines that were put aside are heard one after the other. -/
lemma heard_receiveChat {n : ℕ} (hopen : c.ended = false) (hn : n ≤ c.inbox.length) :
    c.heard (List.replicate n .receiveChat) = c.inbox.take n := by
  induction n generalizing c with
  | zero => rfl
  | succ n ih =>
    obtain ⟨line, rest, hinbox⟩ := List.exists_cons_of_length_pos (Nat.lt_of_lt_of_le n.succ_pos hn)
    obtain ⟨more, hpumped⟩ : ∃ more, c.pumped.inbox = line :: (rest ++ more) :=
      ⟨_, congrArg (· ++ _) hinbox⟩
    have hlen : n ≤ rest.length := by
      rw [hinbox, List.length_cons] at hn
      omega
    have hrest := ih (c := { c.pumped with inbox := rest ++ more }) hopen
      (hlen.trans (by rw [List.length_append]; omega))
    rw [List.take_append_of_le_length hlen] at hrest
    rw [List.replicate_succ, heard, receiveChat_open hopen, hpumped, hinbox, List.take_succ_cons,
      ← hrest]
    rfl

lemma isConnected_open (hopen : c.ended = false) :
    c.call .isConnected = (.connected true, c.pumped) := by
  rw [call, isConnected, pump_open hopen]

lemma ensureIdle_idle (h : c.waiting = .idle) : ensureIdle c = .ok () c := by
  simp only [ensureIdle, bind, EStateM.bind, get, getThe, MonadStateOf.get, EStateM.get, h, ne_eq,
    not_true_eq_false, if_false]
  rfl

lemma ensureIdle_busy (h : c.waiting ≠ .idle) : ensureIdle c = .error .busy c := by
  simp only [ensureIdle, bind, EStateM.bind, get, getThe, MonadStateOf.get, EStateM.get, ne_eq, h,
    not_false_eq_true, if_true]
  rfl

lemma listRooms_busy (h : c.waiting ≠ .idle) :
    c.call .listRooms = (.rooms (.error .busy), c) := by
  have hbusy : listRooms c = .error .busy c := by
    simp only [listRooms, bind, EStateM.bind, ensureIdle_busy h]
  rw [call, perform, hbusy]

lemma lobbyState_busy (h : c.waiting ≠ .idle) :
    c.call .lobbyState = (.lobby (.error .busy), c) := by
  have hbusy : lobbyState c = .error .busy c := by
    simp only [lobbyState, bind, EStateM.bind, ensureIdle_busy h]
  rw [call, perform, hbusy]

lemma createRoom_state (c : LobbyClient) :
    c.createRoom.2 = (poll CreateAnswer .createAnswer ({} : CreateRequest) c).2 := by
  rw [createRoom]
  split <;> next heq => rw [heq]

/-! ## A client that the server has left -/

lemma fill_ended (h : c.ended = true) : fill c = .error .disconnected c.soaked := by
  obtain ⟨server, incoming, ended, sent, buffer, waiting, inbox, welcome, room, joining⟩ := c
  obtain rfl : ended = true := h
  rfl

lemma pump_ended (h : c.ended = true) : pump c = .error .disconnected c.soaked := by
  simp only [pump, bind, EStateM.bind, fill_ended h]

/-! ## What lasts -/

/-- Whatever comes of it, what is done with a client stays within a relation. -/
def Within {α : Type} (R : LobbyClient → LobbyClient → Prop) (x : Exchange α) : Prop :=
  ∀ c, R c (perform x c).2

/-- One thing after the other stays within a relation, and so does writing to the server. -/
structure Lasting (R : LobbyClient → LobbyClient → Prop) : Prop where
  refl : ∀ c, R c c
  trans : ∀ {b c d}, R b c → R c d → R b d
  writes : ∀ (c : LobbyClient) (bs : Bytes), R c { c with sent := c.sent ++ bs }

section

variable {R : LobbyClient → LobbyClient → Prop} {α β : Type}

lemma Within.bind {x : Exchange α} {f : α → Exchange β}
    (htrans : ∀ {b c d}, R b c → R c d → R b d) (hx : Within R x) (hf : ∀ a, Within R (f a)) :
    Within R (x >>= f) := by
  intro c
  have hxc := hx c
  simp only [perform, Bind.bind, EStateM.bind] at hxc ⊢
  rcases hrun : x c with ⟨a, d⟩ | ⟨err, d⟩
  · have hfd := hf a d
    simp only [perform, hrun] at hxc hfd ⊢
    exact htrans hxc hfd
  · simpa only [hrun] using hxc

namespace Lasting

variable (h : Lasting R)
include h

lemma bind {x : Exchange α} {f : α → Exchange β} (hx : Within R x) (hf : ∀ a, Within R (f a)) :
    Within R (x >>= f) := hx.bind h.trans hf

lemma pure (a : α) : Within R (Pure.pure a : Exchange α) := h.refl

lemma write [Message α] (m : α) : Within R (LobbyClient.write m) := fun c => h.writes c _

lemma expectOk (r : Except WireError α) : Within R (LobbyClient.expectOk r) := by
  cases r <;> exact h.refl

lemma ensureIdle : Within R LobbyClient.ensureIdle := by
  intro c
  by_cases hidle : c.waiting = .idle
  · rw [perform, ensureIdle_idle hidle]
    exact h.refl c
  · rw [perform, ensureIdle_busy hidle]
    exact h.refl c

lemma listRooms (hawait : ∀ wanted, Within R (await wanted)) : Within R LobbyClient.listRooms :=
  h.bind h.ensureIdle fun _ => h.bind (h.write _) fun _ => h.bind (hawait _) fun _ =>
    h.bind (h.expectOk _) fun _ => h.pure _

lemma lobbyState (hawait : ∀ wanted, Within R (await wanted)) :
    Within R LobbyClient.lobbyState := by
  refine h.bind h.ensureIdle fun _ => h.bind (h.write _) fun _ => h.bind (hawait _) fun x => ?_
  by_cases hop : x.1 = .startNotice
  · simp only [hop, if_true]
    exact h.pure _
  · simp only [hop, if_false]
    exact h.bind (h.expectOk _) fun _ => h.pure _

end Lasting

end

/-! ## Errands -/

/-- What a player can ask for step by step: a new room, or to be let into one. -/
inductive Errand where
  | create
  | join (room : UInt32)
  deriving DecidableEq

namespace Errand

/-- The call that begins an errand and takes it further. -/
def call : Errand → Call
  | create => .createRoom
  | join room => .joinRoom room

/-- What is written to the server. -/
def request : Errand → Bytes
  | create => Message.encode ({} : CreateRequest)
  | join room => Message.encode (⟨room⟩ : JoinRequest)

/-- The message that answers it. -/
def expected : Errand → LobbyOp
  | create => .createAnswer
  | join _ => .joinAnswer

/-- The room that the player is about to join. -/
def room? : Errand → Option UInt32
  | create => none
  | join room => some room

/-- It goes on. -/
def pending : Errand → Answer
  | create => .created .pending
  | join _ => .joined .pending

/-- What the message that answers it says, and what the player is told then. -/
def Settles (e : Errand) (frame : Bytes) (a : Answer) : Prop :=
  match e with
  | create => ∃ m : CreateAnswer, Message.decode CreateAnswer frame = .ok m ∧
      a = .created (.ready (if m.room < 0 then .error .roomRejected else .ok m.room.toUInt32))
  | join _ => ∃ m : JoinAnswer, Message.decode JoinAnswer frame = .ok m ∧
      a = .joined (.ready (.ok (m.status ≠ 0)))

lemma expected_ne_chat (e : Errand) : e.expected ≠ .chat := by
  cases e <;> exact LobbyOp.noConfusion

@[simp] lemma arriving_call (e : Errand) : e.call.arriving = [] := by cases e <;> rfl

@[simp] lemma heard_pending (e : Errand) : e.pending.heard = [] := by cases e <;> rfl

lemma Settles.ne_pending {e : Errand} {frame : Bytes} {a : Answer} (h : e.Settles frame a) :
    a ≠ e.pending := by
  cases e with
  | create =>
    obtain ⟨m, -, rfl⟩ := h
    simp [pending]
  | join room =>
    obtain ⟨m, -, rfl⟩ := h
    simp [pending]

end Errand

/-- What a call that would begin a request is answered by a busy client. -/
def Call.refusal? : Call → Option Answer
  | createRoom => some (.created (.ready (.error .busy)))
  | joinRoom _ => some (.joined (.ready (.error .busy)))
  | listRooms => some (.rooms (.error .busy))
  | lobbyState => some (.lobby (.error .busy))
  | deliver _ | receiveChat | isConnected => none

variable {e : Errand}

/-- An errand begins: its request is written. -/
lemma call_begin (h : c.waiting = .idle) (hjoining : c.joining = none) :
    c.call e.call = (e.pending, { c with
      sent := c.sent ++ e.request, waiting := .requested e.expected, joining := e.room? }) := by
  obtain ⟨server, incoming, ended, sent, buffer, waiting, inbox, welcome, room, joining⟩ := c
  obtain rfl : waiting = .idle := h
  obtain rfl : joining = none := hjoining
  cases e <;> rfl

/-- While an errand is under way, whatever would begin another one finds the client busy. -/
lemma call_busy (h : c.waiting.expected? = some e.expected) (hjoining : c.joining = e.room?)
    {a : Call} {refusal : Answer} (ha : a.refusal? = some refusal) (hne : a ≠ e.call) :
    c.call a = (refusal, c) := by
  have hbusy : c.waiting ≠ .idle := by
    intro hidle
    rw [hidle] at h
    cases h
  cases a with
  | deliver | receiveChat | isConnected => cases ha
  | listRooms =>
    cases ha
    exact listRooms_busy hbusy
  | lobbyState =>
    cases ha
    exact lobbyState_busy hbusy
  | createRoom =>
    cases ha
    cases e with
    | create => exact absurd rfl hne
    | join room =>
      have hpoll := poll_busy CreateAnswer .createAnswer ({} : CreateRequest) h
        LobbyOp.noConfusion
      simp only [call, createRoom, hpoll]
  | joinRoom room =>
    cases ha
    cases e with
    | create =>
      have hfree : c.joining.all (· = room) = true := by rw [hjoining]; rfl
      have hpoll := poll_busy JoinAnswer .joinAnswer (⟨room⟩ : JoinRequest) h
        LobbyOp.noConfusion
      have hsame : { c with joining := none } = c := congrArg
        (fun joining => { c with joining := joining }) hjoining.symm
      simp only [call, joinRoom, hfree, if_true, hpoll, hsame]
    | join other =>
      have hother : c.joining.all (· = room) = false := by
        have hroom : other ≠ room := fun heq => hne (by rw [heq]; rfl)
        rw [hjoining]
        simpa [Errand.room?] using hroom
      simp only [call, joinRoom, hother, Bool.false_eq_true, if_false]

/-- The state in which the joining player is left by a poll that goes on. -/
lemma call_pending (hjoining : c.joining = e.room?) {d : LobbyClient}
    (hd : d.joining = c.joining)
    (hpoll : ∀ {request : Type} (answer : Type) [Message request] [Message answer] (m : request),
      poll answer e.expected m c = (.pending, d)) : c.call e.call = (e.pending, d) := by
  cases e with
  | create =>
    have hcreate := hpoll CreateAnswer ({} : CreateRequest)
    simp only [Errand.expected] at hcreate
    simp only [Errand.call, call, createRoom, hcreate]
    rfl
  | join room =>
    have hjoin := hpoll JoinAnswer (⟨room⟩ : JoinRequest)
    have hfree : c.joining.all (· = room) = true := by rw [hjoining]; simp [Errand.room?]
    have hsame : { d with joining := some room } = d :=
      congrArg (fun joining => { d with joining := joining }) (hd.trans hjoining).symm
    simp only [Errand.expected] at hjoin
    simp only [Errand.call, call, joinRoom, hfree, if_true, hjoin, hsame]
    rfl

lemma looked_keeps (c : LobbyClient) (op : LobbyOp) :
    (c.looked op).joining = c.joining ∧ (c.looked op).ended = c.ended ∧
      (c.looked op).waiting.expected? = some op := by
  rw [looked]
  split
  · exact ⟨rfl, rfl, rfl⟩
  · split <;> exact ⟨rfl, rfl, rfl⟩

lemma grabbed_keeps (c : LobbyClient) (op : LobbyOp) :
    (c.grabbed op).joining = c.joining ∧ (c.grabbed op).ended = c.ended ∧
      (c.grabbed op).waiting.expected? = some op := by
  rw [grabbed]
  split <;> exact ⟨rfl, rfl, rfl⟩

/-- An errand that waits looks what comes next. -/
lemma call_requested (h : c.waiting = .requested e.expected) (hjoining : c.joining = e.room?)
    (hopen : c.ended = false) : c.call e.call = (e.pending, c.pumped.looked e.expected) :=
  call_pending hjoining (looked_keeps _ _).1 fun answer _ _ m => poll_requested answer _ m h hopen

/-- An errand that has seen its answer come takes it. -/
lemma call_announced (h : c.waiting = .announced e.expected) (hjoining : c.joining = e.room?)
    (hopen : c.ended = false) : c.call e.call = (e.pending, c.pumped.grabbed e.expected) :=
  call_pending hjoining (grabbed_keeps _ _).1 fun answer _ _ m => poll_announced answer _ m h hopen

/-- An errand that has its answer ends with it. -/
lemma call_arrived {frame : Bytes} (h : c.waiting = .arrived e.expected frame)
    (hjoining : c.joining = e.room?) (hspells : e.expected.Spells frame) :
    e.Settles frame (c.call e.call).1 ∧
      ∃ room, (c.call e.call).2 = { c with waiting := .idle, joining := none, room := room } := by
  cases e with
  | create =>
    obtain ⟨m, rfl⟩ : ∃ m : CreateAnswer, Message.encode m = frame := hspells
    have hpoll := poll_arrived CreateAnswer .createAnswer ({} : CreateRequest) h
    simp only [Message.decode_encode] at hpoll
    simp only [Errand.call, call, createRoom, hpoll]
    exact ⟨⟨m, Message.decode_encode m, rfl⟩, c.room, congrArg
      (fun joining => { c with waiting := .idle, joining := joining }) hjoining⟩
  | join room =>
    obtain ⟨m, rfl⟩ : ∃ m : JoinAnswer, Message.encode m = frame := hspells
    have hpoll := poll_arrived JoinAnswer .joinAnswer (⟨room⟩ : JoinRequest) h
    have hfree : c.joining.all (· = room) = true := by rw [hjoining]; simp [Errand.room?]
    simp only [Message.decode_encode] at hpoll
    simp only [Errand.call, call, joinRoom, hfree, if_true, hpoll]
    by_cases hstatus : m.status = 0
    · simp only [hstatus, if_true]
      exact ⟨⟨m, Message.decode_encode m, by simp [hstatus]⟩, c.room, rfl⟩
    · simp only [hstatus, if_false]
      exact ⟨⟨m, Message.decode_encode m, by simp [hstatus]⟩, some room, rfl⟩

end CoopShooter.LobbyClient
