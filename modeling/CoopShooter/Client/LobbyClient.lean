import CoopShooter.Client.FrameBuffer
import CoopShooter.Net.Endpoint

/-!
A player's part in the lobby. Creating and joining rooms goes one step at a time, with one request
under way at most; lists are waited for. Lines of chat are put aside as they come and never take
the place of an answer.
-/

namespace CoopShooter

/-- Why a request of the lobby fails. -/
inductive LobbyError where
  | disconnected
  | protocol (cause : WireError)
  | refused (reason : String)
  | roomRejected
  | busy
  | timeout
  deriving DecidableEq, Repr

/-- The wording of a failure. -/
def LobbyError.message : LobbyError → String
  | .disconnected => "server closed the connection"
  | .protocol cause => s!"protocol error: {cause.message}"
  | .refused reason => s!"server refused the connection: {reason}"
  | .roomRejected => "room request refused"
  | .busy => "another request is still in flight"
  | .timeout => "timed out waiting for the server"

/-- How far the request under way has come. -/
inductive Waiting where
  | idle
  | requested (expected : LobbyOp)
  | announced (expected : LobbyOp)
  | arrived (expected : LobbyOp) (frame : Bytes)
  deriving DecidableEq, Repr

/-- The message that is waited for. -/
def Waiting.expected? : Waiting → Option LobbyOp
  | idle => none
  | requested expected | announced expected | arrived expected _ => some expected

/-- A request after one more step. -/
inductive Progress (α : Type) where
  | pending
  | ready (result : Except LobbyError α)

/-- A line of chat as it is read. -/
structure Chat where
  sender : UInt32
  text : String
  deriving DecidableEq, Repr

/-- A room of a list. -/
structure RoomSummary where
  room : UInt32
  players : UInt32
  status : Option RoomStatus
  deriving DecidableEq, Repr

/-- How it stands with a room that the player has joined. -/
inductive LobbyState where
  | starting
  | waiting (host : UInt32) (members : List (UInt32 × String))
  deriving DecidableEq, Repr

/-- The player is named among those who wait. -/
def LobbyState.contains (player : UInt32) : LobbyState → Bool
  | starting => false
  | waiting _ members => members.any (·.1 == player)

/-- One end of a stream to a server, and what is known from it. -/
structure LobbyClient where
  server : Host := .loopback
  /-- Bytes from the server that have arrived and not been looked at. -/
  incoming : Bytes := []
  /-- The server has ended its side. -/
  ended : Bool := false
  /-- All bytes written to the server. -/
  sent : Bytes := []
  buffer : FrameBuffer := {}
  waiting : Waiting := .idle
  /-- Lines of chat that nobody has read, the oldest first. -/
  inbox : List Chat := []
  welcome : Option Welcome := none
  room : Option UInt32 := none
  joining : Option UInt32 := none
  deriving DecidableEq

/-- Something done with a client that may fail. What was done before a failure stays done. -/
abbrev Exchange (α : Type) := EStateM LobbyError LobbyClient α

namespace LobbyClient

/-- The server sends bytes. -/
def deliver (c : LobbyClient) (bs : Bytes) : LobbyClient :=
  { c with incoming := c.incoming ++ bs }

/-- The server ends its side. -/
def close (c : LobbyClient) : LobbyClient :=
  { c with ended := true }

def player? (c : LobbyClient) : Option UInt32 := c.welcome.map (·.player)

/-- Where the server expects the player's datagrams. -/
def gameEndpoint? (c : LobbyClient) : Option Endpoint :=
  c.welcome.map fun w => { host := c.server, port := w.gamePort }

/-- Writes a message. -/
def write {α : Type} [Message α] (m : α) : Exchange Unit :=
  modify fun c => { c with sent := c.sent ++ Message.encode m }

/-- Turns a refusal of bytes into a failure. -/
def expectOk {α : Type} : Except WireError α → Exchange α
  | .ok a => pure a
  | .error cause => throw (.protocol cause)

/-! ## Logging in -/

/-- The next `count` bytes of the stream, waiting for them as long as they may still come. -/
def readExactly (count : Nat) : Exchange Bytes := do
  let c ← get
  if count ≤ c.incoming.length then
    set { c with incoming := c.incoming.drop count }
    return c.incoming.take count
  else
    set { c with incoming := [] }
    throw (if c.ended then .disconnected else .timeout)

/-- Says the player's name and waits for the answer. -/
def handshake (name : String) : Exchange Welcome := do
  write (⟨.ofString nameWidth name⟩ : Greeting)
  let opcode := (← readExactly 1).headD 0
  match LobbyOp.ofCode? opcode with
  | none => throw (.protocol (.unknownOpcode opcode))
  | some .welcome =>
    let welcome ← expectOk (Message.decodeBody Welcome (← readExactly (Record.size Welcome)))
    modify fun c => { c with welcome := some welcome }
    return welcome
  | some .refusal =>
    let refusal ← expectOk (Message.decodeBody Refusal (← readExactly (Record.size Refusal)))
    throw (.refused refusal.reason.text)
  | some _ => throw (.protocol (.unexpectedOpcode LobbyOp.welcome.code opcode))

/-! ## Reading the stream -/

/-- Takes in all that has arrived. -/
def fill : Exchange Unit := do
  modify fun c => { c with buffer := c.buffer.append c.incoming, incoming := [] }
  if (← get).ended then throw .disconnected

/-- Takes the lines of chat from the front of a buffer. -/
def takeChat (b : FrameBuffer) : List Chat × FrameBuffer :=
  if b.peek? = some .chat then
    match h : b.take? with
    | (none, rest) => ([], rest)
    | (some (_, frame), rest) =>
      have := FrameBuffer.length_take?_lt h
      let line := Record.read ChatLine (frame.drop 1)
      let (lines, rest) := takeChat rest
      (⟨line.sender, line.text.text⟩ :: lines, rest)
  else ([], b.settle)
termination_by b.bytes.length

theorem length_takeChat_le (b : FrameBuffer) : (takeChat b).2.bytes.length ≤ b.bytes.length := by
  fun_induction takeChat b with
  | case1 b _ rest h =>
    have : rest = b.settle := by
      unfold FrameBuffer.take? at h
      split at h <;> simp_all
    exact this ▸ b.length_settle_le
  | case2 => grind
  | case3 b => exact b.length_settle_le

/-- Takes in all that has arrived, and puts the chat at its front aside. -/
def pump : Exchange Unit := do
  fill
  modify fun c =>
    let (lines, buffer) := takeChat c.buffer
    { c with buffer := buffer, inbox := c.inbox ++ lines }

/-- The next message that is not chat, once it is there whole. -/
def nextFrame? : Exchange (Option (LobbyOp × Bytes)) := do
  pump
  let c ← get
  let (frame?, buffer) := c.buffer.take?
  set { c with buffer := buffer }
  return frame?

/-! ## Requests that go step by step -/

/-- The next step of a request whose answer is a message of the type `answer`. -/
def step {request : Type} (answer : Type) [Message request] [Message answer] (expected : LobbyOp)
    (m : request) : Exchange (Option answer) := do
  let waiting := (← get).waiting
  modify fun c => { c with waiting := .idle }
  match waiting with
  | .idle =>
    write m
    modify fun c => { c with waiting := .requested expected }
    return none
  | .requested _ =>
    pump
    let c ← get
    match c.buffer.peek? with
    | none => set { c with waiting := .requested expected }
    | some op =>
      if op = expected then set { c with waiting := .announced expected }
      else set { c with buffer := c.buffer.take?.2, waiting := .requested expected }
    return none
  | .announced _ =>
    match ← nextFrame? with
    | none => modify fun c => { c with waiting := .announced expected }
    | some (_, frame) => modify fun c => { c with waiting := .arrived expected frame }
    return none
  | .arrived _ frame => return some (← expectOk (Message.decode answer frame))

/-- Takes a request one step further. Another request under way is not disturbed. -/
def poll {request : Type} (answer : Type) [Message request] [Message answer] (expected : LobbyOp)
    (m : request) (c : LobbyClient) : Progress answer × LobbyClient :=
  if c.waiting.expected?.all (· = expected) then
    match step answer expected m c with
    | .ok none c => (.pending, c)
    | .ok (some a) c => (.ready (.ok a), c)
    | .error e c => (.ready (.error e), { c with waiting := .idle })
  else (.ready (.error .busy), c)

/-- Takes the making of a room one step further. -/
def createRoom (c : LobbyClient) : Progress UInt32 × LobbyClient :=
  match poll CreateAnswer .createAnswer ({} : CreateRequest) c with
  | (.pending, c) => (.pending, c)
  | (.ready (.error e), c) => (.ready (.error e), c)
  | (.ready (.ok a), c) =>
    (.ready (if a.room < 0 then .error .roomRejected else .ok a.room.toUInt32), c)

/-- Takes the joining of a room one step further. Meanwhile no other room can be joined. -/
def joinRoom (room : UInt32) (c : LobbyClient) : Progress Bool × LobbyClient :=
  if c.joining.all (· = room) then
    match poll JoinAnswer .joinAnswer (⟨room⟩ : JoinRequest) c with
    | (.pending, c) => (.pending, { c with joining := some room })
    | (.ready (.error e), c) => (.ready (.error e), { c with joining := none })
    | (.ready (.ok a), c) =>
      if a.status = 0 then (.ready (.ok false), { c with joining := none })
      else (.ready (.ok true), { c with joining := none, room := some room })
  else (.ready (.error .busy), c)

/-! ## Requests that are waited for -/

/-- Fails while a request is under way. -/
def ensureIdle : Exchange Unit := do
  if (← get).waiting ≠ .idle then throw .busy

/-- The first message in a buffer that is wanted, with the chat in front of it. Other messages are
dropped. -/
def search (wanted : LobbyOp → Bool) (b : FrameBuffer) :
    List Chat × Option (LobbyOp × Bytes) × FrameBuffer :=
  match hb : (takeChat b).2.take? with
  | (none, rest) => ((takeChat b).1, none, rest)
  | (some frame, rest) =>
    if wanted frame.1 then ((takeChat b).1, some frame, rest)
    else
      have := FrameBuffer.length_take?_lt hb
      have := length_takeChat_le b
      let (more, found, rest) := search wanted rest
      ((takeChat b).1 ++ more, found, rest)
termination_by b.bytes.length

/-- Waits for a message that is wanted. -/
def await (wanted : LobbyOp → Bool) : Exchange (LobbyOp × Bytes) := do
  fill
  let c ← get
  let (lines, found, buffer) := search wanted c.buffer
  set { c with buffer := buffer, inbox := c.inbox ++ lines }
  match found with
  | some frame => return frame
  | none => throw .timeout

/-- Asks for all rooms. -/
def listRooms : Exchange (List RoomSummary) := do
  ensureIdle
  write ({} : RoomListRequest)
  let (_, frame) ← await (· = .roomList)
  let (_, entries) ← expectOk (Listing.decode RoomListHeader frame)
  return entries.map fun e => ⟨e.room, e.players, RoomStatus.ofCode? e.status⟩

/-- Asks how it stands with the room. -/
def lobbyState : Exchange LobbyState := do
  ensureIdle
  write ({} : LobbyRequest)
  let (op, frame) ← await fun op => op = .lobby || op = .startNotice
  if op = .startNotice then return .starting
  let (h, entries) ← expectOk (Listing.decode LobbyHeader frame)
  return .waiting h.host (entries.map fun e => (e.player, e.name.text))

/-! ## Everything else -/

/-- Asks for the game to begin. -/
def sendStart : Exchange Unit := write ({} : StartRequest)

/-- Says a line of chat. -/
def sendChat (text : String) : Exchange Unit := do
  let sender := (← get).player?.getD 0
  write (⟨sender, .ofString lineWidth text⟩ : ChatLine)

/-- The oldest line of chat that has not been read. -/
def receiveChat : Exchange (Option Chat) := do
  pump
  let c ← get
  set { c with inbox := c.inbox.tail }
  return c.inbox.head?

/-- Whether the server is still there. -/
def isConnected (c : LobbyClient) : Bool × LobbyClient :=
  match pump c with
  | .ok _ c => (true, c)
  | .error _ c => (false, c)

end LobbyClient

end CoopShooter
