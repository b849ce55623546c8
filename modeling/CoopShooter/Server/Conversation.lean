import CoopShooter.Server.Basic
import CoopShooter.Wire.Stream

/-!
What clients say on their streams and what they are answered. A stream begins with a greeting;
then the client lists, creates and joins rooms; once it has joined one, it asks who waits there,
starts the game and chats. Messages that have no place in a stage, and bytes that begin no
message, are passed over. A turn reads as much as it takes to serve one message; a turn that finds
too few bytes has done nothing yet and is taken again when more have arrived.
-/

namespace CoopShooter.Server

/-- The reason given to a client that does not begin with a greeting. -/
def noGreeting : String := "expected CONNECT"

/-- The list of all rooms. -/
def roomList (g : Registry) : Bytes :=
  let entries := g.roomEntries
  Listing.bytes (⟨UInt32.ofNat entries.length⟩ : RoomListHeader) entries

/-- What a player is told about a room: that its game has begun, or who waits in it. -/
def roomState (g : Registry) (room : UInt32) : Bytes :=
  if g.isPlaying room then Message.encode ({} : StartNotice)
  else
    let (host, members) := (g.lobby? room).getD (0, [])
    let entries := members.map fun (player, name) =>
      (⟨player, .ofString nameWidth name⟩ : MemberEntry)
    Listing.bytes (⟨host, UInt32.ofNat entries.length⟩ : LobbyHeader) entries

/-- The number of a new room as it is answered; one too large for the answer counts as none. -/
def createAnswer (room : UInt32) : CreateAnswer :=
  ⟨if room < 0x80000000 then room.toInt32 else -1⟩

/-- Writes one line of chat to everybody in a room but its sender. -/
def relay (s : Server) (sender : UInt32) (line : FixedText lineWidth) (members : List UInt32) :
    Server :=
  (members.filter (· != sender)).foldl
    (fun s member => (s.sendTo member (Message.encode (⟨sender, line⟩ : ChatLine))).state) s

/-- Lets a client in that has said its name, under the next number. A number is also used up where
the answer cannot be written any more; as writing never fails here, such a client is one that is let
in and hangs up. -/
def welcome (s : Server) (link : Nat) (name : String) (now : UInt32) : Server :=
  let player := s.nextPlayer
  let s := s.setStage link (.lobby player name)
  let s := s.write link (Message.encode (⟨player, s.gamePort, now⟩ : Welcome))
  { s with sessions := s.sessions.insert player link, nextPlayer := player + 1 }

/-- Turns away a client that does not begin with a greeting. -/
def refuse (s : Server) (link : Nat) : Outcome Server Unit :=
  (s.write link (Message.encode (⟨.ofString lineWidth noGreeting⟩ : Refusal))).endLink link

/-- Answers with a new room. -/
def answerCreate (s : Server) (link : Nat) : Outcome Server Unit :=
  let out := s.createRoom
  ⟨out.state.write link (Message.encode (createAnswer out.answer)), (), out.offers⟩

/-- Lets a client into a room, if the room takes it. -/
def answerJoin (s : Server) (link : Nat) (player : UInt32) (name : String) (room : UInt32) :
    Outcome Server Unit :=
  let out := s.onRegistry fun g => g.joinRoom player name room
  let s := out.state.write link (Message.encode (⟨if out.answer then 1 else 0⟩ : JoinAnswer))
  ⟨if out.answer then s.setStage link (.inRoom player name room) else s, (), out.offers⟩

/-- Starts the game of a room, if the client may. There is no answer. -/
def answerStart (s : Server) (player room : UInt32) : Outcome Server Unit :=
  let out := s.onRegistry fun g => g.startGame player room
  ⟨out.state, (), out.offers⟩

/-! ## Reading and serving -/

/-- Reads on, byte by byte, until the length can be told of the frame that has begun. -/
def readLength (frame : Bytes) (s : ByteStream) : Except WireError (Bytes × Nat) × ByteStream :=
  match Frame.length? frame with
  | .error e => (.error e, s)
  | .ok (some length) => (.ok (frame, length), s)
  | .ok none =>
    match h : s.take 1 with
    | (.error e, s) => (.error e, s)
    | (.ok byte, s') =>
      have : s'.unread.length < s.unread.length := ByteStream.length_unread_lt_of_take h
      readLength (frame ++ byte) s'
termination_by s.unread.length

theorem length_unread_readLength_le (frame : Bytes) (s : ByteStream) :
    (readLength frame s).2.unread.length ≤ s.unread.length := by
  induction frame, s using readLength.induct with
  | case1 frame s e h => exact Nat.le_of_eq (by rw [readLength, h])
  | case2 frame s length h => exact Nat.le_of_eq (by rw [readLength, h])
  | case3 frame s h e s' htake =>
    have hle := s.length_unread_take_le 1
    rw [readLength, h]
    simp only
    split
    · next htake' => rw [htake'] at hle; exact hle
    · next htake' => rw [htake] at htake'; cases htake'
  | case4 frame s h byte s' htake hlt ih =>
    rw [readLength, h]
    simp only
    split
    · next htake' => rw [htake] at htake'; cases htake'
    · next htake' =>
      rw [htake] at htake'
      cases htake'
      exact Nat.le_of_lt (Nat.lt_of_le_of_lt ih hlt)

/-- Passes over the rest of a message that has no place here. -/
def skipBody (opcode : UInt8) : Reader Unit := do
  let (frame, length) ← (⟨readLength [opcode]⟩ : Reader (Bytes × Nat))
  let _rest ← Reader.take (length - frame.length)

/-- A client that has said nothing has to greet. -/
def greetingTurn (s : Server) (link : Nat) (now : UInt32) : Reader (Outcome Server Unit) := do
  let opcode ← Reader.opcode
  if opcode = LobbyOp.greeting.code then
    let greeting ← Reader.body Greeting
    return ⟨s.welcome link greeting.name.text now, (), []⟩
  else return s.refuse link

/-- One message of a client that is in no room. -/
def lobbyTurn (s : Server) (link : Nat) (player : UInt32) (name : String) :
    Reader (Outcome Server Unit) := do
  let opcode ← Reader.opcode
  match LobbyOp.ofCode? opcode with
  | some .roomListRequest => return ⟨s.write link (roomList s.registry), (), []⟩
  | some .createRequest => return s.answerCreate link
  | some .joinRequest =>
    let request ← Reader.body JoinRequest
    return s.answerJoin link player name request.room
  | some _ =>
    skipBody opcode
    return ⟨s, (), []⟩
  | none => return ⟨s, (), []⟩

/-- One message of a client that has joined a room. -/
def roomTurn (s : Server) (link : Nat) (player room : UInt32) : Reader (Outcome Server Unit) := do
  let opcode ← Reader.opcode
  match LobbyOp.ofCode? opcode with
  | some .startRequest => return s.answerStart player room
  | some .lobbyRequest => return ⟨s.write link (roomState s.registry room), (), []⟩
  | some .chat =>
    let line ← Reader.body ChatLine
    return ⟨s.relay player line.text (s.registry.membersOf room), (), []⟩
  | some _ =>
    skipBody opcode
    return ⟨s, (), []⟩
  | none => return ⟨s, (), []⟩

/-- The next turn of a stream, unless the stream has ended. -/
def turn? (s : Server) (link : Nat) (now : UInt32) : Option (Reader (Outcome Server Unit)) :=
  match s.stageOf link with
  | .greeting => some (s.greetingTurn link now)
  | .lobby player name => some (s.lobbyTurn link player name)
  | .inRoom player _ room => some (s.roomTurn link player room)
  | .ended => none

theorem onward_skipBody (opcode : UInt8) : (skipBody opcode).Onward :=
  Reader.onward_bind (length_unread_readLength_le [opcode]) fun (frame, length) =>
    Reader.onward_bind (Reader.onward_take (length - frame.length)) fun _ => Reader.onward_pure ()

/-- A turn that is taken uses bytes up. -/
theorem advances_turn {s : Server} {link : Nat} {now : UInt32} {turn : Reader (Outcome Server Unit)}
    (h : s.turn? link now = some turn) : turn.Advances := by
  have hskip (opcode : UInt8) : (skipBody opcode >>= fun _ => pure ⟨s, (), []⟩ :
      Reader (Outcome Server Unit)).Onward :=
    Reader.onward_bind (onward_skipBody opcode) fun _ => Reader.onward_pure _
  unfold turn? at h
  split at h <;> cases h <;> refine Reader.advances_bind Reader.advances_opcode fun opcode => ?_
  · split
    · exact Reader.onward_bind (Reader.onward_body Greeting) fun _ => Reader.onward_pure _
    · exact Reader.onward_pure _
  · split
    · exact Reader.onward_pure _
    · exact Reader.onward_pure _
    · exact Reader.onward_bind (Reader.onward_body JoinRequest) fun _ => Reader.onward_pure _
    · exact hskip opcode
    · exact Reader.onward_pure _
  · split
    · exact Reader.onward_pure _
    · exact Reader.onward_pure _
    · exact Reader.onward_bind (Reader.onward_body ChatLine) fun _ => Reader.onward_pure _
    · exact hskip opcode
    · exact Reader.onward_pure _

/-- Takes turns as long as whole messages are there, and keeps what has arrived of the next one. -/
def serve (s : Server) (link : Nat) (bs : Bytes) (now : UInt32) : Outcome Server Unit :=
  match hturn : s.turn? link now with
  | none => ⟨s, (), []⟩
  | some turn =>
    match h : turn.run ⟨bs, 0⟩ with
    | (.ok out, rest) =>
      have : rest.unread.length < bs.length := advances_turn hturn ⟨bs, 0⟩ out rest h
      let next := serve out.state link rest.unread now
      { next with offers := out.offers ++ next.offers }
    | (.error .endOfBytes, _) => ⟨s.keep link bs, (), []⟩
    | (.error _, _) => s.endLink link
termination_by bs.length

/-- Bytes arrive on a stream. -/
def receive (s : Server) (link : Nat) (bs : Bytes) (now : UInt32) : Outcome Server Unit :=
  s.serve link ((s.links.find? link).elim [] Link.unread ++ bs) now

end CoopShooter.Server
