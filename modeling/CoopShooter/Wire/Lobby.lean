import CoopShooter.Wire.Message

/-!
The messages of the lobby, which travel over a byte stream: log in, list, create and join rooms,
see who waits in a room, start its game, and chat.
-/

namespace CoopShooter

/-- The messages of the lobby. -/
inductive LobbyOp where
  | greeting
  | welcome
  | refusal
  | roomListRequest
  | roomList
  | createRequest
  | createAnswer
  | joinRequest
  | joinAnswer
  | lobbyRequest
  | lobby
  | startRequest
  | startNotice
  | chat
  deriving DecidableEq, Repr

namespace LobbyOp

/-- The opcode byte of a message. -/
def code : LobbyOp → UInt8
  | greeting => 1
  | welcome => 2
  | refusal => 3
  | roomListRequest => 10
  | roomList => 11
  | createRequest => 12
  | createAnswer => 13
  | joinRequest => 14
  | joinAnswer => 15
  | lobbyRequest => 16
  | lobby => 17
  | startRequest => 18
  | startNotice => 19
  | chat => 20

/-- All messages of the lobby, by opcode. -/
def all : List LobbyOp :=
  [greeting, welcome, refusal, roomListRequest, roomList, createRequest, createAnswer,
    joinRequest, joinAnswer, lobbyRequest, lobby, startRequest, startNotice, chat]

/-- The message that an opcode byte announces. -/
def ofCode? (b : UInt8) : Option LobbyOp :=
  all.find? fun op => op.code == b

@[simp] theorem ofCode?_code (op : LobbyOp) : ofCode? op.code = some op := by
  cases op <;> decide

theorem code_of_ofCode? {b : UInt8} {op : LobbyOp} (h : ofCode? b = some op) : op.code = b := by
  have := List.find?_some h
  simpa using this

end LobbyOp

/-- The width of a player's name. -/
def nameWidth : Nat := 32

/-- The width of a line of chat and of a refusal's reason. -/
def lineWidth : Nat := 64

/-- Whether the game of a room has begun. -/
inductive RoomStatus where
  | lobby
  | playing
  deriving DecidableEq, Repr

namespace RoomStatus

/-- The number of a status in listings. -/
def code : RoomStatus → UInt8
  | lobby => 0
  | playing => 1

/-- The status that a number stands for. -/
def ofCode? (n : UInt8) : Option RoomStatus :=
  if n = 0 then some lobby else if n = 1 then some playing else none

@[simp] theorem ofCode?_code (s : RoomStatus) : ofCode? s.code = some s := by
  cases s <;> decide

end RoomStatus

/-! ## Logging in -/

/-- A client introduces itself. -/
structure Greeting where
  name : FixedText nameWidth
  deriving DecidableEq

instance : Message Greeting where
  opcode := LobbyOp.greeting.code
  layout := [.text nameWidth]
  toValues m := (m.name, ())
  ofValues | (name, ()) => ⟨name⟩
  ofValues_toValues _ := rfl
  toValues_ofValues _ := rfl

/-- The number of the new player and where its datagrams are expected. -/
structure Welcome where
  player : UInt32
  gamePort : UInt16
  timeMs : UInt32
  deriving DecidableEq

instance : Message Welcome where
  opcode := LobbyOp.welcome.code
  layout := [.u32, .u16, .u32]
  toValues m := (m.player, m.gamePort, m.timeMs, ())
  ofValues | (player, gamePort, timeMs, ()) => ⟨player, gamePort, timeMs⟩
  ofValues_toValues _ := rfl
  toValues_ofValues _ := rfl

/-- The client is not let in. -/
structure Refusal where
  reason : FixedText lineWidth
  deriving DecidableEq

instance : Message Refusal where
  opcode := LobbyOp.refusal.code
  layout := [.text lineWidth]
  toValues m := (m.reason, ())
  ofValues | (reason, ()) => ⟨reason⟩
  ofValues_toValues _ := rfl
  toValues_ofValues _ := rfl

/-! ## Rooms -/

/-- Which rooms are there? -/
structure RoomListRequest where
  deriving DecidableEq

instance : Message RoomListRequest := .bare LobbyOp.roomListRequest.code {} fun _ => rfl

/-- One room of a room list. -/
structure RoomEntry where
  room : UInt32
  players : UInt32
  status : UInt8
  deriving DecidableEq

instance : Record RoomEntry where
  layout := [.u32, .u32, .u8]
  toValues r := (r.room, r.players, r.status, ())
  ofValues | (room, players, status, ()) => ⟨room, players, status⟩
  ofValues_toValues _ := rfl
  toValues_ofValues _ := rfl

/-- The header of a room list. -/
structure RoomListHeader where
  count : UInt32
  deriving DecidableEq

instance : Listing RoomListHeader RoomEntry where
  opcode := LobbyOp.roomList.code
  layout := [.u32]
  toValues m := (m.count, ())
  ofValues | (count, ()) => ⟨count⟩
  ofValues_toValues _ := rfl
  toValues_ofValues _ := rfl
  count h := h.count.toNat

/-- A new room, please. -/
structure CreateRequest where
  deriving DecidableEq

instance : Message CreateRequest := .bare LobbyOp.createRequest.code {} fun _ => rfl

/-- The new room; a negative number says that there is none. -/
structure CreateAnswer where
  room : Int32
  deriving DecidableEq

instance : Message CreateAnswer where
  opcode := LobbyOp.createAnswer.code
  layout := [.i32]
  toValues m := (m.room, ())
  ofValues | (room, ()) => ⟨room⟩
  ofValues_toValues _ := rfl
  toValues_ofValues _ := rfl

/-- Let me into a room. -/
structure JoinRequest where
  room : UInt32
  deriving DecidableEq

instance : Message JoinRequest where
  opcode := LobbyOp.joinRequest.code
  layout := [.u32]
  toValues m := (m.room, ())
  ofValues | (room, ()) => ⟨room⟩
  ofValues_toValues _ := rfl
  toValues_ofValues _ := rfl

/-- Zero says that the player is not let in. -/
structure JoinAnswer where
  status : UInt8
  deriving DecidableEq

instance : Message JoinAnswer where
  opcode := LobbyOp.joinAnswer.code
  layout := [.u8]
  toValues m := (m.status, ())
  ofValues | (status, ()) => ⟨status⟩
  ofValues_toValues _ := rfl
  toValues_ofValues _ := rfl

/-! ## Inside a room -/

/-- Who waits in this room? -/
structure LobbyRequest where
  deriving DecidableEq

instance : Message LobbyRequest := .bare LobbyOp.lobbyRequest.code {} fun _ => rfl

/-- One player who waits in a room. -/
structure MemberEntry where
  player : UInt32
  name : FixedText nameWidth
  deriving DecidableEq

instance : Record MemberEntry where
  layout := [.u32, .text nameWidth]
  toValues r := (r.player, r.name, ())
  ofValues | (player, name, ()) => ⟨player, name⟩
  ofValues_toValues _ := rfl
  toValues_ofValues _ := rfl

/-- The header of the list of those who wait in a room. -/
structure LobbyHeader where
  host : UInt32
  count : UInt32
  deriving DecidableEq

instance : Listing LobbyHeader MemberEntry where
  opcode := LobbyOp.lobby.code
  layout := [.u32, .u32]
  toValues m := (m.host, m.count, ())
  ofValues | (host, count, ()) => ⟨host, count⟩
  ofValues_toValues _ := rfl
  toValues_ofValues _ := rfl
  count h := h.count.toNat

/-- Begin the game. -/
structure StartRequest where
  deriving DecidableEq

instance : Message StartRequest := .bare LobbyOp.startRequest.code {} fun _ => rfl

/-- The game has begun. -/
structure StartNotice where
  deriving DecidableEq

instance : Message StartNotice := .bare LobbyOp.startNotice.code {} fun _ => rfl

/-- A line of chat. The server puts the sender's number in. -/
structure ChatLine where
  sender : UInt32
  text : FixedText lineWidth
  deriving DecidableEq

instance : Message ChatLine where
  opcode := LobbyOp.chat.code
  layout := [.u32, .text lineWidth]
  toValues m := (m.sender, m.text, ())
  ofValues | (sender, text, ()) => ⟨sender, text⟩
  ofValues_toValues _ := rfl
  toValues_ofValues _ := rfl

end CoopShooter
