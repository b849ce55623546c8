import Mathlib
import CoopShooter.Proofs.Registry.Run
import CoopShooter.Proofs.Server.Stream
import CoopShooter.Proofs.Text.Fixed

/-!
What a client that was let in says and what it is answered, message by message, with no word about
bytes. This is what the server does with the client's stream, however it is cut.
-/

namespace CoopShooter.Server

variable {link : ℕ} {player room : UInt32} {name : String}

/-! ## Answers, byte by byte -/

/-- A number in four bytes, the lowest first. -/
def word (n : ℕ) : Bytes := LittleEndian.encode 4 n

/-- A name in its field: as many whole characters as fit, and zeros behind them. -/
def nameField (name : String) : Bytes :=
  let kept := Utf8.encode (Utf8.clip 31 name.toList)
  kept ++ List.replicate (32 - kept.length) 0

/-- How many rooms there are; then of each its number, how many players it has, and whether its game
has begun. -/
def roomsTold (g : Registry) : Bytes :=
  11 :: word g.rooms.size ++ g.rooms.values.flatMap fun r =>
    word r.id.toNat ++ word r.players.length ++ [if r.playing then 1 else 0]

/-- Who waits in a room: the host, how many there are, and each of them by number and name; or that
the game has begun. -/
def lobbyTold (g : Registry) (room : UInt32) : Bytes :=
  match g.room? room with
  | none => 17 :: word 0 ++ word 0
  | some r =>
    if r.playing then [19]
    else
      17 :: word (r.players.head?.elim 0 fun p => p.id.toNat) ++ word r.players.length ++
        r.players.flatMap fun p => word p.id.toNat ++ nameField p.name

/-- The number of a new room, or of none. -/
def createdTold (room : UInt32) : Bytes :=
  13 :: word (if room.toNat < 2 ^ 31 then room.toNat else 2 ^ 32 - 1)

/-- A line of chat, with the number of whoever sent it. -/
def chatTold (sender : UInt32) (line : FixedText lineWidth) : Bytes :=
  20 :: word sender.toNat ++ line.bytes

lemma word_ofNat (n : ℕ) : LittleEndian.encode 4 (UInt32.ofNat n).toNat = word n := by
  have hbyte (m k : ℕ) (h : m % 256 = k % 256) : UInt8.ofNat m = UInt8.ofNat k := by
    apply UInt8.toNat_inj.1
    rw [UInt8.toNat_ofNat', UInt8.toNat_ofNat']
    exact h
  rw [UInt32.toNat_ofNat', word]
  simp only [LittleEndian.encode, List.cons.injEq, and_true]
  refine ⟨hbyte _ _ ?_, hbyte _ _ ?_, hbyte _ _ ?_, hbyte _ _ ?_⟩ <;> omega

lemma bytes_nameField (name : String) :
    (FixedText.ofString nameWidth name).bytes = nameField name :=
  FixedText.bytes_ofString nameWidth name

lemma roomList_eq (g : Registry) : roomList g = roomsTold g := by
  have hentry (r : Room) : Record.encode
      (⟨r.id, UInt32.ofNat r.players.length, r.status.code⟩ : RoomEntry) =
        word r.id.toNat ++ word r.players.length ++ [if r.playing then 1 else 0] := by
    change LittleEndian.encode 4 _ ++ (LittleEndian.encode 4 _ ++ ([r.status.code] ++ [])) = _
    rw [word_ofNat, List.append_nil, List.append_assoc, Room.status]
    split_ifs <;> rfl
  have hcount : g.roomEntries.length = g.rooms.size := by
    simp [Registry.roomEntries, IdMap.values, IdMap.size]
  have hheader : Message.encode (⟨UInt32.ofNat g.roomEntries.length⟩ : RoomListHeader) =
      11 :: word g.rooms.size := by
    change 11 :: (LittleEndian.encode 4 _ ++ []) = _
    rw [word_ofNat, hcount, List.append_nil]
  rw [roomList, roomsTold, Listing.bytes, hheader, Registry.roomEntries, List.flatMap_map]
  simp only [hentry]

lemma roomState_eq (g : Registry) (room : UInt32) : roomState g room = lobbyTold g room := by
  have hentry (p : Player) : Record.encode
      (⟨p.id, .ofString nameWidth p.name⟩ : MemberEntry) =
        word p.id.toNat ++ nameField p.name := by
    change LittleEndian.encode 4 _ ++ ((FixedText.ofString nameWidth p.name).bytes ++ []) = _
    rw [bytes_nameField, List.append_nil, word]
  have hheader (host : UInt32) (n : ℕ) :
      Message.encode (⟨host, UInt32.ofNat n⟩ : LobbyHeader) =
        17 :: word host.toNat ++ word n := by
    change 17 :: (LittleEndian.encode 4 _ ++ (LittleEndian.encode 4 _ ++ [])) = _
    rw [word_ofNat, List.append_nil]
    rfl
  rw [roomState, lobbyTold, Registry.isPlaying, Registry.lobby?]
  rcases g.room? room with _ | r
  · rfl
  · rw [Option.any_some]
    rcases hplaying : r.playing with _ | _
    · have hhost : (r.host?.getD 0).toNat = r.players.head?.elim 0 fun p => p.id.toNat := by
        rw [Room.host?]
        cases r.players <;> rfl
      simp only [Option.map_some, Option.getD_some, Listing.bytes, hheader, hhost, Room.members,
        List.length_map, List.flatMap_map, hentry, hplaying, Bool.false_eq_true, if_false]
    · simp only [hplaying, if_true]
      rfl

lemma encode_createAnswer (room : UInt32) :
    Message.encode (createAnswer room) = createdTold room := by
  change 13 :: (LittleEndian.encode 4 (createAnswer room).room.toUInt32.toNat ++ []) = _
  rw [List.append_nil, createAnswer, createdTold, word]
  have hhalf : room < 0x80000000 ↔ room.toNat < 2 ^ 31 := UInt32.lt_iff_toNat_lt
  simp only [hhalf]
  split_ifs
  · rw [UInt32.toUInt32_toInt32]
  · rfl

lemma encode_chatLine (sender : UInt32) (line : FixedText lineWidth) :
    Message.encode (⟨sender, line⟩ : ChatLine) = chatTold sender line := by
  change 20 :: (LittleEndian.encode 4 _ ++ (line.bytes ++ [])) = _
  rw [List.append_nil]
  rfl

/-! ## What is said and done -/

/-- Puts bytes behind what was written on a stream. -/
def tell (s : Server) (link : ℕ) (bs : Bytes) : Server :=
  { s with links := ⟨s.links.all.modify link fun l => { l with written := l.written ++ bs }⟩ }

/-- Tells something to each of these players who has a session, one after the other. -/
def tellAll (s : Server) (bs : Bytes) : List UInt32 → Server
  | [] => s
  | player :: players =>
    match s.sessions.find? player with
    | none => s.tellAll bs players
    | some link => (s.tell link bs).tellAll bs players

/-- Lets a client be in a room from now on. -/
def seat (s : Server) (link : ℕ) (player : UInt32) (name : String) (room : UInt32) : Server :=
  { s with links := ⟨s.links.all.modify link fun l =>
      { l with stage := .inRoom player name room }⟩ }

/-- The rooms are now as an operation left them, and it has offered so many datagrams. -/
def ran {α : Type} (s : Server) (out : Outcome Registry α) : Outcome Server Unit :=
  ⟨{ s with registry := out.state }, (), out.offers⟩

/-- A client in a room starts the game, asks who waits, and chats with everybody else who is there.
Whatever else it says is passed over. -/
def roomTalk (s : Server) (link : ℕ) (player room : UInt32) :
    List Utterance → Outcome Server Unit
  | [] => ⟨s, (), []⟩
  | .startRequest :: us =>
    (s.ran (s.registry.startGame player room)).andThen fun s => s.roomTalk link player room us
  | .lobbyRequest :: us => (s.tell link (lobbyTold s.registry room)).roomTalk link player room us
  | .chat m :: us =>
    let others := ((s.registry.room? room).elim [] Room.memberIds).filter (· ≠ player)
    (s.tellAll (chatTold player m.text) others).roomTalk link player room us
  | _ :: us => s.roomTalk link player room us

/-- A client outside lists, creates and joins rooms until it is let into one; from then on it talks
in that room. Whatever else it says is passed over. A new room takes the next seed. -/
def lobbyTalk (s : Server) (link : ℕ) (player : UInt32) (name : String) :
    List Utterance → Outcome Server Unit
  | [] => ⟨s, (), []⟩
  | .roomListRequest :: us => (s.tell link (roomsTold s.registry)).lobbyTalk link player name us
  | .createRequest :: us =>
    let created := s.registry.createRoom (s.entropy.headD 0)
    (({ s with entropy := s.entropy.tail } : Server).ran created).andThen fun s =>
      (s.tell link (createdTold created.answer)).lobbyTalk link player name us
  | .joinRequest m :: us =>
    let joined := s.registry.joinRoom player name m.room
    (s.ran joined).andThen fun s =>
      if joined.answer then
        ((s.tell link [15, 1]).seat link player name m.room).roomTalk link player m.room us
      else (s.tell link [15, 0]).lobbyTalk link player name us
  | _ :: us => s.lobbyTalk link player name us

lemma relay_eq (s : Server) (sender : UInt32) (line : FixedText lineWidth) (members : List UInt32) :
    s.relay sender line members =
      s.tellAll (chatTold sender line) (members.filter (· ≠ sender)) := by
  have hfilter : members.filter (· != sender) = members.filter (· ≠ sender) :=
    List.filter_congr fun _ _ => by rw [bne, decide_not, beq_eq_decide]
  rw [relay, hfilter, encode_chatLine]
  generalize members.filter (· ≠ sender) = heard
  induction heard generalizing s with
  | nil => rfl
  | cons member heard ih =>
    rw [List.foldl_cons, ih, sendTo, tellAll]
    rcases s.sessions.find? member with _ | l <;> rfl

/-- What is done in a room, message by message. -/
lemma handleAll_inRoom {s : Server} (h : s.stageOf link = .inRoom player name room) (now : UInt32)
    (us : List Utterance) :
    s.handleAll link now (us.map Utterance.piece) = s.roomTalk link player room us := by
  induction us generalizing s with
  | nil => rfl
  | cons u us ih =>
    rw [List.map_cons, handleAll]
    cases u with
    | startRequest =>
      have hp : s.handlePiece link Utterance.startRequest.piece now =
          s.ran (s.registry.startGame player room) := by
        simp only [Utterance.piece, handlePiece, h]
        rfl
      rw [hp, roomTalk]
      exact Outcome.andThen_congr (ih h)
    | lobbyRequest =>
      have hp : s.handlePiece link Utterance.lobbyRequest.piece now =
          ⟨s.tell link (lobbyTold s.registry room), (), []⟩ := by
        simp only [Utterance.piece, handlePiece, h, ← roomState_eq]
        rfl
      rw [hp, Outcome.pure_andThen, roomTalk, ih]
      exact (s.stageOf_write link link _).trans h
    | chat m =>
      have hp : s.handlePiece link (Utterance.chat m).piece now =
          ⟨s.relay player m.text (s.registry.membersOf room), (), []⟩ := by
        simp only [Utterance.piece, handlePiece, h, insideRoom, Message.decode_encode]
      rw [hp, Outcome.pure_andThen, ih]
      · rw [roomTalk, relay_eq]
        rfl
      · rw [stageOf_relay, h]
    | _ =>
      simp only [Utterance.piece, handlePiece, h]
      exact ih h

/-- What is done outside and, once a join is accepted, in the room. -/
lemma handleAll_inLobby {s : Server} (h : s.stageOf link = .lobby player name) (now : UInt32)
    (us : List Utterance) :
    s.handleAll link now (us.map Utterance.piece) = s.lobbyTalk link player name us := by
  induction us generalizing s with
  | nil => rfl
  | cons u us ih =>
    rw [List.map_cons, handleAll]
    cases u with
    | roomListRequest =>
      have hp : s.handlePiece link Utterance.roomListRequest.piece now =
          ⟨s.tell link (roomsTold s.registry), (), []⟩ := by
        simp only [Utterance.piece, handlePiece, h, ← roomList_eq]
        rfl
      rw [hp, Outcome.pure_andThen, lobbyTalk, ih]
      exact (s.stageOf_write link link _).trans h
    | createRequest =>
      have hp : s.handlePiece link Utterance.createRequest.piece now =
          (({ s with entropy := s.entropy.tail } : Server).ran
            (s.registry.createRoom (s.entropy.headD 0))).andThen fun t =>
              ⟨t.tell link (createdTold (s.registry.createRoom (s.entropy.headD 0)).answer), (),
                []⟩ := by
        simp only [Utterance.piece, handlePiece, h, ← encode_createAnswer]
        rfl
      rw [hp, Outcome.andThen_assoc, lobbyTalk]
      refine Outcome.andThen_congr ?_
      rw [Outcome.pure_andThen, ih]
      exact (stageOf_write _ link link _).trans h
    | joinRequest m =>
      have hp : s.handlePiece link (Utterance.joinRequest m).piece now =
          (s.ran (s.registry.joinRoom player name m.room)).andThen fun t =>
            ⟨if (s.registry.joinRoom player name m.room).answer then
              (t.tell link [15, 1]).seat link player name m.room
            else t.tell link [15, 0], (), []⟩ := by
        simp only [Utterance.piece, handlePiece, h, inLobby, Message.decode_encode, answerJoin,
          onRegistry, ran, Outcome.andThen, List.append_nil]
        by_cases hjoined : (s.registry.joinRoom player name m.room).answer = true <;>
          simp only [hjoined, Bool.false_eq_true, if_true, if_false] <;> rfl
      rw [hp, Outcome.andThen_assoc, lobbyTalk]
      refine Outcome.andThen_congr ?_
      rw [Outcome.pure_andThen]
      have hwritten (t : Server) (ht : t.stageOf link = .lobby player name) (bs : Bytes) :
          (t.tell link bs).stageOf link = .lobby player name :=
        (t.stageOf_write link link bs).trans ht
      split_ifs
      · refine handleAll_inRoom (stageOf_setStage _ link _ fun hended => ?_) now us
        exact Stage.noConfusion ((hwritten _ h _).symm.trans hended)
      · exact ih (hwritten _ h _)
    | _ =>
      simp only [Utterance.piece, handlePiece, h]
      exact ih h

/-- Nothing is left over of what was answered. -/
lemma Admitted.keep_handleAll {s : Server} (h : s.Admitted link player)
    (hread : s.unreadOf link = []) (now : UInt32) (ps : List Frame.Piece) :
    (s.handleAll link now ps).state.keep link [] = (s.handleAll link now ps).state := by
  have hkeep := h.handleAll_keep now ps []
  rw [← hread, keep_unreadOf, hread] at hkeep
  exact (congrArg Outcome.state hkeep).symm

lemma find?_welcome {s : Server} (h : s.links.find? link = some {}) (name : String)
    (now : UInt32) :
    (s.welcome link name now).links.find? link =
      some ⟨.lobby s.nextPlayer name, [],
        Message.encode (⟨s.nextPlayer, s.gamePort, now⟩ : Welcome)⟩ := by
  simp [welcome, write, setStage, Links.find?_modify, h]

/-- A client that greets is let in. -/
lemma receive_greeting {s : Server} (h : s.links.find? link = some {}) (m : Greeting)
    (now : UInt32) :
    s.receive link (Message.encode m) now = ⟨s.welcome link m.name.text now, (), []⟩ := by
  have hstage : s.stageOf link = .greeting := by
    rw [stageOf, h]
    rfl
  have hpiece : nextPiece? .greeting (Message.encode m) =
      some (.frame .greeting (Message.encode m), []) := by
    have hnext := (Utterance.greeting m).next?_encode []
    rw [List.append_nil] at hnext
    exact hnext
  have hhandled : s.handlePiece link (.frame .greeting (Message.encode m)) now =
      ⟨s.welcome link m.name.text now, (), []⟩ := by
    simp only [handlePiece, hstage, Message.decode_encode]
  have hwelcome := find?_welcome h m.name.text now
  have hadmitted : (s.welcome link m.name.text now).Admitted link s.nextPlayer := by
    rw [Admitted, stageOf, hwelcome]
    rfl
  have hkeep := keep_unreadOf (s.welcome link m.name.text now) link
  rw [unreadOf, hwelcome, Option.elim_some] at hkeep
  have hopen : s.stageOf link ≠ .ended := hstage ▸ Stage.noConfusion
  have hwaiting : Frame.pieces [] = ([], []) := Frame.pieces_waiting rfl
  rw [receive_eq_consume, unreadOf, h]
  change s.consume link (Message.encode m) now = _
  rw [consume_piece hopen (hstage ▸ hpiece), hhandled, Outcome.pure_andThen, hadmitted.consume,
    hwaiting, handleAll, Outcome.pure_andThen, hkeep]

/-- **A stream stays aligned.** A client was let in and all it said before is answered. However the
bytes of what it says are cut, it gets exactly the answers to its messages, in their order; then the
server has read everything and waits for the next message. And cuts do not matter whatever the bytes
are. -/
theorem stream_stays_aligned {s : Server} {written : Bytes}
    (hlink : s.links.find? link = some ⟨.lobby player name, [], written⟩) :
    (∀ (us : List Utterance) (cuts : List (Bytes × UInt32)),
      cuts.flatMap (·.1) = us.flatMap Utterance.encode →
      let out := s.receiveAll link cuts
      out = s.lobbyTalk link player name us ∧
        ∃ l, out.state.links.find? link = some l ∧ l.unread = [] ∧ l.stage.player? = some player) ∧
    ∀ cuts cuts' : List (Bytes × UInt32), cuts.flatMap (·.1) = cuts'.flatMap (·.1) →
      s.receiveAll link cuts = s.receiveAll link cuts' := by
  have hstage : s.stageOf link = .lobby player name := by
    rw [stageOf, hlink]
    rfl
  have hread : s.unreadOf link = [] := by
    rw [unreadOf, hlink]
    rfl
  have hadmitted : s.Admitted link player := congrArg Stage.player? hstage
  have hwaits : Frame.next? (s.unreadOf link) = none := by
    rw [hread]
    rfl
  have hcuts := fun cuts => hadmitted.receiveAll hwaits cuts 0
  refine ⟨fun us cuts hus => ?_, fun cuts cuts' hsame => by rw [hcuts, hcuts, hsame]⟩
  intro out
  have hout : out = s.handleAll link 0 (us.map Utterance.piece) := by
    have hall : out = s.receive link (us.flatMap Utterance.encode) 0 := hus ▸ hcuts cuts
    rw [hall, hadmitted.receive, hread, List.nil_append, Utterance.pieces_flatMap_encode]
    simp only [Outcome.andThen, hadmitted.keep_handleAll hread, List.append_nil]
  have hadmitted' : out.state.Admitted link player := hout ▸ hadmitted.handleAll 0 _
  have hread' : out.state.unreadOf link = [] := by
    rw [hout, ← hadmitted.keep_handleAll hread, (hadmitted.handleAll 0 _).unreadOf_keep]
  obtain ⟨l, hl, hunread, hplayer⟩ := hadmitted'.exists_link
  exact ⟨hout.trans (handleAll_inLobby hstage 0 us), l, hl, hunread.trans hread', hplayer⟩

/-- A newcomer says a byte that means nothing, sends a list of players as if it were the server,
makes a room and joins it, wants to join another one, and starts the game. -/
def newcomer : List Utterance :=
  [.stray 0 rfl, .lobby ⟨10, 1⟩ (List.replicate 36 14) rfl, .createRequest, .joinRequest ⟨1⟩,
    .joinRequest ⟨2⟩, .startRequest, .lobbyRequest]

/-- Byte for byte, it is told its room, that it was let in, and that the game has begun. -/
theorem newcomer_is_answered :
    let m : Greeting := ⟨.ofString nameWidth "ann"⟩
    let s := ((({} : Server).openLink.state).receive 0 (Message.encode m) 5).state
    let cuts := (newcomer.flatMap Utterance.encode).map fun b => ([b], 9)
    s.links.find? 0 = some ⟨.lobby 1 m.name.text, [], [2, 1, 0, 0, 0, 132, 20, 5, 0, 0, 0]⟩ ∧
      ∃ l, (s.receiveAll 0 cuts).state.links.find? 0 = some l ∧ l.unread = [] ∧
        l.stage.player? = some 1 ∧
        l.written =
          [2, 1, 0, 0, 0, 132, 20, 5, 0, 0, 0] ++ [13, 1, 0, 0, 0] ++ [15, 1] ++ [19] := by
  intro m s cuts
  have hs : s = ({} : Server).openLink.state.welcome 0 m.name.text 5 :=
    congrArg Outcome.state (receive_greeting rfl m 5)
  have hlink : s.links.find? 0 =
      some ⟨.lobby 1 m.name.text, [], [2, 1, 0, 0, 0, 132, 20, 5, 0, 0, 0]⟩ :=
    hs ▸ find?_welcome rfl m.name.text 5
  have hcuts : cuts.flatMap (·.1) = newcomer.flatMap Utterance.encode := by
    simp [cuts, List.flatMap_map]
  obtain ⟨hout, l, hl, hunread, hplayer⟩ := (stream_stays_aligned hlink).1 newcomer cuts hcuts
  refine ⟨hlink, l, hl, hunread, hplayer, ?_⟩
  have hwritten : ((s.lobbyTalk 0 1 m.name.text newcomer).state.links.find? 0).map (·.written) =
      some ([2, 1, 0, 0, 0, 132, 20, 5, 0, 0, 0] ++ [13, 1, 0, 0, 0] ++ [15, 1] ++ [19]) := by
    rw [hs]
    decide +kernel
  rw [← hout, hl] at hwritten
  exact Option.some.inj hwritten

end CoopShooter.Server
