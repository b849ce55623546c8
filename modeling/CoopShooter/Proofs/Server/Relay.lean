import Mathlib
import CoopShooter.Proofs.Server.Agreement
import CoopShooter.Proofs.Server.Outsiders
import CoopShooter.Proofs.Server.Talk

/-!
Chat in rooms. What somebody in a room says reaches the stream of every other member once, under the
number of the player who says it and with the bytes of its text as they came, and no other stream.
Nothing else changes by it, so that in a whole conversation each stream gets what it hears in the
order in which it is said.
-/

namespace CoopShooter

namespace Frame

/-- A frame among the pieces of a stream spells its message. -/
lemma spells_of_mem_pieces {op : LobbyOp} {bs frame : Bytes}
    (h : .frame op frame ∈ (pieces bs).1) : op.Spells frame := by
  induction bs using pieces_induction with
  | waiting bs hbs =>
    rw [pieces_waiting hbs] at h
    cases h
  | piece bs p rest hbs ih =>
    rw [pieces_piece hbs] at h
    rcases List.mem_cons.1 h with rfl | h
    · exact (next?_eq_frame_iff.1 hbs).1
    · exact ih h

end Frame

/-- Chat as it arrives: who says it in which room, and the frame. -/
structure Remark where
  player : UInt32
  room : UInt32
  frame : Bytes

/-- The frame that the others get. It has the player's own number in place of what the client has
written there. -/
def Remark.relayed (r : Remark) : Bytes :=
  LobbyOp.chat.code :: (LittleEndian.encode 4 r.player.toNat ++ r.frame.drop 5)

lemma Remark.relayed_eq (player room : UInt32) (line : ChatLine) :
    relayed ⟨player, room, Message.encode line⟩ =
      Message.encode (⟨player, line.text⟩ : ChatLine) := by
  have htext : (Message.encode line).drop 5 = line.text.bytes := by
    rw [Server.encode_chatLine, Server.chatTold, Server.word, List.cons_append,
      List.drop_succ_cons, List.drop_left' (LittleEndian.length_encode 4 _)]
  rw [relayed, htext, Server.encode_chatLine player]
  rfl

namespace Server

variable {s t u : Server} {l link : ℕ} {player room p q : UInt32} {name : String} {r : Remark}

/-! ## Who hears what -/

/-- The stream is that of another member of the room. -/
def hears (s : Server) (l : ℕ) (r : Remark) : Bool :=
  (s.registry.membersOf r.room).any fun m => m ≠ r.player && s.sessions.find? m = some l

lemma hears_iff : s.hears l r = true ↔
    ∃ m ∈ s.registry.membersOf r.room, m ≠ r.player ∧ s.sessions.find? m = some l := by
  simp [hears]

lemma Agrees.session_unique (h : s.Agrees) (hp : s.sessions.find? p = some l)
    (hq : s.sessions.find? q = some l) : p = q :=
  Option.some.inj (((h.owned l p).2 hp).symm.trans ((h.owned l q).2 hq))

lemma Agrees.hears_iff_of_session (h : s.Agrees) (hp : s.sessions.find? p = some l) :
    s.hears l r = true ↔ p ∈ s.registry.membersOf r.room ∧ p ≠ r.player := by
  rw [hears_iff]
  constructor
  · rintro ⟨q, hq, hne, hsession⟩
    exact h.session_unique hp hsession ▸ ⟨hq, hne⟩
  · exact fun ⟨hm, hne⟩ => ⟨p, hm, hne, hp⟩

/-- Nothing but the streams has changed, and each has got the remarks that it hears. -/
structure Said (s t : Server) (remarks : List Remark) : Prop where
  frame : t = { s with links := t.links }
  stages : ∀ l, t.stageOf l = s.stageOf l
  sent : ∀ l, t.sent l = s.sent l ++ (remarks.filter (s.hears l)).flatMap Remark.relayed

lemma Said.registry {remarks : List Remark} (h : Said s t remarks) : t.registry = s.registry := by
  rw [h.frame]

lemma Said.sessions {remarks : List Remark} (h : Said s t remarks) : t.sessions = s.sessions := by
  rw [h.frame]

lemma Said.trans {remarks more : List Remark} (h : Said s t remarks) (h' : Said t u more) :
    Said s u (remarks ++ more) where
  frame := by
    rw [h'.frame, h.frame]
  stages l := (h'.stages l).trans (h.stages l)
  sent l := by
    have hhears : t.hears l = s.hears l := by
      funext r
      rw [hears, hears, h.registry, h.sessions]
    rw [h'.sent, h.sent, hhears, List.filter_append, List.flatMap_append, List.append_assoc]

lemma Said.agrees {remarks : List Remark} (h : Said s t remarks) (hs : s.Agrees) : t.Agrees where
  housed := by
    rw [h.registry]
    exact hs.housed
  owned l p := by
    rw [Admitted, h.stages, h.sessions]
    exact hs.owned l p
  serving k p := by
    simp only [h.registry, h.stages]
    exact hs.serving k p

lemma said_keep (s : Server) (link : ℕ) (bs : Bytes) : Said s (s.keep link bs) [] where
  frame := rfl
  stages l := s.stageOf_keep l link bs
  sent l := by
    rw [List.filter_nil, List.flatMap_nil, List.append_nil]
    exact s.sent_keep link l bs

/-! ## One remark -/

/-- A stream that is nobody's session gets nothing. -/
lemma sent_relay_nobody (hnobody : ∀ q, s.sessions.find? q ≠ some l) (sender : UInt32)
    (line : FixedText lineWidth) (members : List UInt32) :
    (s.relay sender line members).sent l = s.sent l := by
  rw [relay]
  generalize members.filter (· != sender) = heard
  induction heard generalizing s with
  | nil => rfl
  | cons q heard ih =>
    have hsessions := s.sessions_sendTo q (Message.encode (⟨sender, line⟩ : ChatLine))
    rw [List.foldl_cons, ih (fun p => hsessions ▸ hnobody p), sendTo]
    rcases hq : s.sessions.find? q with _ | l'
    · rfl
    · have hne : l ≠ l' := by
        rintro rfl
        exact hnobody q hq
      exact sent_modify_of_ne hne _

lemma Agrees.said_relay (h : s.Agrees) (player room : UInt32) (line : ChatLine) :
    Said s (s.relay player line.text (s.registry.membersOf room))
      [⟨player, room, Message.encode line⟩] where
  frame := s.relay_induction (P := fun t => t = { s with links := t.links }) rfl
    (fun t l bs ht => by rw [ht]; rfl) player line.text _
  stages l := s.stageOf_relay l player line.text _
  sent l := by
    rw [List.filter_singleton, Bool.cond_eq_ite, apply_ite (List.flatMap Remark.relayed)]
    by_cases hsession : ∃ m, s.sessions.find? m = some l
    · obtain ⟨m, hm⟩ := hsession
      have hopen : s.stageOf l ≠ .ended := ((h.owned l m).2 hm).ne_ended
      have hnodup := h.housed.nodup_membersOf room
      rw [sent_relay hopen (fun q hq => h.session_unique hq hm) hnodup]
      simp only [h.hears_iff_of_session hm, hm, and_true, List.flatMap_singleton, List.flatMap_nil,
        Remark.relayed_eq]
    · have hnobody : ∀ q, s.sessions.find? q ≠ some l := fun q hq => hsession ⟨q, hq⟩
      have hdeaf : ¬ s.hears l ⟨player, room, Message.encode line⟩ = true := by
        rw [hears_iff]
        rintro ⟨q, -, -, hq⟩
        exact hnobody q hq
      rw [sent_relay_nobody hnobody, if_neg hdeaf, List.flatMap_nil, List.append_nil]

lemma said_refl (s : Server) : Said s s [] :=
  ⟨rfl, fun _ => rfl, fun _ => (List.append_nil _).symm⟩

lemma Agrees.said_roomTalk (h : s.Agrees) (link : ℕ) (player room : UInt32)
    (lines : List ChatLine) :
    Said s (s.roomTalk link player room (lines.map .chat)).state
      (lines.map fun line => ⟨player, room, Message.encode line⟩) := by
  induction lines generalizing s with
  | nil => exact said_refl s
  | cons line lines ih =>
    have hfirst := h.said_relay player room line
    rw [relay_eq] at hfirst
    exact hfirst.trans (ih (hfirst.agrees h))

/-- Chat frames that come to their end on a stream are passed on, one after the other. -/
lemma Agrees.said_bytes (h : s.Agrees) (hstage : s.stageOf link = .inRoom player name room)
    {bs : Bytes} {frames : List Bytes} (now : UInt32)
    (hpieces : (Frame.pieces (s.unreadOf link ++ bs)).1 = frames.map (.frame .chat)) :
    Said s (s.step (.bytes link bs now)).state
      (frames.map fun frame => ⟨player, room, frame⟩) := by
  obtain ⟨lines, rfl⟩ : frames ∈ Set.range (List.map (Message.encode (α := ChatLine))) := by
    rw [Set.range_list_map]
    intro frame hframe
    exact Frame.spells_of_mem_pieces (hpieces ▸ List.mem_map_of_mem hframe)
  have hadmitted : s.Admitted link player := congrArg Stage.player? hstage
  have hchat : (lines.map Message.encode).map (Frame.Piece.frame .chat) =
      (lines.map Utterance.chat).map Utterance.piece := by
    rw [List.map_map, List.map_map]
    rfl
  have htalk := h.said_roomTalk link player room lines
  have hkeep := htalk.trans (said_keep _ link (Frame.pieces (s.unreadOf link ++ bs)).2)
  rw [List.append_nil] at hkeep
  rw [Server.step, hadmitted.receive, hpieces, hchat, handleAll_inRoom hstage, List.map_map]
  exact hkeep

/-! ## Conversations -/

/-- Nothing but chat arrives, and it comes from those who sit in the rooms that they are served in.
A cut of bytes may bring some frames to their end, or none. -/
inductive Conversation : Server → List Event → List Remark → Prop where
  | nil (s : Server) : Conversation s [] []
  | cons {s : Server} {link : ℕ} {player room : UInt32} {name : String} {bs : Bytes} {now : UInt32}
    {frames : List Bytes} {es : List Event} {remarks : List Remark}
    (hstage : s.stageOf link = .inRoom player name room) (hseat : s.registry.Seats room player)
    (hpieces : (Frame.pieces (s.unreadOf link ++ bs)).1 = frames.map (.frame .chat))
    (hrest : Conversation (s.step (.bytes link bs now)).state es remarks) :
    Conversation s (.bytes link bs now :: es)
      ((frames.map fun frame => ⟨player, room, frame⟩) ++ remarks)

lemma Conversation.said {es : List Event} {remarks : List Remark} (h : Conversation s es remarks)
    (hs : s.Agrees) : Said s (s.after es) remarks := by
  induction h with
  | nil s => exact said_refl s
  | @cons s link player room name bs now frames es remarks hstage hseat hpieces hrest ih =>
    have hfirst := hs.said_bytes hstage now hpieces
    exact hfirst.trans (ih (hfirst.agrees hs))

lemma Conversation.spells {es : List Event} {remarks : List Remark}
    (h : Conversation s es remarks) (hr : r ∈ remarks) : LobbyOp.chat.Spells r.frame := by
  induction h with
  | nil => cases hr
  | @cons s link player room name bs now frames es remarks hstage hseat hpieces hrest ih =>
    rcases List.mem_append.1 hr with hr | hr
    · obtain ⟨frame, hframe, rfl⟩ := List.mem_map.1 hr
      exact Frame.spells_of_mem_pieces (hpieces ▸ List.mem_map_of_mem hframe)
    · exact ih hr

/-- What was written on an open stream stays in front of all that comes. -/
lemma sent_step (hl : s.stageOf l ≠ .ended) (e : Event) :
    s.sent l <+: (s.step e).state.sent l := by
  rcases s.step_cases e with rfl | ⟨-, hcourse⟩ | ⟨link, bs, now, name, -, -, -, hcourse⟩
  · have hne : l ≠ s.links.next := fun hnext => hl (hnext ▸ s.stageOf_next)
    have hsame : s.openLink.state.links.find? l = s.links.find? l :=
      (s.links.find?_add {} l).trans (if_neg hne)
    change s.sent l <+: s.openLink.state.sent l
    rw [sent, sent, collect, collect, hsame]
  · exact hcourse.keeps.sent l
  · have hstaged : s.sent l <+: (s.setStage link (.lobby s.nextPlayer name)).sent l :=
      s.sent_modify link l fun _ => List.prefix_rfl
    have hwelcome : (s.setStage link (.lobby s.nextPlayer name)).sent l <+:
        (s.welcome link name now).sent l :=
      (s.setStage link (.lobby s.nextPlayer name)).sent_modify link l
        fun _ => List.prefix_append _ _
    exact (hstaged.trans hwelcome).trans (hcourse.keeps.sent l)

/-- **Chat is relayed exactly.** Take a run of a server in which numbers are not shared, and then
chat from clients who sit in the rooms that they are served in, whatever number and text their
frames carry. Nothing but streams changes by it. Each stream gets what it hears, in the order in
which it is said: for each frame one of the same length, with the number of the player who said it
and the same text. Everybody else in the room hears it, on the stream that is served there, and
nobody else does. And what was written on a stream stays in front of all that comes, whatever
happens next. -/
theorem chat_is_relayed (settings : Settings) (entropy : List UInt64) (port : UInt16)
    {events chat : List Event} {remarks : List Remark}
    (hnumbers : (begin settings entropy port).Unshared events)
    (hchat : Conversation ((begin settings entropy port).after events) chat remarks) :
    let s := (begin settings entropy port).after events
    let t := s.after chat
    t = { s with links := t.links } ∧
      (∀ l, t.stageOf l = s.stageOf l ∧
        t.sent l = s.sent l ++ (remarks.filter (s.hears l)).flatMap Remark.relayed) ∧
      (∀ r ∈ remarks, r.frame.length = 69 ∧ r.relayed.length = 69 ∧
        (∀ m ∈ s.registry.membersOf r.room, ∃ l name, s.sessions.find? m = some l ∧
          s.stageOf l = .inRoom m name r.room ∧ (s.hears l r = true ↔ m ≠ r.player)) ∧
        ∀ l, s.hears l r = true → ∃ m name, m ∈ s.registry.membersOf r.room ∧ m ≠ r.player ∧
          s.stageOf l = .inRoom m name r.room) ∧
      ∀ e l, s.stageOf l ≠ .ended → s.sent l <+: (s.step e).state.sent l := by
  intro s t
  have hs : s.Agrees := (agrees_begin settings entropy port).after hnumbers
  have hsaid : Said s t remarks := hchat.said hs
  have hmember : ∀ k m, m ∈ s.registry.membersOf k → ∃ l name, s.sessions.find? m = some l ∧
      s.stageOf l = .inRoom m name k := by
    intro k m hm
    obtain ⟨l, name, hstage, hsession⟩ := hs.session (Registry.seats_iff_mem_membersOf.2 hm)
    exact ⟨l, name, hsession, hstage⟩
  refine ⟨hsaid.frame, fun l => ⟨hsaid.stages l, hsaid.sent l⟩, fun r hr => ?_,
    fun e l hl => sent_step hl e⟩
  · obtain ⟨line, hline⟩ : ∃ line : ChatLine, Message.encode line = r.frame := hchat.spells hr
    have hlength : r.frame.length = 69 := hline ▸ Message.length_encode line
    refine ⟨hlength, ?_, fun m hm => ?_, fun l hl => ?_⟩
    · rw [Remark.relayed, List.length_cons, List.length_append, LittleEndian.length_encode,
        List.length_drop, hlength]
    · obtain ⟨l, name, hsession, hstage⟩ := hmember r.room m hm
      exact ⟨l, name, hsession, hstage,
        (hs.hears_iff_of_session hsession).trans (and_iff_right hm)⟩
    · obtain ⟨m, hm, hne, hsession⟩ := hears_iff.1 hl
      obtain ⟨l', name, hsession', hstage⟩ := hmember r.room m hm
      cases hsession.symm.trans hsession'
      exact ⟨m, name, hm, hne, hstage⟩

/-- Three players sit in a room, and a fourth in another one. -/
def fourPlayers : List Event :=
  let greeting (name : String) := Message.encode (⟨.ofString nameWidth name⟩ : Greeting)
  let join (room : UInt32) := Message.encode (⟨room⟩ : JoinRequest)
  [.line "create_room", .line "create_room", .connect, .connect, .connect, .connect,
    .bytes 0 (greeting "ann" ++ join 1) 0, .bytes 1 (greeting "bob" ++ join 1) 0,
    .bytes 2 (greeting "cyd" ++ join 1) 0, .bytes 3 (greeting "dee" ++ join 2) 0]

/-- The first player claims to be another one and says what is no text. Half of it has arrived when
the second one speaks. -/
theorem lines_reach_the_others :
    let s := (begin {} [] 5252).after fourPlayers
    let ann : Bytes := [20, 7, 0, 0, 0] ++ List.replicate 64 255
    let bob : Bytes := [20, 2, 0, 0, 0] ++ List.replicate 64 66
    let chat : List Event := [.bytes 0 (ann.take 30) 5, .bytes 1 bob 6, .bytes 0 (ann.drop 30) 7]
    let t := s.after chat
    (begin {} [] 5252).Unshared fourPlayers ∧ Conversation s chat [⟨2, 1, bob⟩, ⟨1, 1, ann⟩] ∧
      t.registry = s.registry ∧ t.sessions = s.sessions ∧ t.sent 0 = s.sent 0 ++ bob ∧
      t.sent 1 = s.sent 1 ++ [20, 1, 0, 0, 0] ++ List.replicate 64 255 ∧
      t.sent 2 = s.sent 2 ++ bob ++ [20, 1, 0, 0, 0] ++ List.replicate 64 255 ∧
      t.sent 3 = s.sent 3 := by
  intro s ann bob chat t
  have hnumbers : (begin {} [] 5252).Unshared fourPlayers :=
    unshared_begin {} [] 5252 (by decide +kernel)
  have hchat : Conversation s chat [⟨2, 1, bob⟩, ⟨1, 1, ann⟩] := by
    let half := (s.step (.bytes 0 (ann.take 30) 5)).state
    let between := (half.step (.bytes 1 bob 6)).state
    have hhalf : s.stageOf 0 = .inRoom 1 "ann" 1 ∧ 1 ∈ s.registry.membersOf 1 ∧
        (Frame.pieces (s.unreadOf 0 ++ ann.take 30)).1 = ([] : List Bytes).map (.frame .chat) := by
      decide +kernel
    have hbob : half.stageOf 1 = .inRoom 2 "bob" 1 ∧ 2 ∈ half.registry.membersOf 1 ∧
        (Frame.pieces (half.unreadOf 1 ++ bob)).1 = [bob].map (.frame .chat) := by
      decide +kernel
    have hann : between.stageOf 0 = .inRoom 1 "ann" 1 ∧ 1 ∈ between.registry.membersOf 1 ∧
        (Frame.pieces (between.unreadOf 0 ++ ann.drop 30)).1 = [ann].map (.frame .chat) := by
      decide +kernel
    exact .cons hhalf.1 (Registry.seats_iff_mem_membersOf.2 hhalf.2.1) hhalf.2.2
      (.cons hbob.1 (Registry.seats_iff_mem_membersOf.2 hbob.2.1) hbob.2.2
        (.cons hann.1 (Registry.seats_iff_mem_membersOf.2 hann.2.1) hann.2.2 (.nil _)))
  obtain ⟨hframe, hstreams, -⟩ := chat_is_relayed {} [] 5252 hnumbers hchat
  have hheard : [0, 1, 2, 3].map (fun l =>
      (([⟨2, 1, bob⟩, ⟨1, 1, ann⟩] : List Remark).filter (s.hears l)).flatMap Remark.relayed) =
      [bob, [20, 1, 0, 0, 0] ++ List.replicate 64 255,
        bob ++ ([20, 1, 0, 0, 0] ++ List.replicate 64 255), []] := by
    decide +kernel
  simp only [List.map_cons, List.map_nil, List.cons.injEq, and_true] at hheard
  obtain ⟨hzero, hone, htwo, hthree⟩ := hheard
  have hregistry := congrArg registry hframe
  have hsessions := congrArg sessions hframe
  refine ⟨hnumbers, hchat, hregistry, hsessions, ?_, ?_, ?_, ?_⟩
  · exact (hstreams 0).2.trans (congrArg _ hzero)
  · rw [List.append_assoc]
    exact (hstreams 1).2.trans (congrArg _ hone)
  · rw [List.append_assoc, List.append_assoc]
    exact (hstreams 2).2.trans (congrArg _ htwo)
  · exact (hstreams 3).2.trans ((congrArg _ hthree).trans (List.append_nil _))

/-- Two players sit in a room while all other numbers are given out to clients who come and go. The
client that comes in then is given the number of the first one, from the lobby, and hears what the
second one says in the room; the first one hears nothing. -/
theorem stranger_hears_the_room :
    let join := Message.encode (⟨1⟩ : JoinRequest)
    let entry : List Event := [.line "create_room", .connect, .bytes 0 (Message.encode hello) 0,
      .bytes 0 join 0, .connect, .bytes 1 (Message.encode hello) 0, .bytes 1 join 0]
    let events := entry ++ visits 2 (UInt32.size - 2) ++ arrival UInt32.size
    let s := (begin {} [] 5252).after events
    let line : ChatLine := ⟨2, .ofString lineWidth "hi"⟩
    let t := (s.step (.bytes 1 (Message.encode line) 0)).state
    s.registry.membersOf 1 = [1, 2] ∧ s.stageOf 0 = .inRoom 1 "eve" 1 ∧
      s.stageOf 1 = .inRoom 2 "eve" 1 ∧ s.stageOf UInt32.size = .lobby 1 "eve" ∧
      t.sent 0 = s.sent 0 ∧ t.sent UInt32.size = s.sent UInt32.size ++ Message.encode line := by
  intro join entry events s line t
  set o := (begin {} [] 5252).after entry with ho
  have hmembers : o.registry.membersOf 1 = [1, 2] := by decide +kernel
  have hnext : o.links.next = 2 := by decide +kernel
  have hplayer : o.nextPlayer + UInt32.ofNat (UInt32.size - 2) = 1 := by decide +kernel
  have hids : o.registry.index.ids = [1, 2] := by decide +kernel
  have hfar : ∀ k ∈ o.registry.index.ids, UInt32.size - 2 ≤ (k - o.nextPlayer).toNat := by
    rw [hids, List.forall_mem_cons, List.forall_mem_singleton]
    decide +kernel
  have hann : o.stageOf 0 = .inRoom 1 "eve" 1 := by decide +kernel
  have hbob : o.stageOf 1 = .inRoom 2 "eve" 1 := by decide +kernel
  have hread : o.unreadOf 1 = [] := by decide +kernel
  obtain ⟨hpassed, hsession, hlobby, -⟩ :=
    o.number_comes_again hnext (by decide : 2 + (UInt32.size - 2) = UInt32.size) hplayer hfar
  have hs : s = o.after (visits 2 (UInt32.size - 2) ++ arrival UInt32.size) := by
    rw [ho, ← after_append, ← List.append_assoc]
  rw [← hs] at hpassed hsession hlobby
  have hroom : s.registry.membersOf 1 = [1, 2] := by rw [hpassed.registry, hmembers]
  have hfirst : s.stageOf 0 = .inRoom 1 "eve" 1 :=
    (hpassed.stageOf (by rw [hnext]; decide)).trans hann
  have hsecond : s.stageOf 1 = .inRoom 2 "eve" 1 :=
    (hpassed.stageOf (by rw [hnext]; decide)).trans hbob
  have hunread : s.unreadOf 1 = [] := by
    rw [unreadOf, hpassed.links 1 (by rw [hnext]; decide)]
    exact hread
  have ht : t = (s.tell UInt32.size (Message.encode line)).keep 1 [] := by
    have hadmitted : s.Admitted 1 2 := congrArg Stage.player? hsecond
    have hpieces : Frame.pieces (s.unreadOf 1 ++ Message.encode line) =
        ([Utterance.chat line].map Utterance.piece, []) := by
      rw [hunread]
      decide +kernel
    have hothers : ((s.registry.room? 1).elim [] Room.memberIds).filter (· ≠ 2) = [1] := by
      rw [← Registry.membersOf, hroom]
      decide
    have htold : chatTold 2 line.text = Message.encode line := (encode_chatLine 2 line.text).symm
    change (s.receive 1 (Message.encode line) 0).state = _
    rw [hadmitted.receive, hpieces, handleAll_inRoom hsecond]
    simp only [roomTalk, hothers, htold, tellAll, hsession, Outcome.andThen]
  refine ⟨hroom, hfirst, hsecond, hlobby, ?_, ?_⟩
  · rw [ht, sent_keep]
    exact sent_modify_of_ne (by decide) _
  · rw [ht, sent_keep]
    exact sent_write (fun hended => by cases hlobby.symm.trans hended) _

end Server

end CoopShooter
