import Mathlib
import CoopShooter.Proofs.Client.Asking
import CoopShooter.Proofs.Server.Talk
import CoopShooter.Proofs.Server.Waiting
import CoopShooter.Proofs.Text.Fixed

/-!
Names on their way, from the text that a client logs in with to the list that other clients are
shown. The text is cut when it is written into the greeting. What the server reads from there is
what it keeps, puts on rosters and writes into its lists, and it fits into those as it is.
-/

namespace CoopShooter.Server

open LobbyClient

variable {s : Server} {link : ℕ} {player room p : UInt32} {name text : String} {r : Room}
  {log : Bytes}

/-! ## Logging in -/

/-- A stream begins with one greeting only. -/
lemma greeting_eq {m m' : Greeting} {more : Bytes} (h : Message.encode m <+: log)
    (h' : log <+: Message.encode m' ++ more) : m = m' := by
  have hstarts : Message.encode m <+: Message.encode m' :=
    List.prefix_of_prefix_length_le (h.trans h') (List.prefix_append _ more)
      (by rw [Message.length_encode, Message.length_encode])
  have hbytes : Message.encode m = Message.encode m' :=
    hstarts.eq_of_length (by rw [Message.length_encode, Message.length_encode])
  have hread := Message.decode_encode m
  rw [hbytes, Message.decode_encode] at hread
  exact (Except.ok.inj hread).symm

/-- Whoever is let in is known by what fits of the text that its client logged in with. -/
lemma Begins.name_eq (h : s.Begins link log) {c : LobbyClient} {more : Bytes} (hc : c.sent = [])
    (hlog : log <+: (perform (handshake text) c).2.sent ++ more)
    (hwho : (s.stageOf link).who? = some (player, name)) : name = shown 31 text := by
  obtain ⟨m, hm, rfl⟩ := h.named player name hwho
  rw [sent_handshake, hc, List.nil_append] at hlog
  rw [greeting_eq hm hlog]
  exact FixedText.text_ofString nameWidth text

/-- Everybody in a room has the name that fits, if every stream that serves the room carries it. -/
lemma Served.names {text : ℕ → String} (h : s.Served) (hr : s.registry.room? room = some r)
    (hnamed : ∀ l p name, s.stageOf l = .inRoom p name room → name = shown 31 (text l)) :
    ∀ q ∈ r.players, ∃ l, s.stageOf l = .inRoom q.id q.name room ∧ q.name = shown 31 (text l) := by
  intro q hq
  have hmem : (q.id, q.name) ∈ s.registry.roster room := by
    rw [Registry.roster_of_room? hr]
    exact List.mem_map_of_mem hq
  obtain ⟨l, hl⟩ := h room q.id q.name hmem
  exact ⟨l, hl, hnamed l q.id q.name hl⟩

/-- A name that fits is not cut when it is written. -/
lemma text_ofString_shown (text : String) :
    (FixedText.ofString nameWidth (shown 31 text)).text = shown 31 text := by
  rw [FixedText.text_ofString]
  exact shown_shown 31 text

/-! ## Asking -/

lemma roomState_lobby {g : Registry} (hr : g.room? room = some r) (hlobby : r.playing = false) :
    roomState g room = Listing.bytes
      (⟨r.host?.getD 0, UInt32.ofNat r.members.length⟩ : LobbyHeader)
      (r.members.map fun m => (⟨m.1, .ofString nameWidth m.2⟩ : MemberEntry)) := by
  have hplaying : g.isPlaying room = false := by
    rw [Registry.isPlaying, hr]
    exact hlobby
  have hlisted : g.lobby? room = some (r.host?.getD 0, r.members) := by
    rw [Registry.lobby?, hr]
    rfl
  rw [roomState, hplaying, hlisted]
  simp

/-- Whoever asks from inside a room is written how it stands with the room. -/
lemma sent_asked (h : s.stageOf link = .inRoom player name room) (hread : s.unreadOf link = [])
    (now : UInt32) :
    (s.receive link (Message.encode ({} : LobbyRequest)) now).state.sent link =
      s.sent link ++ roomState s.registry room := by
  have hin : s.Admitted link player := congrArg Stage.player? h
  have hopen : s.stageOf link ≠ .ended := hin.ne_ended
  have hpieces : Frame.pieces (Message.encode ({} : LobbyRequest)) =
      ([Utterance.lobbyRequest].map Utterance.piece, []) :=
    Utterance.pieces_flatMap_encode [.lobbyRequest]
  rw [hin.receive, hread, List.nil_append, hpieces, handleAll_inRoom h, roomState_eq]
  change (((s.write link (lobbyTold s.registry room)).keep link []).sent link) = _
  rw [sent_keep, sent_write hopen]

/-- The list is found behind everything else that has arrived, and read as it was meant. -/
lemma perform_listed {c : LobbyClient} {front : List Frame.Whole} {members : List (UInt32 × String)}
    (host : UInt32) (hidle : c.waiting = .idle) (hopen : c.ended = false)
    (hfront : ∀ x ∈ front, x.1.Spells x.2 ∧ aboutRoom x.1 = false)
    (hunread : c.unread = front.flatMap (·.2)) (hfew : members.length < UInt32.size)
    (hfits : ∀ m ∈ members, (FixedText.ofString nameWidth m.2).text = m.2) :
    let asked := perform lobbyState (c.deliver (Listing.bytes
      (⟨host, UInt32.ofNat members.length⟩ : LobbyHeader)
      (members.map fun m => (⟨m.1, .ofString nameWidth m.2⟩ : MemberEntry))))
    asked.1 = .ok (.waiting host members) ∧
      asked.2.sent = c.sent ++ Message.encode ({} : LobbyRequest) := by
  generalize hentries : (members.map fun m => (⟨m.1, .ofString nameWidth m.2⟩ : MemberEntry)) =
    entries
  have hcount : Listing.count (⟨host, UInt32.ofNat members.length⟩ : LobbyHeader) =
      entries.length := by
    rw [← hentries, List.length_map]
    exact UInt32.toNat_ofNat_of_lt' hfew
  have hread : entries.map (fun e => (e.player, e.name.text)) = members := by
    rw [← hentries, List.map_map]
    refine (List.map_congr_left fun m hm => ?_).trans (List.map_id members)
    exact Prod.ext rfl (hfits m hm)
  generalize hh : (⟨host, UInt32.ofNat members.length⟩ : LobbyHeader) = h at hcount ⊢
  have hspells : LobbyOp.lobby.Spells (Listing.bytes h entries) :=
    ⟨h, entries, Listing.encode_eq_ok_iff.2 ⟨hcount, rfl⟩⟩
  have hholds : ((c.deliver (Listing.bytes h entries)).buffer.append
      (c.deliver (Listing.bytes h entries)).incoming).Holds []
        (front ++ [(.lobby, Listing.bytes h entries)]) := by
    refine ⟨?_, ?_⟩
    · simpa [or_imp, forall_and, hspells] using fun x hx => (hfront x hx).1
    · rw [List.append_nil, List.flatMap_append, ← hunread]
      simp [FrameBuffer.append, deliver, unread]
  have hfound := hholds.search (rfl : aboutRoom .chat = false) (fun x hx => (hfront x hx).2) rfl
  have hasked := perform_lobbyState (c := c.deliver (Listing.bytes h entries)) hidle hopen hcount
    hfound
  rw [hread] at hasked
  subst hh
  exact hasked

/-- **Names survive the lobby.** Take a run of a server in which whoever is let in has logged in
with some text. A client that has joined a room asks who waits there, before the game; a list can
announce everybody, unless all the numbers there are sit in the room at once. The server writes one
answer, and the client, whatever else has arrived before that it is not waiting for, makes of it the
first player of the roster as the host and the players in the order in which they came in. Each has
the name that is the longest prefix of its client's text of at most 31 bytes, up to the first zero
character, and no name is cut again when it is written into a list. -/
theorem names_survive_lobby (settings : Settings) (entropy : List UInt64) (port : UInt16)
    {events : List Event} (text : ℕ → String)
    (hlogin : ∀ link player, ((begin settings entropy port).after events).Admitted link player →
      ∃ (c : LobbyClient) (more : Bytes), c.sent = [] ∧
        (begin settings entropy port).arrived link events <+:
          (perform (handshake (text link)) c).2.sent ++ more)
    (hstage : ((begin settings entropy port).after events).stageOf link = .inRoom player name room)
    (hread : ((begin settings entropy port).after events).unreadOf link = [])
    (hr : ((begin settings entropy port).after events).registry.room? room = some r)
    (hfew : r.players.length < UInt32.size) (hlobby : r.playing = false)
    (hin : player ∈ r.memberIds) :
    let s := (begin settings entropy port).after events
    let answer := roomState s.registry room
    (∀ now, (s.step (.bytes link (Message.encode ({} : LobbyRequest)) now)).state.sent link =
      s.sent link ++ answer) ∧
    (∀ (c : LobbyClient) (front : List Frame.Whole), c.waiting = .idle → c.ended = false →
      (∀ x ∈ front, x.1.Spells x.2 ∧ aboutRoom x.1 = false) → c.unread = front.flatMap (·.2) →
      let asked := perform lobbyState (c.deliver answer)
      asked.2.sent = c.sent ++ Message.encode ({} : LobbyRequest) ∧
        ∃ host, r.memberIds.head? = some host ∧ asked.1 = .ok (.waiting host r.members)) ∧
    (r.memberIds.Pairwise fun p q => (begin settings entropy port).SatFirst events room p q) ∧
    ∀ q ∈ r.players, ∃ l kept, s.stageOf l = .inRoom q.id q.name room ∧
      LongestFit 31 (text l).toList kept ∧
      q.name = String.ofList (kept.takeWhile (· ≠ '\x00')) ∧
      q.name.toList <+: (text l).toList ∧ (FixedText.ofString nameWidth q.name).text = q.name := by
  intro s answer
  have hserved : s.Served := served_after settings entropy port events
  have hroster : s.registry.roster room = r.members := Registry.roster_of_room? hr
  have hnamed : ∀ l p name, s.stageOf l = .inRoom p name room → name = shown 31 (text l) := by
    intro l p name hl
    obtain ⟨c, more, hc, hlog⟩ := hlogin l p (congrArg Stage.player? hl)
    exact (begins_after settings entropy port l events).name_eq hc hlog (congrArg Stage.who? hl)
  have hnames := hserved.names hr hnamed
  have hfits : ∀ m ∈ r.members, (FixedText.ofString nameWidth m.2).text = m.2 := by
    intro m hm
    obtain ⟨q, hq, rfl⟩ := List.mem_map.1 hm
    obtain ⟨l, -, hname⟩ := hnames q hq
    simp only [hname]
    exact text_ofString_shown (text l)
  refine ⟨sent_asked hstage hread, fun c front hidle hopen hfront hunread => ?_, ?_,
    fun q hq => ?_⟩
  · obtain ⟨host, hhost⟩ : ∃ host, r.memberIds.head? = some host :=
      ⟨_, List.head?_eq_some_head (List.ne_nil_of_mem hin)⟩
    have hanswer := roomState_lobby hr hlobby
    have hfirst : r.host? = some host := by rw [← hhost, Room.host?, Room.memberIds, List.head?_map]
    rw [hfirst, Option.getD_some] at hanswer
    have hlen : r.members.length < UInt32.size := by
      rwa [Room.members, List.length_map]
    obtain ⟨hasked, hsent⟩ := perform_listed host hidle hopen hfront hunread hlen hfits
    rw [← hanswer] at hasked hsent
    exact ⟨hsent, host, hhost, hasked⟩
  · have horder := order_after settings entropy port events room
    rw [hroster, Room.members, List.pairwise_map] at horder
    exact List.pairwise_map.2 horder
  · obtain ⟨l, hl, hname⟩ := hnames q hq
    refine ⟨l, Utf8.clip 31 (text l).toList, hl, longestFit_clip 31 _, hname, ?_,
      hfits (q.id, q.name) (List.mem_map_of_mem hq)⟩
    rw [hname]
    exact shown_prefix 31 (text l)

/-- Three clients log in, one of them with a character across the edge of the field and one with a
zero character, and come into a room. The first one asks who waits there. -/
theorem names_are_cut_once :
    let text (link : ℕ) : String :=
      if link = 0 then "ann" else if link = 1 then "zo\u00eb, the keeper of nineteen b\u00e9es"
      else "bo\x00b"
    let greeting (link : ℕ) := Message.encode (⟨.ofString nameWidth (text link)⟩ : Greeting)
    let join := Message.encode (⟨1⟩ : JoinRequest)
    let events : List Event := [.line "create_room", .connect, .connect, .connect,
      .bytes 0 (greeting 0 ++ join) 0, .bytes 1 ((greeting 1).take 20) 0,
      .bytes 2 (greeting 2 ++ join) 0, .bytes 1 ((greeting 1).drop 20 ++ join) 0]
    let s := (begin {} [] 5252).after events
    ∃ answer, (s.step (.bytes 0 (Message.encode ({} : LobbyRequest)) 0)).state.sent 0 =
        s.sent 0 ++ answer ∧
      (perform lobbyState (({} : LobbyClient).deliver answer)).1 = .ok (.waiting 1
        [(1, "ann"), (2, "bo"), (3, "zo\u00eb, the keeper of nineteen b")]) := by
  intro text greeting join events s
  have hnext : s.links.next = 3 := by decide +kernel
  have harrived : ∀ link < s.links.next,
      (begin {} [] 5252).arrived link events = greeting link ++ join := by
    have hnone : ((begin {} [] 5252).step (.line "create_room")).state.links.next = 0 := by
      decide +kernel
    have hopen (t : Server) : (t.step .connect).state.links.next = t.links.next + 1 :=
      t.links.next_add {}
    have hcut : (greeting 1).take 20 ++ ((greeting 1).drop 20 ++ join) = greeting 1 ++ join := by
      rw [← List.append_assoc, List.take_append_drop]
    intro link hlink
    rw [hnext] at hlink
    interval_cases link <;>
      simp [events, arrived, arrivedFrom, Event.adds, hopen, hnone, hcut]
  have hstage : s.stageOf 0 = .inRoom 1 "ann" 1 := by decide +kernel
  have hread : s.unreadOf 0 = [] := by decide +kernel
  have hroom : (s.registry.room? 1).map (fun r => (r.playing, r.members)) = some (false,
      [(1, "ann"), (2, "bo"), (3, "zo\u00eb, the keeper of nineteen b")]) := by decide +kernel
  obtain ⟨r, hr, hroom⟩ := Option.map_eq_some_iff.1 hroom
  obtain ⟨hlobby, hmembers⟩ := Prod.mk.inj hroom
  have hmemberIds : r.memberIds = [1, 2, 3] := by
    have hfirst : r.memberIds = r.members.map Prod.fst := by
      rw [Room.memberIds, Room.members, List.map_map]
      rfl
    rw [hfirst, hmembers]
    rfl
  have hlogin : ∀ link player, s.Admitted link player → ∃ (c : LobbyClient) (more : Bytes),
      c.sent = [] ∧ (begin {} [] 5252).arrived link events <+:
        (perform (handshake (text link)) c).2.sent ++ more := by
    intro link player hin
    obtain ⟨l, hl, -⟩ := hin.exists_link
    refine ⟨{}, join, rfl, ?_⟩
    rw [sent_handshake, harrived link (Links.lt_next (hl ▸ Option.some_ne_none l))]
    exact List.prefix_rfl
  have hfew : r.players.length < UInt32.size := by
    have hlen := congrArg List.length hmemberIds
    rw [Room.memberIds, List.length_map] at hlen
    rw [hlen]
    decide
  obtain ⟨hsent, hasked, -⟩ := names_survive_lobby {} [] 5252 text hlogin hstage hread hr hfew
    hlobby (hmemberIds ▸ by decide)
  obtain ⟨-, host, hhost, hanswer⟩ := hasked {} [] rfl rfl (by simp) rfl
  rw [hmemberIds] at hhost
  cases hhost
  rw [hmembers] at hanswer
  exact ⟨roomState s.registry 1, hsent 0, hanswer⟩

end CoopShooter.Server
