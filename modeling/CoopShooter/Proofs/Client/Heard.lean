import Mathlib
import CoopShooter.Proofs.Client.Calls
import CoopShooter.Proofs.Client.Holding

/-!
What becomes of chat. While the server has not ended its side, every call takes messages from the
front of what has arrived, and the chat among them is read or waits in the inbox. Nothing is read
twice, and nothing is passed over.
-/

namespace CoopShooter

namespace FrameBuffer

variable {b : FrameBuffer} {future : Bytes} {xs : List Frame.Whole}

/-- The chat in front is put aside, and the message that is taken then is no chat. -/
lemma Holds.takeChat_take? (h : b.Holds future xs) :
    ∃ read left, xs = read ++ left ∧ (LobbyClient.takeChat b).1 = Frame.lines read ∧
      (LobbyClient.takeChat b).2.take?.2.Holds future left := by
  obtain ⟨talk, rest, rfl, -, hlines, hholds, hlate⟩ := h.takeChat
  rcases hholds.take? with htake | ⟨x, left, b', rfl, htake, hleft⟩
  · exact ⟨talk, rest, rfl, hlines, by rwa [htake]⟩
  · have hchat : x.1 ≠ .chat := by
      intro hx
      cases htake.symm.trans (hlate (by rw [peek?_of_take? htake, hx]))
    refine ⟨talk ++ [x], left, by simp, ?_, by rwa [htake]⟩
    rw [hlines, Frame.lines_append, Frame.lines_eq_nil (List.forall_mem_singleton.2 hchat),
      List.append_nil]

/-- A search puts the chat aside that it comes across. -/
lemma Holds.search_reads (h : b.Holds future xs) (wanted : LobbyOp → Bool) :
    ∃ read left, xs = read ++ left ∧ (LobbyClient.search wanted b).1 = Frame.lines read ∧
      (LobbyClient.search wanted b).2.2.Holds future left := by
  obtain ⟨read, rest, rfl, hlines, hholds⟩ := h.takeChat_take?
  fun_induction LobbyClient.search wanted b generalizing read rest with
  | case1 b left htake =>
    rw [htake] at hholds
    exact ⟨read, rest, rfl, hlines, hholds⟩
  | case2 b frame left htake hwanted =>
    rw [htake] at hholds
    exact ⟨read, rest, rfl, hlines, hholds⟩
  | case3 b frame left htake hwanted hlt hle more found left' hmore ih =>
    rw [htake] at hholds
    obtain ⟨read', rest', rfl, hlines', hholds'⟩ := hholds.takeChat_take?
    obtain ⟨read'', left'', hrest, hlines'', hholds''⟩ := ih read' rest' hholds hlines' hholds'
    rw [hmore] at hlines'' hholds''
    refine ⟨read ++ read'', left'', by rw [hrest, List.append_assoc], ?_, hholds''⟩
    rw [Frame.lines_append, hlines, ← hlines'']

end FrameBuffer

namespace LobbyClient

open CoopShooter.Frame (Whole lines lines_append)

/-! ## What a request step leaves -/

section

variable {c : LobbyClient} {request : Type} (answer : Type) [Message request] [Message answer]
  (op : LobbyOp) (m : request)

/-- A request that waits for its answer fails when the server has ended its side. -/
lemma poll_ended (h : c.ended = true)
    (hwaiting : c.waiting = .requested op ∨ c.waiting = .announced op) :
    poll answer op m c = (.ready (.error .disconnected), { c.soaked with waiting := .idle }) := by
  have hpump : pump { c with waiting := .idle } =
      .error .disconnected { c.soaked with waiting := .idle } := pump_ended h
  have hstep : step answer op m c = .error .disconnected { c.soaked with waiting := .idle } := by
    rcases hwaiting with hw | hw <;>
      simp only [step, nextFrame?, bind, EStateM.bind, get, getThe, MonadStateOf.get, EStateM.get,
        modify, modifyGet, MonadStateOf.modifyGet, EStateM.modifyGet, hw, hpump]
  have hexpected : c.waiting.expected? = some op := by
    rcases hwaiting with hw | hw <;> rw [hw] <;> rfl
  rw [poll, hexpected, if_pos (by simp), hstep]

/-- What a poll leaves: nothing is looked at, or something of an open stream, or the stream has
ended. -/
lemma poll_state (c : LobbyClient) :
    (∃ sent waiting, (poll answer op m c).2 = { c with sent := sent, waiting := waiting }) ∨
      c.ended = false ∧ ((poll answer op m c).2 = c.pumped.looked op ∨
        (poll answer op m c).2 = c.pumped.grabbed op) ∨
      c.ended = true ∧ (poll answer op m c).2 = { c.soaked with waiting := .idle } := by
  by_cases hown : c.waiting.expected?.all (· = op) = true
  · rcases hw : c.waiting with _ | expected | expected | ⟨expected, frame⟩
    · rw [poll_idle answer op m hw]
      exact .inl ⟨_, _, rfl⟩
    all_goals obtain rfl : expected = op := by simpa [hw, Waiting.expected?] using hown
    · rcases hended : c.ended with _ | _
      · rw [poll_requested answer expected m hw hended]
        exact .inr (.inl ⟨rfl, .inl rfl⟩)
      · rw [poll_ended answer expected m hended (.inl hw)]
        exact .inr (.inr ⟨rfl, rfl⟩)
    · rcases hended : c.ended with _ | _
      · rw [poll_announced answer expected m hw hended]
        exact .inr (.inl ⟨rfl, .inr rfl⟩)
      · rw [poll_ended answer expected m hended (.inr hw)]
        exact .inr (.inr ⟨rfl, rfl⟩)
    · rw [poll_arrived answer expected m hw]
      rcases Message.decode answer frame with err | a <;> exact .inl ⟨_, _, rfl⟩
  · rw [poll, if_neg hown]
    exact .inl ⟨_, _, rfl⟩

end

lemma joinRoom_state (c : LobbyClient) (room : UInt32) :
    (c.joinRoom room).2 = c ∨ ∃ joining room', (c.joinRoom room).2 =
      { (poll JoinAnswer .joinAnswer (⟨room⟩ : JoinRequest) c).2 with
        joining := joining, room := room' } := by
  rw [joinRoom]
  split
  · refine .inr ?_
    split
    · next heq => exact ⟨_, _, by rw [heq]⟩
    · next heq => exact ⟨_, _, by rw [heq]⟩
    · next heq =>
      rw [heq]
      split <;> exact ⟨_, _, rfl⟩
  · exact .inl rfl

/-! ## What is read -/

/-- A client goes on, still open, and some of the messages before it are read meanwhile. The chat
among them is heard, or waits behind what waited before. -/
structure Gathers (c d : LobbyClient) (arriving : Bytes) (told : List Chat) : Prop where
  opened : d.ended = false
  reads : ∀ future ms, c.buffer.Holds (c.incoming ++ (arriving ++ future)) ms →
    ∃ read left, ms = read ++ left ∧ d.buffer.Holds (d.incoming ++ future) left ∧
      c.inbox ++ lines read = told ++ d.inbox

variable {c d e : LobbyClient}

lemma gathers_same (hopen : d.ended = false) (hbuffer : d.buffer = c.buffer)
    (hincoming : d.incoming = c.incoming) (hinbox : d.inbox = c.inbox) : Gathers c d [] [] where
  opened := hopen
  reads future ms h := by
    refine ⟨[], ms, rfl, ?_, ?_⟩
    · rw [hbuffer, hincoming]
      exact h
    · rw [hinbox]
      exact List.append_nil _

lemma Gathers.trans {as bs : Bytes} {told told' : List Chat} (h : Gathers c d as told)
    (h' : Gathers d e bs told') : Gathers c e (as ++ bs) (told ++ told') where
  opened := h'.opened
  reads future ms hms := by
    rw [List.append_assoc] at hms
    obtain ⟨read, rest, rfl, hrest, hinbox⟩ := h.reads (bs ++ future) ms hms
    obtain ⟨read', left, rfl, hleft, hinbox'⟩ := h'.reads future rest hrest
    refine ⟨read ++ read', left, (List.append_assoc _ _ _).symm, hleft, ?_⟩
    rw [lines_append, ← List.append_assoc, hinbox, List.append_assoc, hinbox', List.append_assoc]

/-- Some messages are read from the front of all that has arrived. -/
lemma gathers_of_filled {told : List Chat} (hopen : d.ended = false) (hincoming : d.incoming = [])
    (h : ∀ future ms, (c.buffer.append c.incoming).Holds future ms → ∃ read left,
      ms = read ++ left ∧ c.inbox ++ lines read = told ++ d.inbox ∧ d.buffer.Holds future left) :
    Gathers c d [] told where
  opened := hopen
  reads future ms hms := by
    obtain ⟨read, left, hread, hinbox, hleft⟩ := h future ms (FrameBuffer.Holds.append hms)
    refine ⟨read, left, hread, ?_, hinbox⟩
    rw [hincoming]
    exact hleft

/-- The chat in front is put aside, and some of it may be heard. -/
lemma gathers_pumped {told : List Chat} (hopen : d.ended = false)
    (hincoming : d.incoming = []) (hbuffer : d.buffer = c.pumped.buffer)
    (hinbox : c.pumped.inbox = told ++ d.inbox) : Gathers c d [] told := by
  refine gathers_of_filled hopen hincoming fun future ms hms => ?_
  obtain ⟨talk, rest, hread, -, hlines, hholds, -⟩ := hms.takeChat
  exact ⟨talk, rest, hread, hlines ▸ hinbox, hbuffer ▸ hholds⟩

/-- The chat in front is put aside, and the message behind it is taken. -/
lemma gathers_taken (hopen : d.ended = false) (hincoming : d.incoming = [])
    (hbuffer : d.buffer = c.pumped.buffer.take?.2) (hinbox : d.inbox = c.pumped.inbox) :
    Gathers c d [] [] := by
  refine gathers_of_filled hopen hincoming fun future ms hms => ?_
  obtain ⟨read, left, hread, hlines, hholds⟩ := hms.takeChat_take?
  refine ⟨read, left, hread, ?_, hbuffer ▸ hholds⟩
  rw [← hlines, List.nil_append, hinbox]
  rfl

lemma gathers_looked (hopen : c.ended = false) (op : LobbyOp) :
    Gathers c (c.pumped.looked op) [] [] := by
  rw [looked]
  split
  · exact gathers_pumped hopen rfl rfl rfl
  · split
    · exact gathers_pumped hopen rfl rfl rfl
    · exact gathers_taken hopen rfl rfl rfl

lemma gathers_grabbed (hopen : c.ended = false) (op : LobbyOp) :
    Gathers c (c.pumped.grabbed op) [] [] := by
  rw [grabbed]
  split <;> next htake => exact gathers_taken hopen rfl (by rw [htake]) rfl

lemma gathers_poll (hopen : c.ended = false) {request : Type} (answer : Type) [Message request]
    [Message answer] (op : LobbyOp) (m : request) :
    Gathers c (poll answer op m c).2 [] [] := by
  rcases poll_state answer op m c with ⟨sent, waiting, hstate⟩ | ⟨-, hstate | hstate⟩ | ⟨hended, -⟩
  · rw [hstate]
    exact gathers_same hopen rfl rfl rfl
  · rw [hstate]
    exact gathers_looked hopen op
  · rw [hstate]
    exact gathers_grabbed hopen op
  · cases hopen.symm.trans hended

lemma lasting_gathers : Lasting fun c d => c.ended = false → Gathers c d [] [] where
  refl _ hopen := gathers_same hopen rfl rfl rfl
  trans h h' hopen := (h hopen).trans (h' (h hopen).opened)
  writes _ _ hopen := gathers_same hopen rfl rfl rfl

lemma gathers_await (wanted : LobbyOp → Bool) :
    Within (fun c d => c.ended = false → Gathers c d [] []) (await wanted) := by
  intro c hopen
  rcases hsearch : search wanted (c.buffer.append c.incoming) with ⟨talk, found, left⟩
  have hstate : (perform (await wanted) c).2 =
      { c with incoming := [], buffer := left, inbox := c.inbox ++ talk } := by
    rw [perform, await_open hopen hsearch]
    cases found <;> rfl
  rw [hstate]
  refine gathers_of_filled hopen rfl fun future ms hms => ?_
  obtain ⟨read, rest, hread, hlines, hholds⟩ := hms.search_reads wanted
  rw [hsearch] at hlines hholds
  exact ⟨read, rest, hread, congrArg (c.inbox ++ ·) hlines.symm, hholds⟩

/-- A step: whatever is called, messages are read from the front, and their chat is kept or heard
by the caller. -/
lemma gathers_call (hopen : c.ended = false) (a : Call) :
    Gathers c (c.call a).2 a.arriving (c.call a).1.heard := by
  cases a with
  | deliver bs =>
    refine ⟨hopen, fun future ms h => ⟨[], ms, rfl, ?_, List.append_nil _⟩⟩
    rw [← List.append_assoc] at h
    exact h
  | createRoom =>
    simp only [call, createRoom_state]
    exact gathers_poll hopen _ _ _
  | joinRoom room =>
    have hpoll := gathers_poll hopen JoinAnswer .joinAnswer (⟨room⟩ : JoinRequest)
    rcases c.joinRoom_state room with hstate | ⟨joining, room', hstate⟩
    · simp only [call, hstate]
      exact gathers_same hopen rfl rfl rfl
    · simp only [call, hstate]
      exact hpoll.trans (gathers_same hpoll.opened rfl rfl rfl)
  | listRooms => exact lasting_gathers.listRooms gathers_await c hopen
  | lobbyState => exact lasting_gathers.lobbyState gathers_await c hopen
  | receiveChat =>
    rw [receiveChat_open hopen, Answer.heard_chat]
    refine gathers_pumped hopen rfl rfl ?_
    cases c.pumped.inbox <;> rfl
  | isConnected =>
    rw [isConnected_open hopen]
    exact gathers_pumped hopen rfl rfl rfl

/-- A run. -/
lemma gathers_after (hopen : c.ended = false) (calls : List Call) :
    Gathers c (c.after calls) (calls.flatMap Call.arriving) (c.heard calls) := by
  induction calls generalizing c with
  | nil => exact gathers_same hopen rfl rfl rfl
  | cons a calls ih =>
    have hcall := gathers_call hopen a
    exact hcall.trans (ih hcall.opened)

/-- **Chat is heard in order.** A stream of messages arrives at a client, in whatever cuts, and
whatever is called meanwhile. The messages that have been read are the first ones of the stream, and
the chat among them was heard, line by line and once, but for the lines that still wait. -/
theorem heard_in_order (hopen : c.ended = false) (calls : List Call) {future : Bytes}
    {ms : List Whole} (hms : ∀ x ∈ ms, x.1.Spells x.2)
    (hbytes : c.unread ++ calls.flatMap Call.arriving ++ future = ms.flatMap (·.2)) :
    ∃ read left, ms = read ++ left ∧ (c.after calls).unread ++ future = left.flatMap (·.2) ∧
      c.inbox ++ lines read = c.heard calls ++ (c.after calls).inbox := by
  have hholds : c.buffer.Holds (c.incoming ++ (calls.flatMap Call.arriving ++ future)) ms := by
    refine ⟨hms, ?_⟩
    rw [← hbytes, unread, List.append_assoc, List.append_assoc]
  obtain ⟨read, left, hread, hleft, hinbox⟩ := (gathers_after hopen calls).reads future ms hholds
  refine ⟨read, left, hread, ?_, hinbox⟩
  rw [← hleft.bytes, unread, List.append_assoc]

end LobbyClient

end CoopShooter
