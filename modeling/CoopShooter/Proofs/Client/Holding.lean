import Mathlib
import CoopShooter.Client.LobbyClient
import CoopShooter.Proofs.Client.Reassembly

/-!
What a buffer holds of the messages of a stream.

Bytes that have arrived are some whole messages and the front of one more. Seen with the bytes that
are to come they make up a list of messages, and to look, to take and to put chat aside are
operations on that list.
-/

namespace CoopShooter

/-- A whole message with its kind. -/
abbrev Frame.Whole := LobbyOp × Bytes

/-- The line of chat that a message is. -/
def Frame.chat? (x : Frame.Whole) : Option Chat :=
  if x.1 = .chat then
    (Message.decode ChatLine x.2).toOption.map fun line => ⟨line.sender, line.text.text⟩
  else none

lemma Frame.chat?_of_spells {frame : Bytes} (h : LobbyOp.chat.Spells frame) :
    Frame.chat? (.chat, frame) = some ⟨(Record.read ChatLine (frame.drop 1)).sender,
      (Record.read ChatLine (frame.drop 1)).text.text⟩ := by
  obtain ⟨m, rfl⟩ : ∃ m : ChatLine, Message.encode m = frame := h
  have hread : Record.read ChatLine ((Message.encode m).drop 1) = m := by
    have := Record.read_encode_append m []
    rwa [List.append_nil] at this
  rw [chat?, if_pos rfl, Message.decode_encode, hread]
  rfl

/-- The lines of chat among some messages. -/
def Frame.lines (xs : List Frame.Whole) : List Chat := xs.filterMap Frame.chat?

lemma Frame.lines_append (xs ys : List Frame.Whole) : lines (xs ++ ys) = lines xs ++ lines ys :=
  List.filterMap_append

lemma Frame.lines_eq_nil {xs : List Frame.Whole} (h : ∀ x ∈ xs, x.1 ≠ .chat) : lines xs = [] :=
  List.filterMap_eq_nil_iff.2 fun x hx => if_neg (h x hx)

namespace FrameBuffer

/-- The buffer and the bytes that are to come make up these messages. -/
structure Holds (b : FrameBuffer) (future : Bytes) (xs : List Frame.Whole) : Prop where
  spelled : ∀ x ∈ xs, x.1.Spells x.2
  bytes : b.bytes ++ future = xs.flatMap (·.2)

variable {b : FrameBuffer} {future : Bytes} {x : Frame.Whole} {xs : List Frame.Whole}

lemma Holds.front (h : b.Holds future xs) {c : UInt8} {bs : Bytes} (hbytes : b.bytes = c :: bs) :
    ∃ x rest, xs = x :: rest ∧ c = x.1.code := by
  rcases xs with _ | ⟨x, rest⟩
  · have := h.bytes
    rw [hbytes] at this
    cases this
  · have hhead := (Frame.spells_iff.1 (h.spelled x List.mem_cons_self)).1
    have hfront := congrArg List.head? h.bytes
    rw [hbytes, List.flatMap_cons, List.head?_append, List.head?_append, hhead] at hfront
    exact ⟨x, rest, rfl, Option.some.inj hfront⟩

/-- Nothing in front of a message is stray. -/
lemma Holds.settle_eq (h : b.Holds future xs) : b.settle = b := by
  rcases hbytes : b.bytes with _ | ⟨c, bs⟩
  · rw [settle, hbytes, List.dropWhile_nil, ← hbytes]
  · obtain ⟨x, rest, -, rfl⟩ := h.front hbytes
    have hb : b = ⟨x.1.code :: bs⟩ := by rw [← hbytes]
    rw [hb, settle_cons_known x.1.ofCode?_code]

/-- What comes next is known as soon as one byte of it is there. -/
lemma Holds.peek? (h : b.Holds future xs) :
    b.bytes = [] ∧ b.peek? = none ∨ ∃ x rest, xs = x :: rest ∧ b.peek? = some x.1 := by
  rcases hbytes : b.bytes with _ | ⟨c, bs⟩
  · refine .inl ⟨rfl, ?_⟩
    rw [FrameBuffer.peek?, h.settle_eq, hbytes]
    rfl
  · obtain ⟨x, rest, rfl, rfl⟩ := h.front hbytes
    refine .inr ⟨x, rest, rfl, ?_⟩
    rw [FrameBuffer.peek?, h.settle_eq, hbytes]
    exact x.1.ofCode?_code

lemma Holds.tail {rest : List Frame.Whole} {left : Bytes} (h : b.Holds future (x :: rest))
    (hb : b.bytes = x.2 ++ left) : Holds ⟨left⟩ future rest := by
  refine ⟨fun y hy => h.spelled y (List.mem_cons_of_mem _ hy), ?_⟩
  have hbytes := h.bytes
  rw [hb, List.flatMap_cons, List.append_assoc] at hbytes
  exact List.append_cancel_left hbytes

/-- The next message is taken, or it is not whole yet. -/
lemma Holds.take? (h : b.Holds future xs) :
    b.take? = (none, b) ∨
      ∃ x rest b', xs = x :: rest ∧ b.take? = (some x, b') ∧ b'.Holds future rest := by
  rcases b.take?_cases with ⟨-, htake⟩ | ⟨op, frame, left, hnext, htake⟩
  · rw [h.settle_eq] at htake
    exact .inl htake
  · rw [h.settle_eq] at hnext
    obtain ⟨hspells, hb⟩ := Frame.next?_eq_frame_iff.1 hnext
    rcases xs with _ | ⟨x, rest⟩
    · have := h.bytes
      rw [hb] at this
      have hframe : frame = [] := by
        rcases frame with _ | ⟨c, cs⟩
        · rfl
        · cases this
      rw [hframe] at hspells
      cases (Frame.spells_iff.1 hspells).1
    · -- both are what stands first in the same stream
      have hwhole := Frame.next?_append hnext future
      rw [h.bytes, List.flatMap_cons, Frame.next?_eq_frame_iff.2
        ⟨h.spelled x List.mem_cons_self, rfl⟩] at hwhole
      simp only [Option.some.injEq, Prod.mk.injEq, Frame.Piece.frame.injEq] at hwhole
      obtain ⟨⟨rfl, rfl⟩, -⟩ := hwhole
      exact .inr ⟨x, rest, ⟨left⟩, rfl, htake, h.tail hb⟩

/-- A message is taken once no byte of it is to come. -/
lemma Holds.take?_whole {rest : List Frame.Whole} (h : b.Holds future (x :: rest))
    (hfuture : future.length ≤ (rest.flatMap (·.2)).length) :
    ∃ b', b.take? = (some x, b') ∧ b'.Holds future rest := by
  have hbytes := h.bytes
  rw [List.flatMap_cons] at hbytes
  have hlen : x.2.length ≤ b.bytes.length := by
    have := congrArg List.length hbytes
    simp only [List.length_append] at this
    omega
  obtain ⟨left, hb⟩ : ∃ left, b.bytes = x.2 ++ left := by
    have hprefix : x.2 <+: b.bytes :=
      List.prefix_of_prefix_length_le (List.prefix_append x.2 _)
        (hbytes ▸ List.prefix_append b.bytes future) hlen
    obtain ⟨left, hleft⟩ := hprefix
    exact ⟨left, hleft.symm⟩
  refine ⟨⟨left⟩, take?_of_next? ?_, h.tail hb⟩
  rw [h.settle_eq]
  exact Frame.next?_eq_frame_iff.2 ⟨h.spelled x List.mem_cons_self, hb⟩

/-- The chat in front is taken, line by line; what comes next is no chat then, or not whole. -/
lemma Holds.takeChat (h : b.Holds future xs) :
    ∃ talk rest, xs = talk ++ rest ∧ (∀ x ∈ talk, x.1 = .chat) ∧
      (LobbyClient.takeChat b).1 = Frame.lines talk ∧
      (LobbyClient.takeChat b).2.Holds future rest ∧
      ((LobbyClient.takeChat b).2.peek? = some .chat →
        (LobbyClient.takeChat b).2.take? = (none, (LobbyClient.takeChat b).2)) := by
  fun_induction LobbyClient.takeChat b generalizing xs with
  | case1 b hpeek left htake =>
    obtain rfl : left = b := by
      rcases h.take? with hnone | ⟨x, rest, b', -, hsome, -⟩
      · exact (Prod.mk.inj (htake.symm.trans hnone)).2
      · cases htake.symm.trans hsome
    exact ⟨[], xs, rfl, by simp, rfl, h, fun _ => htake⟩
  | case2 b hpeek op frame left htake hlt line lines left' hmore =>
    rename_i ih
    rcases h.take? with hnone | ⟨x, rest, b', rfl, hsome, hrest⟩
    · cases htake.symm.trans hnone
    · cases htake.symm.trans hsome
      have hop : op = .chat := by
        rcases h.peek? with ⟨-, hnone⟩ | ⟨x, rest, hx, hx'⟩
        · cases hpeek.symm.trans hnone
        · cases hx
          exact Option.some.inj (hx'.symm.trans hpeek)
      subst hop
      obtain ⟨talk, rest', rfl, htalk, hlines, hholds, hlate⟩ := ih hrest
      simp only [hmore] at hlines hholds hlate
      have hline := Frame.chat?_of_spells (h.spelled _ List.mem_cons_self)
      refine ⟨(.chat, frame) :: talk, rest', rfl, ?_, ?_, hholds, hlate⟩
      · simpa using htalk
      · rw [Frame.lines, List.filterMap_cons_some hline, hlines]
        rfl
  | case3 b hpeek =>
    rw [h.settle_eq]
    exact ⟨[], xs, rfl, by simp, rfl, h, fun hchat => absurd hchat hpeek⟩

lemma peek?_of_take? {b' : FrameBuffer} (h : b.take? = (some x, b')) : b.peek? = some x.1 := by
  rcases b.take?_cases with ⟨-, hnone⟩ | ⟨op, frame, left, hnext, htake⟩
  · cases h.symm.trans hnone
  · cases h.symm.trans htake
    obtain ⟨hspells, hb⟩ := Frame.next?_eq_frame_iff.1 hnext
    rw [FrameBuffer.peek?, hb, List.head?_append, (Frame.spells_iff.1 hspells).1]
    exact op.ofCode?_code

lemma Holds.append {bs : Bytes} (h : b.Holds (bs ++ future) xs) : (b.append bs).Holds future xs :=
  ⟨h.spelled, by rw [FrameBuffer.append, List.append_assoc]; exact h.bytes⟩

end FrameBuffer

end CoopShooter
