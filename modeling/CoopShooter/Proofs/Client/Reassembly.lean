import Mathlib
import CoopShooter.Client.FrameBuffer
import CoopShooter.Proofs.Wire.Frames

/-!
Whole messages out of a stream that arrives in cuts.

What a buffer holds is seen as pieces. Settling drops the stray ones at the front, taking drops them
and hands out the message behind them once it is whole, and bytes that arrive go behind what is not
whole yet. So everything that is ever taken out, and what is left in the end, is told by the bytes
alone.
-/

namespace CoopShooter

/-! ## Whole messages -/

namespace LobbyOp

/-- The bytes are a message of this kind as it is written. -/
def Spells (op : LobbyOp) (bs : Bytes) : Prop :=
  match op with
  | .roomList => ∃ (h : RoomListHeader) (es : List RoomEntry), Listing.encode h es = .ok bs
  | .lobby => ∃ (h : LobbyHeader) (es : List MemberEntry), Listing.encode h es = .ok bs
  | op => ∃ m : (MessageKind.lobby op).Content, Message.encode m = bs

/-- The bytes are taken by whoever reads messages of this kind. -/
def Accepts (op : LobbyOp) (bs : Bytes) : Prop :=
  match op with
  | .roomList => ∃ l, Listing.decode RoomListHeader bs = .ok l
  | .lobby => ∃ l, Listing.decode LobbyHeader bs = .ok l
  | op => ∃ m, Message.decode (MessageKind.lobby op).Content bs = .ok m

lemma accepts_iff_spells {op : LobbyOp} {bs : Bytes} : op.Accepts bs ↔ op.Spells bs := by
  cases op
  case roomList | lobby =>
    simp only [Accepts, Spells, Prod.exists, Listing.decode_eq_ok_iff]
  all_goals exact exists_congr fun m => Message.decode_eq_ok_iff

end LobbyOp

namespace Frame

/-- A listing is no shorter than its header. -/
lemma headerSize_le {op : LobbyOp} {headerSize : ℕ} {totalSize : Bytes → ℕ}
    (h : shape op = .listing headerSize totalSize) (bs : Bytes) : headerSize ≤ totalSize bs := by
  cases op
  case roomList | lobby =>
    cases h
    exact Nat.le_add_right _ _
  all_goals cases h

/-- The front of a stream tells the length of its first message, and so does that message alone. -/
lemma length?_take {bs : Bytes} {n : ℕ} (h : length? bs = .ok (some n)) (hn : n ≤ bs.length) :
    length? (bs.take n) = .ok (some n) := by
  have hpos : 0 < n := pos_of_length? h
  rcases bs with _ | ⟨b, bs⟩
  · cases h
  · obtain ⟨k, rfl⟩ : ∃ k, n = k + 1 := ⟨n - 1, by omega⟩
    rcases hop : LobbyOp.ofCode? b with _ | op
    · simp [length?, hop] at h
    · rcases hshape : shape op with size | ⟨headerSize, totalSize⟩
      · rw [length?_fixed hop hshape] at h
        rw [List.take_succ_cons, length?_fixed hop hshape, h]
      · rw [length?_listing hop hshape] at h
        split_ifs at h with hlen
        · cases h
        · have htotal : totalSize (b :: bs) = k + 1 := by simpa using h
          have htake : (b :: bs.take k).length = k + 1 := by
            simp only [List.length_cons, List.length_take] at hn ⊢
            omega
          have hheader : headerSize ≤ (b :: bs.take k).length := by
            have := headerSize_le hshape (b :: bs)
            omega
          have hsame := totalSize_append hshape hheader (bs.drop k)
          rw [List.cons_append, List.take_append_drop] at hsame
          rw [List.take_succ_cons, length?_listing hop hshape, if_neg (Nat.not_lt.2 hheader),
            ← hsame, htotal]

section

variable {op : LobbyOp} {frame : Bytes}

lemma length?_of_head {size : ℕ} (hhead : frame.head? = some op.code)
    (hshape : shape op = .fixed size) : length? frame = .ok (some size) := by
  rcases frame with _ | ⟨b, frame⟩
  · cases hhead
  · obtain rfl : b = op.code := Option.some.inj hhead
    exact length?_fixed op.ofCode?_code hshape frame

/-- A message of fixed size is known by its first byte and its length. -/
lemma spells_fixed_iff {α : Type} [Message α] (hop : Message.opcode α = op.code)
    (hshape : shape op = .fixed (Message.size α)) :
    (∃ m : α, Message.encode m = frame) ↔
      frame.head? = some op.code ∧ length? frame = .ok (some frame.length) := by
  simp only [← Message.decode_eq_ok_iff, Message.exists_decode_iff, hop]
  refine and_congr_right fun hhead => ?_
  rw [length?_of_head hhead hshape]
  simp [eq_comm]

/-- A listing is known by its first byte and the length that its header announces. -/
lemma spells_listing_iff {header entry : Type} [Listing header entry]
    (hop : Message.opcode header = op.code) (hshape : shape op = .ofListing header) :
    (∃ (h : header) (es : List entry), Listing.encode h es = .ok frame) ↔
      frame.head? = some op.code ∧ length? frame = .ok (some frame.length) := by
  simp only [← Listing.decode_eq_ok_iff, ← Prod.exists', Listing.exists_decode_iff, hop]
  rcases frame with _ | ⟨b, frame⟩
  · simp
  · rw [and_left_comm]
    refine and_congr_right fun hhead => ?_
    obtain rfl : b = op.code := Option.some.inj hhead
    rw [length?_listing op.ofCode?_code hshape]
    split_ifs with hlen
    · simp only [reduceCtorEq, iff_false, Except.ok.injEq]
      omega
    · simp only [Nat.not_lt.1 hlen, true_and, Except.ok.injEq, Option.some.injEq]
      exact eq_comm

end

/-- A whole message, told by the front of a stream. -/
lemma spells_iff {op : LobbyOp} {frame : Bytes} :
    op.Spells frame ↔ frame.head? = some op.code ∧ length? frame = .ok (some frame.length) := by
  cases op
  case roomList => exact spells_listing_iff rfl rfl
  case lobby => exact spells_listing_iff rfl rfl
  all_goals exact spells_fixed_iff rfl rfl

/-- **What stands first in a stream**: a message is found exactly where one is written. -/
lemma next?_eq_frame_iff {bs rest frame : Bytes} {op : LobbyOp} :
    next? bs = some (.frame op frame, rest) ↔ op.Spells frame ∧ bs = frame ++ rest := by
  constructor
  · intro h
    rcases bs with _ | ⟨b, bs⟩
    · cases h
    · simp only [next?] at h
      split at h
      · cases h
      · next op' hop =>
        split at h
        · next n hn =>
          split_ifs at h with hlen
          simp only [Option.some.injEq, Prod.mk.injEq, Piece.frame.injEq] at h
          obtain ⟨⟨rfl, rfl⟩, rfl⟩ := h
          have hpos : 0 < n := pos_of_length? hn
          have htake : ((b :: bs).take n).length = n := List.length_take_of_le hlen
          refine ⟨spells_iff.2 ⟨?_, ?_⟩, (List.take_append_drop n _).symm⟩
          · rw [List.head?_take, if_neg (by omega), LobbyOp.code_of_ofCode? hop]
            rfl
          · rw [htake]
            exact length?_take hn hlen
        · cases h
  · rintro ⟨hspells, rfl⟩
    obtain ⟨hhead, hlen⟩ := spells_iff.1 hspells
    exact next?_whole hhead hlen rest

/-- A byte is stray exactly if it begins no message. -/
lemma next?_eq_stray_iff {bs rest : Bytes} {b : UInt8} :
    next? bs = some (.stray b, rest) ↔ LobbyOp.ofCode? b = none ∧ bs = b :: rest := by
  constructor
  · intro h
    rcases bs with _ | ⟨c, bs⟩
    · cases h
    · simp only [next?] at h
      split at h
      · next hop =>
        cases h
        exact ⟨hop, rfl⟩
      · split at h
        · split_ifs at h
          cases h
        · cases h
  · rintro ⟨hop, rfl⟩
    simp [next?, hop]

/-- Behind a byte that begins a message, no length is refused. -/
lemma length?_ne_error {b : UInt8} {op : LobbyOp} (hop : LobbyOp.ofCode? b = some op) (bs : Bytes) :
    ∃ n, length? (b :: bs) = .ok n := by
  rcases hshape : shape op with size | ⟨headerSize, totalSize⟩
  · exact ⟨_, length?_fixed hop hshape bs⟩
  · rw [length?_listing hop hshape]
    split_ifs
    · exact ⟨none, rfl⟩
    · exact ⟨_, rfl⟩

/-- The message that a piece is. -/
def Piece.frame? : Piece → Option (LobbyOp × Bytes)
  | stray _ => none
  | frame op bytes => some (op, bytes)

end Frame

/-! ## Buffers -/

namespace FrameBuffer

variable {f g rest : FrameBuffer} {frame : LobbyOp × Bytes}

lemma settle_cons_stray {b : UInt8} (h : LobbyOp.ofCode? b = none) (bs : Bytes) :
    settle ⟨b :: bs⟩ = settle ⟨bs⟩ := by
  have hb : isStray b = true := by simp [isStray, h]
  rw [settle, settle, List.dropWhile_cons_of_pos hb]

lemma settle_cons_known {b : UInt8} {op : LobbyOp} (h : LobbyOp.ofCode? b = some op) (bs : Bytes) :
    settle ⟨b :: bs⟩ = ⟨b :: bs⟩ := by
  have hb : ¬ isStray b = true := by simp [isStray, h]
  rw [settle, List.dropWhile_cons_of_neg hb]

/-- Dropping what is stray now or later makes no difference. -/
lemma settle_append (f : FrameBuffer) (bs : Bytes) :
    (f.settle.append bs).settle = (f.append bs).settle := by
  simp only [settle, append, List.dropWhile_append, List.dropWhile_idempotent]

/-- A settled buffer is empty, or a message begins at its front. -/
lemma settle_cases (f : FrameBuffer) :
    f.settle.bytes = [] ∨
      ∃ b bs op, f.settle.bytes = b :: bs ∧ LobbyOp.ofCode? b = some op := by
  rcases hbytes : f.settle.bytes with _ | ⟨b, bs⟩
  · exact .inl rfl
  · have hb := List.head?_dropWhile_not isStray f.bytes
    rw [show f.bytes.dropWhile isStray = b :: bs from hbytes] at hb
    rcases hop : LobbyOp.ofCode? b with _ | op
    · simp [isStray, hop] at hb
    · exact .inr ⟨b, bs, op, rfl, hop⟩

lemma take?_of_next? {op : LobbyOp} {bs rest' : Bytes}
    (h : Frame.next? f.settle.bytes = some (.frame op bs, rest')) :
    f.take? = (some (op, bs), ⟨rest'⟩) := by
  rw [take?, h]

lemma take?_of_waiting (h : Frame.next? f.settle.bytes = none) : f.take? = (none, f.settle) := by
  rw [take?, h]

/-- Nothing whole, or a message is handed out that is written at the front. -/
lemma take?_cases (f : FrameBuffer) :
    Frame.next? f.settle.bytes = none ∧ f.take? = (none, f.settle) ∨
      ∃ op bs rest, Frame.next? f.settle.bytes = some (.frame op bs, rest) ∧
        f.take? = (some (op, bs), ⟨rest⟩) := by
  rcases h : Frame.next? f.settle.bytes with _ | ⟨p, rest⟩
  · exact .inl ⟨rfl, take?_of_waiting h⟩
  · rcases p with b | ⟨op, bs⟩
    · -- a settled buffer begins with no stray byte
      obtain ⟨hstray, hbytes⟩ := Frame.next?_eq_stray_iff.1 h
      rcases f.settle_cases with hnil | ⟨b', bs, op, hcons, hop⟩
      · cases hnil.symm.trans hbytes
      · cases hcons.symm.trans hbytes
        cases hop.symm.trans hstray
    · exact .inr ⟨op, bs, rest, rfl, take?_of_next? h⟩

lemma take?_congr (h : f.settle = g.settle) : f.take? = g.take? := by
  rw [take?, take?, h]

lemma takeAll_waiting (h : f.take? = (none, rest)) : f.takeAll = ([], rest) := by
  rw [takeAll]
  split
  · next h' =>
    rw [h] at h'
    cases h'
    rfl
  · next h' =>
    rw [h] at h'
    cases h'

lemma takeAll_taken (h : f.take? = (some frame, rest)) :
    f.takeAll = (frame :: rest.takeAll.1, rest.takeAll.2) := by
  rw [takeAll]
  split
  · next h' =>
    rw [h] at h'
    cases h'
  · next h' =>
    rw [h] at h'
    cases h'
    rfl

lemma takeAll_congr (h : f.settle = g.settle) : f.takeAll = g.takeAll := by
  rcases hf : f.take? with ⟨_ | frame, rest⟩
  · rw [takeAll_waiting hf, takeAll_waiting ((take?_congr h).symm.trans hf)]
  · rw [takeAll_taken hf, takeAll_taken ((take?_congr h).symm.trans hf)]

/-- What can be taken out are the messages among the pieces, and the rest stays. -/
lemma takeAll_eq (bs : Bytes) :
    takeAll ⟨bs⟩ = ((Frame.pieces bs).1.filterMap Frame.Piece.frame?, ⟨(Frame.pieces bs).2⟩) := by
  induction bs using Frame.pieces_induction with
  | waiting bs h =>
    have hsettle : settle ⟨bs⟩ = ⟨bs⟩ := by
      rcases bs with _ | ⟨b, bs⟩
      · rfl
      · rcases hop : LobbyOp.ofCode? b with _ | op
        · simp [Frame.next?, hop] at h
        · exact settle_cons_known hop bs
    have htake : take? ⟨bs⟩ = (none, ⟨bs⟩) := by
      rw [take?_of_waiting (by rw [hsettle]; exact h), hsettle]
    rw [takeAll_waiting htake, Frame.pieces_waiting h]
    rfl
  | piece bs p rest h ih =>
    rw [Frame.pieces_piece h]
    rcases p with b | ⟨op, frame⟩
    · obtain ⟨hb, rfl⟩ := Frame.next?_eq_stray_iff.1 h
      rw [takeAll_congr (settle_cons_stray hb rest), ih]
      rfl
    · have hsettle : settle ⟨bs⟩ = ⟨bs⟩ := by
        rcases bs with _ | ⟨b, bs⟩
        · cases h
        · rcases hop : LobbyOp.ofCode? b with _ | op'
          · simp [Frame.next?, hop] at h
          · exact settle_cons_known hop bs
      have htake : take? ⟨bs⟩ = (some (op, frame), ⟨rest⟩) :=
        take?_of_next? (by rw [hsettle]; exact h)
      rw [takeAll_taken htake, ih]
      rfl

/-! ## Arrivals, looks and takes -/

/-- What can happen to a buffer: bytes arrive, somebody looks what comes next, or takes it. -/
inductive Act where
  | fill (bs : Bytes)
  | peek
  | take

/-- The bytes that arrive. -/
def Act.fed : Act → Bytes
  | fill bs => bs
  | peek | take => []

/-- What is taken out, and the buffer after that. A look drops the stray bytes that it finds. -/
def step (f : FrameBuffer) : Act → List (LobbyOp × Bytes) × FrameBuffer
  | .fill bs => ([], f.append bs)
  | .peek => ([], f.settle)
  | .take => (f.take?.1.toList, f.take?.2)

/-- What is taken out by some acts and then until nothing whole is left, and what is left. -/
def drain (f : FrameBuffer) : List Act → List (LobbyOp × Bytes) × FrameBuffer
  | [] => f.takeAll
  | a :: acts => ((f.step a).1 ++ ((f.step a).2.drain acts).1, ((f.step a).2.drain acts).2)

@[simp] lemma append_nil (f : FrameBuffer) : f.append [] = f := by
  simp [append]

lemma append_append (f : FrameBuffer) (bs cs : Bytes) :
    (f.append bs).append cs = f.append (bs ++ cs) := by
  simp [append]

/-- A message that is there whole is the next one also when more has arrived. -/
lemma take?_append {op : LobbyOp} {bs rest' : Bytes}
    (h : Frame.next? f.settle.bytes = some (.frame op bs, rest')) (cs : Bytes) :
    (f.append cs).take? = (some (op, bs), ⟨rest' ++ cs⟩) := by
  have hsettled : (f.append cs).settle = f.settle.append cs := by
    rcases f.settle_cases with hnil | ⟨b, bs', op', hcons, hop⟩
    · rw [hnil] at h
      cases h
    · rw [← settle_append]
      have hfront : f.settle.append cs = ⟨b :: (bs' ++ cs)⟩ := by rw [append, hcons]; rfl
      rw [hfront, settle_cons_known hop]
  refine take?_of_next? ?_
  rw [hsettled]
  exact Frame.next?_append h cs

/-- Whatever is done first, all that can be taken out of the buffer stays the same. -/
lemma takeAll_step (f : FrameBuffer) (a : Act) (bs : Bytes) :
    (f.append (a.fed ++ bs)).takeAll =
      ((f.step a).1 ++ ((f.step a).2.append bs).takeAll.1,
        ((f.step a).2.append bs).takeAll.2) := by
  cases a with
  | fill cs => simp only [step, Act.fed, append_append, List.nil_append]
  | peek =>
    have hsame : (f.append bs).takeAll = (f.settle.append bs).takeAll :=
      takeAll_congr (f.settle_append bs).symm
    simp only [step, Act.fed, List.nil_append, hsame]
  | take =>
    rcases f.take?_cases with ⟨-, htake⟩ | ⟨op, frame, rest, hnext, htake⟩
    · have hsame : (f.append bs).takeAll = (f.settle.append bs).takeAll :=
        takeAll_congr (f.settle_append bs).symm
      simp only [step, Act.fed, htake, Option.toList_none, List.nil_append, hsame]
    · have hall := takeAll_taken (take?_append hnext bs)
      simp only [step, Act.fed, htake, Option.toList_some, List.nil_append, List.cons_append, hall]
      rfl

/-- All that is ever taken out, and what is left, as if the bytes had arrived at once. -/
lemma drain_eq (f : FrameBuffer) (acts : List Act) :
    f.drain acts = (f.append (acts.flatMap Act.fed)).takeAll := by
  induction acts generalizing f with
  | nil => rw [List.flatMap_nil, append_nil, drain]
  | cons a acts ih => rw [drain, ih, List.flatMap_cons, takeAll_step]

/-- What is handed out is a message as it is written. -/
lemma spells_of_mem_takeAll {bs : Bytes} {x : LobbyOp × Bytes}
    (h : x ∈ (takeAll ⟨bs⟩).1) : x.1.Spells x.2 := by
  rw [takeAll_eq] at h
  induction bs using Frame.pieces_induction with
  | waiting bs hbs =>
    rw [Frame.pieces_waiting hbs] at h
    cases h
  | piece bs p rest hbs ih =>
    rw [Frame.pieces_piece hbs] at h
    rcases p with b | ⟨op, frame⟩
    · exact ih h
    · rcases List.mem_cons.1 h with rfl | h
      · exact (Frame.next?_eq_frame_iff.1 hbs).1
      · exact ih h

/-- Messages that are written one behind the other are handed out one after the other. -/
lemma takeAll_messages {ms : List (LobbyOp × Bytes)} (h : ∀ x ∈ ms, x.1.Spells x.2) :
    takeAll ⟨ms.flatMap (·.2)⟩ = (ms, {}) := by
  rw [takeAll_eq]
  induction ms with
  | nil =>
    have hnone : Frame.pieces [] = ([], []) := Frame.pieces_waiting rfl
    rw [List.flatMap_nil, hnone]
    rfl
  | cons x ms ih =>
    have hnext : Frame.next? ((x :: ms).flatMap (·.2)) =
        some (.frame x.1 x.2, ms.flatMap (·.2)) :=
      Frame.next?_eq_frame_iff.2 ⟨h x List.mem_cons_self, List.flatMap_cons⟩
    have hrest := ih fun y hy => h y (List.mem_cons_of_mem _ hy)
    simp only [Prod.mk.injEq, FrameBuffer.mk.injEq] at hrest
    rw [Frame.pieces_piece hnext, List.filterMap_cons, hrest.1, hrest.2]
    rfl

/-- Takes the first message with every check on the way: a length that is asked for may be
refused. -/
def takeChecked (f : FrameBuffer) : Except WireError (Option Bytes × FrameBuffer) :=
  if f.peek? = none then .ok (none, f.settle)
  else
    match Frame.length? f.settle.bytes with
    | .error e => .error e
    | .ok none => .ok (none, f.settle)
    | .ok (some n) =>
      if n ≤ f.settle.bytes.length then
        .ok (some (f.settle.bytes.take n), ⟨f.settle.bytes.drop n⟩)
      else .ok (none, f.settle)

/-- No length is refused once the stray bytes are gone. -/
lemma takeChecked_eq (f : FrameBuffer) :
    f.takeChecked = .ok (f.take?.1.map (·.2), f.take?.2) := by
  rcases f.settle_cases with hnil | ⟨b, bs, op, hcons, hop⟩
  · have hpeek : f.peek? = none := by rw [peek?, hnil]; rfl
    have htake : f.take? = (none, f.settle) := take?_of_waiting (by rw [hnil]; rfl)
    rw [takeChecked, if_pos hpeek, htake]
    rfl
  · have hpeek : f.peek? = some op := by rw [peek?, hcons, List.head?_cons, Option.bind_some, hop]
    have hnext : Frame.next? f.settle.bytes = Frame.next? (b :: bs) := by rw [hcons]
    obtain ⟨n?, hn⟩ := Frame.length?_ne_error hop bs
    simp only [Frame.next?, hop, hn] at hnext
    rw [takeChecked, if_neg (by simp [hpeek]), hcons, hn]
    rcases n? with _ | n
    · rw [take?_of_waiting hnext]
      rfl
    · by_cases hlen : n ≤ (b :: bs).length
      · simp only [if_pos hlen] at hnext ⊢
        rw [take?_of_next? hnext]
        rfl
      · simp only [if_neg hlen] at hnext ⊢
        rw [take?_of_waiting hnext]
        rfl

/-- **Frames do not depend on cuts.** However bytes arrive, and whatever is looked at and taken in
between, the same messages come out of a buffer in the end and the same bytes are left. Taking is
never refused; what comes out is taken by whoever reads messages of its kind; messages that are
written one behind the other come out as they are, with nothing left; and a length that is known
stays the same however the bytes go on. -/
theorem frames_ignore_cuts :
    (∀ acts acts' : List Act, acts.flatMap Act.fed = acts'.flatMap Act.fed →
      drain {} acts = drain {} acts') ∧
    (∀ f : FrameBuffer, f.takeChecked = .ok (f.take?.1.map (·.2), f.take?.2)) ∧
    (∀ acts, ∀ x ∈ (drain {} acts).1, x.2.head? = some x.1.code ∧ x.1.Accepts x.2) ∧
    (∀ (ms : List (LobbyOp × Bytes)) (acts : List Act), (∀ x ∈ ms, x.1.Spells x.2) →
      acts.flatMap Act.fed = ms.flatMap (·.2) → drain {} acts = (ms, {})) ∧
    ∀ (bs : Bytes) (n : ℕ), Frame.length? bs = .ok (some n) →
      ∀ cs, Frame.length? (bs ++ cs) = .ok (some n) := by
  have hdrain : ∀ acts : List Act, drain {} acts = takeAll ⟨acts.flatMap Act.fed⟩ := drain_eq {}
  refine ⟨fun acts acts' h => ?_, takeChecked_eq, fun acts x hx => ?_, fun ms acts hms h => ?_,
    fun bs n h => Frame.length?_append h⟩
  · rw [hdrain, hdrain, h]
  · rw [hdrain] at hx
    have hspells := spells_of_mem_takeAll hx
    exact ⟨(Frame.spells_iff.1 hspells).1, LobbyOp.accepts_iff_spells.2 hspells⟩
  · rw [hdrain, h, takeAll_messages hms]

/-- Two answers arrive in three parts, with a look and two takes too early: they come out whole. And
a byte that means nothing, an answer and half of the next one give the same in two cuts and at
once. -/
theorem answers_come_out_whole :
    let ms : List (LobbyOp × Bytes) := [(.joinAnswer, [15, 1]), (.createAnswer, [13, 3, 0, 0, 0])]
    let cut : List Act := [.take, .fill [15], .take, .fill [1, 13, 3], .peek, .fill [0, 0, 0]]
    let noise : List Act := [.fill [238, 15], .peek, .fill [1, 13, 7], .take]
    (∀ x ∈ ms, x.1.Spells x.2) ∧ drain {} cut = (ms, {}) ∧
      (LobbyOp.createAnswer, [13, 3, 0, 0, 0]) ∈ (drain {} cut).1 ∧
      LobbyOp.createAnswer.Accepts [13, 3, 0, 0, 0] ∧
      noise.flatMap Act.fed = [238, 15, 1, 13, 7] ∧
      drain {} noise = drain {} [.fill [238, 15, 1, 13, 7]] ∧
      Frame.length? [13, 7] = .ok (some 5) ∧ Frame.length? ([13, 7] ++ [0, 0]) = .ok (some 5) := by
  intro ms cut noise
  obtain ⟨hcuts, -, haccepted, hwhole, hlength⟩ := frames_ignore_cuts
  have hms : ∀ x ∈ ms, x.1.Spells x.2 := by
    simp only [ms, List.forall_mem_cons]
    exact ⟨⟨(⟨1⟩ : JoinAnswer), rfl⟩, ⟨(⟨3⟩ : CreateAnswer), rfl⟩, by simp⟩
  have hdrain : drain {} cut = (ms, {}) := hwhole ms cut hms rfl
  have hmem : (LobbyOp.createAnswer, [13, 3, 0, 0, 0]) ∈ (drain {} cut).1 := by
    rw [hdrain]
    simp [ms]
  have hknown : Frame.length? [13, 7] = .ok (some 5) := by rfl
  exact ⟨hms, hdrain, hmem, (haccepted cut _ hmem).2, rfl, hcuts noise _ rfl, hknown,
    hlength _ 5 hknown [0, 0]⟩

end FrameBuffer

end CoopShooter
