import Mathlib
import CoopShooter.Proofs.Wire.Codec
import CoopShooter.Wire.Stream

/-!
Messages on a byte stream. A message can be read in one piece, or its opcode first and its fields
then; both ways take the same bytes and make the same of them. What was written comes out in the
order in which it went in, however reads and writes take turns, and a read that comes too early
fails and uses up what there is.
-/

namespace CoopShooter

lemma Message.decodeBody_eq_ok_iff {α : Type} [Message α] {m : α} {body : Bytes} :
    decodeBody α body = .ok m ↔ Record.encode m = body := by
  constructor
  · intro h
    rw [decodeBody] at h
    split_ifs at h with hlen
    cases h
    rw [Record.encode_read hlen.ge, List.take_of_length_le hlen.le]
  · rintro rfl
    exact Message.decodeBody_tail (Message.decode_encode m)

lemma Except.bind_eq_ok_iff {ε α β : Type} {x : Except ε α} {f : α → Except ε β} {b : β} :
    x.bind f = .ok b ↔ ∃ a, x = .ok a ∧ f a = .ok b := by
  cases x <;> simp [Except.bind]

namespace ByteStream

/-- The stream when all of it has been read. -/
def exhausted (s : ByteStream) : ByteStream := { s with position := s.bytes.length }

/-- The stream when some more of it has been read. -/
def advance (s : ByteStream) (count : ℕ) : ByteStream := { s with position := s.position + count }

variable {s : ByteStream} {n : ℕ}

@[simp] lemma unread_exhausted (s : ByteStream) : s.exhausted.unread = [] :=
  List.drop_length

lemma unread_advance (s : ByteStream) (n : ℕ) : (s.advance n).unread = s.unread.drop n := by
  rw [unread, unread, List.drop_drop]
  rfl

/-! ### Bytes -/

lemma take_enough (h : n ≤ s.unread.length) : s.take n = (.ok (s.unread.take n), s.advance n) :=
  if_pos h

lemma take_short (h : s.unread.length < n) : s.take n = (.error .endOfBytes, s.exhausted) :=
  if_neg (Nat.not_le.2 h)

lemma take_ok_iff {bs : Bytes} :
    (s.take n).1 = .ok bs ↔ bs <+: s.unread ∧ bs.length = n := by
  rcases Nat.lt_or_ge s.unread.length n with hlt | hle
  · rw [take_short hlt]
    refine ⟨fun h => (by cases h), ?_⟩
    rintro ⟨hbs, rfl⟩
    exact absurd hbs.length_le (Nat.not_le.2 hlt)
  · rw [take_enough hle]
    constructor
    · intro h
      cases h
      exact ⟨List.take_prefix _ _, List.length_take_of_le hle⟩
    · rintro ⟨hbs, rfl⟩
      exact congrArg Except.ok (List.prefix_iff_eq_take.1 hbs).symm

/-- Bytes may be taken in two pieces. -/
lemma take_take (s : ByteStream) (m n : ℕ) : ((s.take m).2.take n).2 = (s.take (m + n)).2 := by
  rcases Nat.lt_or_ge s.unread.length m with hm | hm
  · rw [take_short hm, take_short (Nat.lt_add_right n hm)]
    rcases Nat.eq_zero_or_pos n with rfl | hn
    · rfl
    · have hnone : s.exhausted.unread.length < n := by rwa [unread_exhausted]
      exact congrArg Prod.snd (take_short hnone)
  · have hrest : (s.advance m).unread.length = s.unread.length - m := by
      rw [unread_advance, List.length_drop]
    rw [take_enough hm]
    change ((s.advance m).take n).2 = _
    rcases Nat.lt_or_ge s.unread.length (m + n) with hn | hn
    · rw [take_short hn, take_short (by omega)]
      rfl
    · rw [take_enough hn, take_enough (by omega)]
      simp [advance, Nat.add_assoc]

/-! ### Messages -/

variable {α : Type} [Message α] {m : α} {b : UInt8}

lemma readOpcode_ok_iff : s.readOpcode.1 = .ok b ↔ [b] <+: s.unread := by
  have hread : s.readOpcode.1 = (s.take 1).1.map fun bs => bs.headD 0 := rfl
  rw [hread]
  constructor
  · intro h
    rcases hbs : (s.take 1).1 with _ | bs
    · rw [hbs] at h
      cases h
    · rw [hbs] at h
      obtain ⟨hfront, hlen⟩ := take_ok_iff.1 hbs
      obtain ⟨c, rfl⟩ := List.length_eq_one_iff.1 hlen
      cases h
      exact hfront
  · intro h
    have hbyte : (s.take 1).1 = .ok [b] := take_ok_iff.2 ⟨h, rfl⟩
    rw [hbyte]
    rfl

lemma readBody_ok_iff : (s.readBody α).1 = .ok m ↔ Record.encode m <+: s.unread := by
  have hread : (s.readBody α).1 = (s.take (Record.size α)).1.bind (Message.decodeBody α) := rfl
  simp only [hread, Except.bind_eq_ok_iff, take_ok_iff, Message.decodeBody_eq_ok_iff]
  constructor
  · rintro ⟨bs, ⟨h, -⟩, rfl⟩
    exact h
  · exact fun h => ⟨_, ⟨h, Record.length_encode m⟩, rfl⟩

lemma readMessage_ok_iff : (s.readMessage α).1 = .ok m ↔ Message.encode m <+: s.unread := by
  have hread : (s.readMessage α).1 = (s.take (Message.size α)).1.bind (Message.decode α) := rfl
  simp only [hread, Except.bind_eq_ok_iff, take_ok_iff, Message.decode_eq_ok_iff]
  constructor
  · rintro ⟨bs, ⟨h, -⟩, rfl⟩
    exact h
  · exact fun h => ⟨_, ⟨h, Message.length_encode m⟩, rfl⟩

/-- Both ways leave the stream in one place, whatever they find. -/
lemma stream_readBody (s : ByteStream) :
    (s.readOpcode.2.readBody α).2 = (s.readMessage α).2 :=
  take_take s 1 (Record.size α)

/-- A message is read in one piece just if its opcode and its fields can be read. -/
lemma readMessage_ok_iff_readBody : (s.readMessage α).1 = .ok m ↔
    s.readOpcode.1 = .ok (Message.opcode α) ∧ (s.readOpcode.2.readBody α).1 = .ok m := by
  rw [readMessage_ok_iff, readOpcode_ok_iff, readBody_ok_iff, Message.encode]
  rcases hunread : s.unread with _ | ⟨b, rest⟩
  · simp
  · have hone : 1 ≤ s.unread.length := by rw [hunread]; simp
    have hrest : s.readOpcode.2.unread = rest := by
      change (s.take 1).2.unread = rest
      rw [take_enough hone]
      exact (unread_advance s 1).trans (by rw [hunread]; rfl)
    rw [hrest, List.cons_prefix_cons, List.cons_prefix_cons]
    simp

/-! ### Too few bytes -/

/-- What is made of bytes once they are there never looks like their end. -/
lemma bind_take_short_iff {β : Type} {f : Bytes → Except WireError β}
    (hf : ∀ bs, f bs ≠ .error .endOfBytes) :
    ((s.take n).1.bind f, (s.take n).2) = (.error .endOfBytes, s.exhausted) ↔
      s.unread.length < n := by
  constructor
  · intro h
    by_contra hle
    rw [take_enough (Nat.not_lt.1 hle)] at h
    exact hf _ (congrArg Prod.fst h)
  · intro h
    rw [take_short h]
    rfl

lemma readOpcode_short_iff :
    s.readOpcode = (.error .endOfBytes, s.exhausted) ↔ s.unread.length < 1 := by
  have hread : s.readOpcode =
      ((s.take 1).1.bind fun bs => .ok (bs.headD 0), (s.take 1).2) := by
    unfold readOpcode
    rcases s.take 1 with ⟨_ | _, _⟩ <;> rfl
  rw [hread]
  exact bind_take_short_iff fun bs h => by cases h

lemma readBody_short_iff :
    s.readBody α = (.error .endOfBytes, s.exhausted) ↔ s.unread.length < Record.size α := by
  refine bind_take_short_iff (f := Message.decodeBody α) fun bs h => ?_
  rw [Message.decodeBody] at h
  split_ifs at h
  cases h

lemma readMessage_short_iff :
    s.readMessage α = (.error .endOfBytes, s.exhausted) ↔ s.unread.length < Message.size α := by
  refine bind_take_short_iff (f := Message.decode α) fun bs h => ?_
  rcases Message.decode_eq_error_iff.1 h with ⟨-, h⟩ | ⟨b, -, -, h⟩ | ⟨-, -, h⟩ <;> cases h

/-! ## Writing and reading in turns -/

end ByteStream

/-- A message of any kind. -/
abbrev Letter := (k : MessageKind) × k.Content

namespace Letter

/-- The bytes of messages, one behind the other. -/
def spelled (ls : List Letter) : Bytes := ls.flatMap fun l => Message.encode l.2

end Letter

namespace ByteStream

/-- How a message is read: in one piece, or its opcode first and then its fields. -/
inductive Way where
  | whole
  | apart

/-- Reads a message of a kind. If the opcode comes first and is another one, its fields are not
read. -/
def read (s : ByteStream) (k : MessageKind) : Way → Except WireError k.Content × ByteStream
  | .whole => s.readMessage k.Content
  | .apart =>
    match s.readOpcode with
    | (.ok b, s) =>
      if b = k.opcode then s.readBody k.Content else (.error (.unexpectedOpcode k.opcode b), s)
    | (.error e, s) => (.error e, s)

/-- What a stream is used for. -/
inductive Use where
  | write (l : Letter)
  | read (k : MessageKind) (way : Way)

namespace Use

def written? : Use → Option Letter
  | write l => some l
  | read .. => none

def asked? : Use → Option MessageKind
  | write _ => none
  | read k _ => some k

/-- What is written, in order. -/
def written (us : List Use) : List Letter := us.filterMap written?

/-- The kinds that are read, in order. -/
def asked (us : List Use) : List MessageKind := us.filterMap asked?

/-- Each message is written before it is read: at any time the kinds that were asked for are the
first of those that were waiting or have been written. -/
def InTurn (waiting : List Letter) (us : List Use) : Prop :=
  ∀ vs, vs <+: us → asked vs <+: (waiting ++ written vs).map Sigma.fst

variable {ls : List Letter} {us : List Use}

lemma InTurn.of_write {l : Letter} (h : InTurn ls (write l :: us)) : InTurn (ls ++ [l]) us := by
  intro vs hvs
  have hturn := h (write l :: vs) ((List.prefix_cons_inj _).2 hvs)
  rwa [show written (write l :: vs) = [l] ++ written vs from rfl, ← List.append_assoc] at hturn

/-- What is read first is what has waited longest. -/
lemma InTurn.of_read {k : MessageKind} {way : Way} (h : InTurn ls (read k way :: us)) :
    ∃ m ls', ls = ⟨k, m⟩ :: ls' ∧ InTurn ls' us := by
  have hfirst : [k] <+: (ls ++ []).map Sigma.fst := h [read k way] ⟨us, rfl⟩
  rcases ls with _ | ⟨⟨k', m⟩, ls'⟩
  · simp at hfirst
  · obtain ⟨rfl, -⟩ := List.cons_prefix_cons.1 hfirst
    refine ⟨m, ls', rfl, fun vs hvs => ?_⟩
    exact (List.cons_prefix_cons.1 (h (read k way :: vs) ((List.prefix_cons_inj _).2 hvs))).2

end Use

/-- The stream after some uses. -/
def after (s : ByteStream) : List Use → ByteStream
  | [] => s
  | .write l :: us => (s.write l.2).after us
  | .read k way :: us => (s.read k way).2.after us

/-- What the reads among some uses give. -/
def answers (s : ByteStream) : List Use → List (Except WireError Letter)
  | [] => []
  | .write l :: us => (s.write l.2).answers us
  | .read k way :: us => (s.read k way).1.map (⟨k, ·⟩) :: (s.read k way).2.answers us

/-- These messages are still to be read, and nothing else is. -/
structure Holds (s : ByteStream) (ls : List Letter) : Prop where
  within : s.position ≤ s.bytes.length
  unread : s.unread = Letter.spelled ls

variable {s : ByteStream} {ls : List Letter} {l : Letter}

lemma Holds.write (h : s.Holds ls) (l : Letter) : (s.write l.2).Holds (ls ++ [l]) := by
  refine ⟨?_, ?_⟩
  · rw [ByteStream.write, List.length_append]
    exact Nat.le_add_right_of_le h.within
  · rw [ByteStream.unread, ByteStream.write, List.drop_append_of_le_length h.within,
      ← ByteStream.unread, h.unread]
    simp [Letter.spelled]

lemma Holds.advance (h : s.Holds (l :: ls)) : (s.advance (Message.size l.1.Content)).Holds ls := by
  have hspelled : s.unread = Message.encode l.2 ++ Letter.spelled ls := h.unread
  have hlen := congrArg List.length hspelled
  rw [ByteStream.unread, List.length_drop, List.length_append, Message.length_encode] at hlen
  refine ⟨?_, ?_⟩
  · have := h.within
    simp only [ByteStream.advance]
    omega
  · rw [unread_advance, hspelled, ← Message.length_encode l.2, List.drop_left]

/-- The message that has waited longest is read in both ways, and then no longer waits. -/
lemma Holds.read (h : s.Holds (l :: ls)) (way : Way) :
    s.read l.1 way = (.ok l.2, s.advance (Message.size l.1.Content)) := by
  have hfront : Message.encode l.2 <+: s.unread := ⟨Letter.spelled ls, h.unread.symm⟩
  have hvalue := readMessage_ok_iff.2 hfront
  have hstream : (s.readMessage l.1.Content).2 = s.advance (Message.size l.1.Content) := by
    have hlen := hfront.length_le
    rw [Message.length_encode] at hlen
    exact congrArg Prod.snd (take_enough hlen)
  cases way with
  | whole => exact Prod.ext hvalue hstream
  | apart =>
    obtain ⟨hopcode, hbody⟩ := readMessage_ok_iff_readBody.1 hvalue
    have hsplit : s.read l.1 .apart = s.readOpcode.2.readBody l.1.Content := by
      have hpair : s.readOpcode = (.ok l.1.opcode, s.readOpcode.2) :=
        Prod.ext (hopcode.trans (congrArg Except.ok l.1.opcode_content)) rfl
      rw [ByteStream.read, hpair]
      exact if_pos rfl
    rw [hsplit]
    exact Prod.ext hbody ((stream_readBody s).trans hstream)

/-! ### Runs -/

lemma read_bytes (s : ByteStream) (k : MessageKind) (way : Way) :
    (s.read k way).2.bytes = s.bytes := by
  have htake (s : ByteStream) (n : ℕ) : (s.take n).2.bytes = s.bytes := by
    rw [take]
    split_ifs <;> rfl
  cases way with
  | whole => exact htake s _
  | apart =>
    have hopcode : s.readOpcode.2.bytes = s.bytes := htake s 1
    rw [read]
    rcases hread : s.readOpcode with ⟨_ | b, s'⟩ <;> rw [hread] at hopcode
    · exact hopcode
    · dsimp only
      split_ifs
      · exact (htake s' _).trans hopcode
      · exact hopcode

lemma after_bytes (s : ByteStream) (us : List Use) :
    (s.after us).bytes = s.bytes ++ Letter.spelled (Use.written us) := by
  induction us generalizing s with
  | nil => exact (List.append_nil _).symm
  | cons u us ih =>
    cases u with
    | write l => simp [after, ih, ByteStream.write, Use.written, Use.written?, Letter.spelled]
    | read k way =>
      have hwritten : Use.written (.read k way :: us) = Use.written us := rfl
      rw [after, ih, read_bytes, hwritten]

/-- The reads give the messages in the order in which they waited or were written, and those that
were not asked for still wait. -/
lemma answers_of_inTurn {us : List Use} (hs : s.Holds ls) (hus : Use.InTurn ls us) :
    s.answers us = ((ls ++ Use.written us).take (Use.asked us).length).map .ok ∧
      (s.after us).Holds ((ls ++ Use.written us).drop (Use.asked us).length) := by
  induction us generalizing s ls with
  | nil => exact ⟨rfl, by simpa [after, Use.written, Use.asked] using hs⟩
  | cons u us ih =>
    cases u with
    | write l =>
      have hwritten : ls ++ Use.written (.write l :: us) = ls ++ [l] ++ Use.written us := by
        simp [Use.written, Use.written?]
      rw [hwritten]
      exact ih (hs.write l) hus.of_write
    | read k way =>
      obtain ⟨m, ls', rfl, hrest⟩ := hus.of_read
      have hread := hs.read way
      obtain ⟨hanswers, hafter⟩ := ih hs.advance hrest
      simp only [answers, after]
      rw [hread]
      exact ⟨congrArg _ hanswers, hafter⟩

/-- **The stream helpers agree.** A message is read in one piece if and only if its opcode and then
its fields can be read, as the same message, and both ways stop at the same place; a read fails at
the end of the bytes if and only if there are too few of them, and then uses up all of them. At the
end of any stream messages of all kinds may be written, and read in both ways as soon as they are
there: they come out as they went in, and when all of them were read, so were all bytes. -/
theorem streams_agree :
    (∀ (α : Type) [Message α] (s : ByteStream),
      (∀ m, (s.readMessage α).1 = .ok m ↔
        s.readOpcode.1 = .ok (Message.opcode α) ∧ (s.readOpcode.2.readBody α).1 = .ok m) ∧
      (s.readOpcode.2.readBody α).2 = (s.readMessage α).2 ∧
      (s.readOpcode = (.error .endOfBytes, s.exhausted) ↔ s.unread.length < 1) ∧
      (s.readBody α = (.error .endOfBytes, s.exhausted) ↔ s.unread.length < Record.size α) ∧
      (s.readMessage α = (.error .endOfBytes, s.exhausted) ↔
        s.unread.length < Message.size α)) ∧
    ∀ (bs : Bytes) (us : List Use), Use.InTurn [] us →
      let s : ByteStream := ⟨bs, bs.length⟩
      s.answers us = ((Use.written us).take (Use.asked us).length).map .ok ∧
      (s.after us).bytes = bs ++ Letter.spelled (Use.written us) ∧
      (s.after us).unread = Letter.spelled ((Use.written us).drop (Use.asked us).length) ∧
      ((Use.asked us).length = (Use.written us).length →
        s.answers us = (Use.written us).map .ok ∧
        (s.after us).position = (s.after us).bytes.length) := by
  refine ⟨fun α _ s => ⟨fun m => readMessage_ok_iff_readBody, stream_readBody s,
    readOpcode_short_iff, readBody_short_iff, readMessage_short_iff⟩, fun bs us hus => ?_⟩
  have hstart : (⟨bs, bs.length⟩ : ByteStream).Holds [] := ⟨le_rfl, List.drop_length⟩
  obtain ⟨hanswers, hafter⟩ := answers_of_inTurn hstart hus
  rw [List.nil_append] at hanswers hafter
  refine ⟨hanswers, after_bytes _ us, hafter.unread, fun hall => ⟨?_, ?_⟩⟩
  · rw [hanswers, hall, List.take_length]
  · have hempty : ((⟨bs, bs.length⟩ : ByteStream).after us).unread = [] := by
      rw [hafter.unread, hall, List.drop_length]
      rfl
    exact hafter.within.antisymm (List.drop_eq_nil_iff.1 hempty)

/-- Two requests and a ping, of which the first is read before the others are written. -/
theorem streams_agree_on_requests :
    let join : Letter := ⟨.lobby .joinRequest, ⟨9⟩⟩
    let ping : Letter := ⟨.game .ping, ⟨7⟩⟩
    let us : List Use := [.write join, .read (.lobby .joinRequest) .apart, .write ping,
      .write join, .read (.game .ping) .whole, .read (.lobby .joinRequest) .whole]
    Use.InTurn [] us ∧
      (⟨[1, 2], 2⟩ : ByteStream).answers us = [.ok join, .ok ping, .ok join] := by
  intro join ping us
  have hinits : ∀ vs ∈ us.inits, Use.asked vs <+: (Use.written vs).map Sigma.fst := by decide
  have hus : Use.InTurn [] us := fun vs hvs => hinits vs ((List.mem_inits vs us).2 hvs)
  exact ⟨hus, ((streams_agree.2 [1, 2] us hus).2.2.2 rfl).1⟩

end ByteStream

end CoopShooter
