import Mathlib
import CoopShooter.Proofs.Text.Words
import CoopShooter.Server.Command

/-!
The language of the operator. A command is its verb and the numbers that it needs, each spelled by a
word of its own; whatever follows is passed over. Every other line is refused for one of three
reasons: it has no word, its first word is no verb, or a number of its verb is missing.
-/

namespace CoopShooter

namespace Verb

/-- How many numbers a verb needs. -/
def arity : Verb → ℕ
  | roomInfo | deleteRoom => 1
  | kickPlayer => 2
  | help | listRooms | createRoom | exit => 0

lemma ofWord?_word (v : Verb) : ofWord? v.word.toList = some v := by
  cases v <;> decide

lemma ofWord?_eq_some_iff {w : List Char} {v : Verb} :
    ofWord? w = some v ↔ v.word.toList = w := by
  constructor
  · intro h
    simpa using List.find?_some h
  · rintro rfl
    exact ofWord?_word v

lemma ofWord?_eq_none_iff {w : List Char} : ofWord? w = none ↔ ∀ v : Verb, v.word.toList ≠ w := by
  rw [Option.eq_none_iff_forall_ne_some]
  exact forall_congr' fun v => not_congr ofWord?_eq_some_iff

lemma isWord_word (v : Verb) : IsWord v.word.toList := by
  have hprintable : ∀ c ∈ v.word.toList, 0x20 < c.toNat ∧ c.toNat < 0x7f := by
    cases v <;> simp [word]
  exact ⟨by cases v <;> decide, fun c hc => isBlank_of_printable (hprintable c hc)⟩

end Verb

namespace Command

open Numeral (Spells)

/-- The verb of a command. -/
def verb : Command → Verb
  | help => .help
  | listRooms => .listRooms
  | roomInfo _ => .roomInfo
  | createRoom => .createRoom
  | kickPlayer _ _ => .kickPlayer
  | deleteRoom _ => .deleteRoom
  | exit => .exit

/-- The numbers of a command, in the order in which they are written. -/
def numbers : Command → List UInt32
  | roomInfo room => [room]
  | deleteRoom room => [room]
  | kickPlayer room player => [room, player]
  | help | listRooms | createRoom | exit => []

variable {v : Verb} {c : Command} {arguments : List (List Char)}

/-- The numbers of a command stand in front of the words, one in each. -/
def Numbered (c : Command) (arguments : List (List Char)) : Prop :=
  ∃ numerals further, arguments = numerals ++ further ∧
    List.Forall₂ (fun w n => Spells w n.toNat) numerals c.numbers

/-- A verb misses a number: there is no word for it, or one that spells no number, or a number that
is too great. -/
def Misses (v : Verb) (arguments : List (List Char)) : Prop :=
  ∃ i < v.arity, ∀ w, arguments[i]? = some w → ∀ n, Spells w n → UInt32.size ≤ n

/-! ### Numbers behind a verb -/

lemma numbered_bare (h : c.numbers = []) (arguments : List (List Char)) :
    c.Numbered arguments :=
  ⟨[], arguments, rfl, by rw [h]; exact .nil⟩

lemma numbered_one {n : UInt32} (h : c.numbers = [n]) :
    c.Numbered arguments ↔ arguments.head?.bind Numeral.word32? = some n := by
  rw [Numbered, h]
  constructor
  · rintro ⟨_, further, rfl, hn⟩
    obtain ⟨w, _, hw, hnil, rfl⟩ := List.forall₂_cons_right_iff.1 hn
    exact Numeral.word32?_eq_some_iff.2 hw
  · intro hn
    obtain ⟨w, hhead, hw⟩ := Option.bind_eq_some_iff.1 hn
    obtain ⟨further, rfl⟩ := List.head?_eq_some_iff.1 hhead
    exact ⟨[w], further, rfl, .cons (Numeral.word32?_eq_some_iff.1 hw) .nil⟩

lemma numbered_two {m n : UInt32} (h : c.numbers = [m, n]) :
    c.Numbered arguments ↔ ∃ w w' further, arguments = w :: w' :: further ∧
      Numeral.word32? w = some m ∧ Numeral.word32? w' = some n := by
  simp only [Numeral.word32?_eq_some_iff]
  rw [Numbered, h]
  constructor
  · rintro ⟨_, further, rfl, hn⟩
    obtain ⟨w, _, hw, hrest, rfl⟩ := List.forall₂_cons_right_iff.1 hn
    obtain ⟨w', _, hw', hnil, rfl⟩ := List.forall₂_cons_right_iff.1 hrest
    cases hnil
    exact ⟨w, w', further, rfl, hw, hw'⟩
  · rintro ⟨w, w', further, rfl, hw, hw'⟩
    exact ⟨[w, w'], further, rfl, .cons hw (.cons hw' .nil)⟩

/-- What a verb makes of the words behind it. -/
lemma complete?_eq_some_iff :
    complete? v arguments = some c ↔ c.verb = v ∧ c.Numbered arguments := by
  constructor
  · intro h
    cases v with
    | help | listRooms | createRoom | exit =>
      cases h
      exact ⟨rfl, numbered_bare rfl _⟩
    | roomInfo | deleteRoom =>
      obtain ⟨room, hroom, rfl⟩ := Option.map_eq_some_iff.1 h
      exact ⟨rfl, (numbered_one rfl).2 hroom⟩
    | kickPlayer =>
      rcases arguments with _ | ⟨w, _ | ⟨w', further⟩⟩
      · cases h
      · cases h
      obtain ⟨room, hroom, h⟩ := Option.bind_eq_some_iff.1 h
      obtain ⟨player, hplayer, h⟩ := Option.bind_eq_some_iff.1 h
      cases h
      exact ⟨rfl, (numbered_two rfl).2 ⟨w, w', further, rfl, hroom, hplayer⟩⟩
  · rintro ⟨rfl, h⟩
    cases c with
    | help | listRooms | createRoom | exit => rfl
    | roomInfo room | deleteRoom room =>
      exact Option.map_eq_some_iff.2 ⟨room, (numbered_one rfl).1 h, rfl⟩
    | kickPlayer room player =>
      obtain ⟨w, w', further, rfl, hroom, hplayer⟩ := (numbered_two rfl).1 h
      simp [verb, complete?, hroom, hplayer]

lemma misses_iff : Misses v arguments ↔
    ∃ i < v.arity, arguments[i]?.bind Numeral.word32? = none := by
  simp only [Misses, Option.bind_eq_none_iff, Numeral.word32?_eq_none_iff]

lemma complete?_eq_none_iff : complete? v arguments = none ↔ Misses v arguments := by
  rw [misses_iff]
  cases v with
  | help | listRooms | createRoom | exit => simp [complete?, Verb.arity]
  | roomInfo | deleteRoom =>
    simp [complete?, Verb.arity, List.head?_eq_getElem?]
  | kickPlayer =>
    rw [Verb.arity, Nat.exists_lt_succ_right, Nat.exists_lt_succ_right]
    rcases arguments with _ | ⟨w, _ | ⟨w', further⟩⟩
    · simp [complete?]
    · simp [complete?]
    · cases hw : Numeral.word32? w <;> cases hw' : Numeral.word32? w' <;>
        simp [complete?, hw, hw']

/-! ### Lines -/

variable {line : String}

lemma parse_nil (h : parts line.toList = []) : parse line = .error .empty := by
  rw [parse, words_eq_parts, h]

lemma parse_cons {w : List Char} (h : parts line.toList = w :: arguments) :
    parse line = (Verb.ofWord? w).elim (.error (.unknown (String.ofList w))) fun v =>
      (complete? v arguments).elim (.error (.usage v)) .ok := by
  rw [parse, words_eq_parts, h]
  dsimp only
  rcases Verb.ofWord? w with _ | v
  · rfl
  · dsimp only [Option.elim_some]
    cases complete? v arguments <;> rfl

/-- The words of a line, and which of the four answers they get. -/
inductive Reading (line : String) : Prop where
  | nothing (parts : parts line.toList = []) (answer : parse line = .error .empty)
  | strange (w : List Char) (further : List (List Char)) (parts : parts line.toList = w :: further)
    (verb : Verb.ofWord? w = none) (answer : parse line = .error (.unknown (String.ofList w)))
  | short (v : Verb) (arguments : List (List Char))
    (parts : parts line.toList = v.word.toList :: arguments) (misses : complete? v arguments = none)
    (answer : parse line = .error (.usage v))
  | whole (c : Command) (arguments : List (List Char))
    (parts : parts line.toList = c.verb.word.toList :: arguments) (numbers : c.Numbered arguments)
    (answer : parse line = .ok c)

lemma reading (line : String) : Reading line := by
  rcases hparts : parts line.toList with _ | ⟨w, arguments⟩
  · exact .nothing hparts (parse_nil hparts)
  have hparse := parse_cons hparts
  rcases hw : Verb.ofWord? w with _ | v <;> rw [hw] at hparse
  · exact .strange w arguments hparts hw hparse
  obtain rfl := Verb.ofWord?_eq_some_iff.1 hw
  rcases hc : complete? v arguments with _ | c <;> rw [Option.elim_some, hc] at hparse
  · exact .short v arguments hparts hc hparse
  · obtain ⟨rfl, hnumbers⟩ := complete?_eq_some_iff.1 hc
    exact .whole c arguments hparts hnumbers hparse

lemma parse_eq_ok_iff : parse line = .ok c ↔
    ∃ arguments, parts line.toList = c.verb.word.toList :: arguments ∧ c.Numbered arguments := by
  constructor
  · intro h
    cases reading line with
    | whole c' arguments hparts hnumbers hanswer =>
      obtain rfl := Except.ok.inj (hanswer.symm.trans h)
      exact ⟨arguments, hparts, hnumbers⟩
    | nothing _ hanswer | strange _ _ _ _ hanswer | short _ _ _ _ hanswer =>
      cases hanswer.symm.trans h
  · rintro ⟨arguments, hparts, hnumbers⟩
    rw [parse_cons hparts, Verb.ofWord?_word, Option.elim_some,
      complete?_eq_some_iff.2 ⟨rfl, hnumbers⟩, Option.elim_some]

lemma parse_eq_usage_iff : parse line = .error (.usage v) ↔
    ∃ arguments, parts line.toList = v.word.toList :: arguments ∧ Misses v arguments := by
  constructor
  · intro h
    cases reading line with
    | short v' arguments hparts hmisses hanswer =>
      cases hanswer.symm.trans h
      exact ⟨arguments, hparts, complete?_eq_none_iff.1 hmisses⟩
    | nothing _ hanswer | strange _ _ _ _ hanswer | whole _ _ _ _ hanswer =>
      cases hanswer.symm.trans h
  · rintro ⟨arguments, hparts, hmisses⟩
    rw [parse_cons hparts, Verb.ofWord?_word, Option.elim_some,
      complete?_eq_none_iff.2 hmisses, Option.elim_none]

lemma parse_eq_unknown_iff {w : String} : parse line = .error (.unknown w) ↔
    ∃ further, parts line.toList = w.toList :: further ∧ ∀ v : Verb, v.word ≠ w := by
  have hverb : (∀ v : Verb, v.word ≠ w) ↔ Verb.ofWord? w.toList = none := by
    rw [Verb.ofWord?_eq_none_iff]
    exact forall_congr' fun v => not_congr String.toList_inj.symm
  rw [hverb]
  constructor
  · intro h
    cases reading line with
    | strange w' further hparts hstrange hanswer =>
      cases hanswer.symm.trans h
      rw [String.toList_ofList]
      exact ⟨further, hparts, hstrange⟩
    | nothing _ hanswer | short _ _ _ _ hanswer | whole _ _ _ _ hanswer =>
      cases hanswer.symm.trans h
  · rintro ⟨further, hparts, hstrange⟩
    rw [parse_cons hparts, hstrange, Option.elim_none, String.ofList_toList]

lemma parse_eq_empty_iff : parse line = .error .empty ↔ parts line.toList = [] := by
  refine ⟨fun h => ?_, parse_nil⟩
  cases reading line with
  | nothing hparts _ => exact hparts
  | strange _ _ _ _ hanswer | short _ _ _ _ hanswer | whole _ _ _ _ hanswer =>
    cases hanswer.symm.trans h

/-! ### Commands as they are written -/

lemma toList_render (c : Command) : c.render.toList =
    c.verb.word.toList ++ (c.numbers.map fun n => Nat.toDigits 10 n.toNat).flatMap (' ' :: ·) := by
  have hnumber (n : UInt32) : (toString n).toList = Nat.toDigits 10 n.toNat := by
    rw [show toString n = toString n.toNat from rfl, Nat.toString_eq_ofList_toDigits,
      String.toList_ofList]
  have htext (s : String) : toString s = s := rfl
  cases c <;> simp [render, verb, numbers, hnumber, htext]

lemma parts_render (c : Command) : parts c.render.toList =
    c.verb.word.toList :: c.numbers.map fun n => Nat.toDigits 10 n.toNat := by
  rw [← words_eq_parts, toList_render, words_spaced c.verb.isWord_word]
  simp only [List.forall_mem_map]
  exact fun n _ => Numeral.isWord_toDigits n.toNat

lemma numbered_written (c : Command) :
    c.Numbered (c.numbers.map fun n => Nat.toDigits 10 n.toNat) := by
  refine ⟨_, [], (List.append_nil _).symm, ?_⟩
  rw [List.forall₂_map_left_iff, List.forall₂_same]
  exact fun n _ => Numeral.spells_toDigits n.toNat

/-- **Exactly the language of the operator is understood.** A line is a command if and only if its
first word is the verb and the next ones spell the numbers; it is refused with the form of a verb if
and only if it begins with the verb and misses a number, with its first word if and only if that is
no verb, and as empty if and only if it has no word. So every command is understood as it is
written. -/
theorem lines_follow_grammar (line : String) :
    (∀ c, parse line = .ok c ↔ ∃ arguments,
      parts line.toList = c.verb.word.toList :: arguments ∧ c.Numbered arguments) ∧
    (∀ v, parse line = .error (.usage v) ↔ ∃ arguments,
      parts line.toList = v.word.toList :: arguments ∧ Misses v arguments) ∧
    (∀ w, parse line = .error (.unknown w) ↔ ∃ further,
      parts line.toList = w.toList :: further ∧ ∀ v : Verb, v.word ≠ w) ∧
    (parse line = .error .empty ↔ parts line.toList = []) ∧
    ∀ c : Command, parse c.render = .ok c := by
  refine ⟨fun c => parse_eq_ok_iff, fun v => parse_eq_usage_iff, fun w => parse_eq_unknown_iff,
    parse_eq_empty_iff, fun c => parse_eq_ok_iff.2 ?_⟩
  exact ⟨_, parts_render c, numbered_written c⟩

end Command

end CoopShooter
