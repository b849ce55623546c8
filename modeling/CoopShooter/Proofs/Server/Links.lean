import Mathlib
import CoopShooter.Server.Basic

/-!
The streams of a server, said by look-ups. A stream keeps its place, whatever is opened behind it.
-/

namespace CoopShooter.Links

variable {ls : Links} {link : ℕ}

lemma ext_find? {ls' : Links} (h : ∀ k, ls.find? k = ls'.find? k) : ls = ls' := by
  obtain ⟨all⟩ := ls
  obtain ⟨all'⟩ := ls'
  exact congrArg Links.mk (List.ext_getElem? h)

lemma find?_modify (ls : Links) (link : ℕ) (f : Link → Link) (k : ℕ) :
    (ls.modify link f).find? k = if k = link then (ls.find? k).map f else ls.find? k := by
  rw [find?, find?, modify, List.getElem?_modify]
  by_cases hk : k = link
  · subst hk
    simp
  · rw [if_neg hk]
    simp [Ne.symm hk]

lemma find?_add (ls : Links) (l : Link) (k : ℕ) :
    (ls.add l).find? k = if k = ls.next then some l else ls.find? k := by
  rw [find?, find?, add, next, List.getElem?_append]
  rcases Nat.lt_trichotomy k ls.all.length with hlt | heq | hgt
  · rw [if_pos hlt, if_neg hlt.ne]
  · simp [heq]
  · rw [if_neg hgt.not_gt, if_neg hgt.ne', List.getElem?_eq_none hgt.le]
    simp only [List.getElem?_eq_none_iff, List.length_singleton]
    omega

/-- Nothing is at the place of the next stream. -/
@[simp] lemma find?_next (ls : Links) : ls.find? ls.next = none := by
  simp [find?, next]

@[simp] lemma next_modify (ls : Links) (link : ℕ) (f : Link → Link) :
    (ls.modify link f).next = ls.next := by
  simp [next, modify]

@[simp] lemma next_add (ls : Links) (l : Link) : (ls.add l).next = ls.next + 1 := by
  simp [next, add]

lemma lt_next (h : ls.find? link ≠ none) : link < ls.next := by
  rw [find?, ne_eq, List.getElem?_eq_none_iff] at h
  exact Nat.lt_of_not_le h

lemma modify_modify (ls : Links) (link : ℕ) (f g : Link → Link) :
    (ls.modify link f).modify link g = ls.modify link fun l => g (f l) := by
  refine ext_find? fun k => ?_
  rw [find?_modify, find?_modify, find?_modify]
  split_ifs
  · rw [Option.map_map]
    rfl
  · rfl

/-- Changes that do not get in each other's way, on one stream or on two. -/
lemma modify_comm {f g : Link → Link} (h : ∀ l, f (g l) = g (f l)) (ls : Links) (i j : ℕ) :
    (ls.modify i f).modify j g = (ls.modify j g).modify i f := by
  refine ext_find? fun k => ?_
  rw [find?_modify, find?_modify, find?_modify, find?_modify]
  split_ifs
  · rw [Option.map_map, Option.map_map]
    exact congrArg (Option.map · _) (funext fun l => (h l).symm)
  all_goals rfl

lemma modify_eq_self {f : Link → Link} (h : ∀ l, ls.find? link = some l → f l = l) :
    ls.modify link f = ls := by
  refine ext_find? fun k => ?_
  rw [find?_modify]
  split_ifs with hk
  · subst hk
    rcases hl : ls.find? k with _ | l
    · rfl
    · rw [Option.map_some, h l hl]
  · rfl

end CoopShooter.Links
