import Mathlib
import CoopShooter.Proofs.Room.Collisions

/-!
Who strikes whom. Projectiles and enemies are matched greedily in the order of their numbers: each
is struck once at most, and no two that are left could strike each other. Then each ship is struck
by one more enemy at most, and a ship that is spared overlaps no enemy that is left.
-/

namespace CoopShooter

lemma Rect.overlaps_comm (a b : Rect) : a.overlaps b = b.overlaps a := by
  unfold overlaps
  congr 1
  rw [Bool.or_comm (decide (a.right ≤ b.x)), Bool.or_assoc, Bool.or_comm (decide (a.bottom ≤ b.y)),
    ← Bool.or_assoc]

namespace Collision

variable {es es' : IdMap Entity} {xs : List (UInt32 × Entity)} {gone : List UInt32}
  {a b e : Entity} {i j id k : UInt32} {p : Player} {ps : List Player}

/-! ## Pairs -/

/-- A projectile overlaps an enemy. -/
structure Clash (a b : Entity) : Prop where
  projectile : a.kind.isProjectile = true
  enemy : b.kind.isEnemy = true
  overlap : a.box.overlaps b.box = true

lemma meet_iff : meet a b = true ↔ Clash a b ∨ Clash b a := by
  simp only [meet, EntityKind.opposes, Bool.and_eq_true, Bool.or_eq_true]
  constructor
  · rintro ⟨⟨hshot, henemy⟩ | ⟨henemy, hshot⟩, hbox⟩
    · exact .inl ⟨hshot, henemy, hbox⟩
    · exact .inr ⟨hshot, henemy, Rect.overlaps_comm a.box b.box ▸ hbox⟩
  · rintro (⟨hshot, henemy, hbox⟩ | ⟨hshot, henemy, hbox⟩)
    · exact ⟨.inl ⟨hshot, henemy⟩, hbox⟩
    · exact ⟨.inr ⟨henemy, hshot⟩, Rect.overlaps_comm b.box a.box ▸ hbox⟩

lemma meet_comm (a b : Entity) : meet a b = meet b a := by
  rw [Bool.eq_iff_iff, meet_iff, meet_iff, or_comm]

/-- Nothing is on both sides. -/
lemma not_meet_self (a : Entity) : meet a a = false := by
  rcases a with ⟨kind, _, _, _, _, _, _⟩
  cases kind <;> rfl

/-- The first entity that `a` strikes, of those neither struck before nor named in `gone`. -/
def target? (a : Entity) (gone : List UInt32) (es : List (UInt32 × Entity)) :
    Option (UInt32 × Entity) :=
  es.find? fun e => meet a e.2 && !flagged gone e

/-- The pairs that strike each other, given the numbers of those already gone. -/
def pairs (gone : List UInt32) : List (UInt32 × Entity) → List (UInt32 × UInt32)
  | [] => []
  | (id, e) :: es =>
    if flagged gone (id, e) then pairs gone es
    else
      match target? e gone es with
      | none => pairs gone es
      | some (other, _) => (id, other) :: pairs (gone ++ [id, other]) es

/-- The numbers in pairs. -/
def members (ps : List (UInt32 × UInt32)) : List UInt32 :=
  ps.flatMap fun p => [p.1, p.2]

/-- An entity that can still be struck, given the numbers of those already gone. -/
structure Standing (gone : List UInt32) (x : UInt32 × Entity) : Prop where
  unstruck : x.2.struck = false
  present : x.1 ∉ gone

lemma standing_iff {x : UInt32 × Entity} : Standing gone x ↔ flagged gone x = false := by
  rw [flagged, Bool.or_eq_false_iff, List.contains_eq_mem, decide_eq_false_iff_not]
  exact ⟨fun h => ⟨h.unstruck, h.present⟩, fun h => ⟨h.1, h.2⟩⟩

lemma target?_some {x : UInt32 × Entity} (h : target? a gone xs = some x) :
    x ∈ xs ∧ meet a x.2 = true ∧ Standing gone x := by
  have hx := List.find?_some h
  rw [Bool.and_eq_true, Bool.not_eq_true'] at hx
  exact ⟨List.mem_of_find?_eq_some h, hx.1, standing_iff.2 hx.2⟩

lemma target?_none (h : target? a gone xs = none) {x : UInt32 × Entity} (hx : x ∈ xs)
    (hs : Standing gone x) : meet a x.2 = false := by
  have hnone := List.find?_eq_none.1 h x hx
  simpa [standing_iff.1 hs] using hnone

/-- Those with smaller numbers than the one that is taken could not be taken. -/
lemma target?_first (hsorted : xs.Pairwise fun x y => x.1 < y.1) {x y : UInt32 × Entity}
    (h : target? a gone xs = some x) (hy : y ∈ xs) (hlt : y.1 < x.1) (hs : Standing gone y) :
    meet a y.2 = false := by
  obtain ⟨-, before, later, rfl, hbefore⟩ := List.find?_eq_some_iff_append.1 h
  have habove : ∀ z ∈ x :: later, ¬ z.1 < x.1 := by
    have htail := (List.pairwise_append.1 hsorted).2.1
    intro z hz
    rcases List.mem_cons.1 hz with rfl | hz
    · exact UInt32.lt_irrefl _
    · exact UInt32.lt_asymm ((List.pairwise_cons.1 htail).1 z hz)
  rcases List.mem_append.1 hy with hy | hy
  · simpa [standing_iff.1 hs] using hbefore y hy
  · exact absurd hlt (habove y hy)

/-- The first entity is passed over, or it takes the first one that it can. -/
lemma pairs_cases (gone : List UInt32) (id : UInt32) (e : Entity) (xs : List (UInt32 × Entity)) :
    (pairs gone ((id, e) :: xs) = pairs gone xs ∧
        (Standing gone (id, e) → target? e gone xs = none)) ∨
      Standing gone (id, e) ∧ ∃ x, target? e gone xs = some x ∧
        pairs gone ((id, e) :: xs) = (id, x.1) :: pairs (gone ++ [id, x.1]) xs := by
  rw [pairs]
  rcases hs : flagged gone (id, e) with _ | _
  · rw [if_neg Bool.false_ne_true]
    rcases target? e gone xs with _ | x
    · exact .inl ⟨rfl, fun _ => rfl⟩
    · exact .inr ⟨standing_iff.2 hs, x, rfl, rfl⟩
  · rw [if_pos rfl]
    exact .inl ⟨rfl, fun h => nomatch hs.symm.trans (standing_iff.1 h)⟩

/-- Both of a pair could be struck, and they meet. -/
lemma mem_pairs (h : (i, j) ∈ pairs gone xs) :
    ∃ a b, (i, a) ∈ xs ∧ (j, b) ∈ xs ∧ Standing gone (i, a) ∧ Standing gone (j, b) ∧
      meet a b = true := by
  induction xs generalizing gone with
  | nil => cases h
  | cons x xs ih =>
    obtain ⟨id, e⟩ := x
    rcases pairs_cases gone id e xs with ⟨hpairs, -⟩ | ⟨hs, ⟨other, b⟩, ht, hpairs⟩
    · rw [hpairs] at h
      obtain ⟨a, b, ha, hb, hrest⟩ := ih h
      exact ⟨a, b, .tail _ ha, .tail _ hb, hrest⟩
    · rw [hpairs] at h
      rcases List.mem_cons.1 h with heq | h
      · cases heq
        obtain ⟨hb, hmeet, hsb⟩ := target?_some ht
        exact ⟨e, b, .head _, .tail _ hb, hs, hsb, hmeet⟩
      · obtain ⟨a, b, ha, hb, hsa, hsb, hmeet⟩ := ih h
        have hless {x : UInt32 × Entity} (hx : Standing (gone ++ [id, other]) x) :
            Standing gone x :=
          ⟨hx.unstruck, fun hin => hx.present (List.mem_append_left _ hin)⟩
        exact ⟨a, b, .tail _ ha, .tail _ hb, hless hsa, hless hsb, hmeet⟩

lemma mem_members_pairs (h : k ∈ members (pairs gone xs)) :
    ∃ e, (k, e) ∈ xs ∧ Standing gone (k, e) := by
  obtain ⟨⟨i, j⟩, hp, hk⟩ := List.mem_flatMap.1 h
  obtain ⟨a, b, ha, hb, hsa, hsb, -⟩ := mem_pairs hp
  rcases List.mem_cons.1 hk with rfl | hk
  · exact ⟨a, ha, hsa⟩
  · obtain rfl := List.mem_singleton.1 hk
    exact ⟨b, hb, hsb⟩

/-- No entity is struck twice. -/
lemma nodup_members_pairs (hsorted : xs.Pairwise fun x y => x.1 < y.1) (gone : List UInt32) :
    (members (pairs gone xs)).Nodup := by
  induction xs generalizing gone with
  | nil => exact List.nodup_nil
  | cons x xs ih =>
    obtain ⟨id, e⟩ := x
    obtain ⟨hbelow, hsorted⟩ := List.pairwise_cons.1 hsorted
    rcases pairs_cases gone id e xs with ⟨hpairs, -⟩ | ⟨-, ⟨other, b⟩, ht, hpairs⟩
    · rw [hpairs]
      exact ih hsorted gone
    · have hne : id ≠ other := UInt32.ne_of_lt (hbelow _ (target?_some ht).1)
      have hout : ∀ k ∈ members (pairs (gone ++ [id, other]) xs), k ≠ id ∧ k ≠ other := by
        intro k hk
        obtain ⟨e, -, hs⟩ := mem_members_pairs hk
        have hk := hs.present
        simp only [List.mem_append, List.mem_cons, List.not_mem_nil, or_false, not_or] at hk
        exact hk.2
      rw [hpairs]
      change (id :: other :: members (pairs (gone ++ [id, other]) xs)).Nodup
      refine List.nodup_cons.2 ⟨fun hid => ?_, List.nodup_cons.2 ⟨fun hother => ?_,
        ih hsorted _⟩⟩
      · rcases List.mem_cons.1 hid with hid | hid
        · exact hne hid
        · exact (hout id hid).1 rfl
      · exact (hout other hother).2 rfl

lemma lt_of_mem_pairs (hsorted : xs.Pairwise fun x y => x.1 < y.1) (h : (i, j) ∈ pairs gone xs) :
    i < j := by
  induction xs generalizing gone with
  | nil => cases h
  | cons x xs ih =>
    obtain ⟨id, e⟩ := x
    obtain ⟨hbelow, hsorted⟩ := List.pairwise_cons.1 hsorted
    rcases pairs_cases gone id e xs with ⟨hpairs, -⟩ | ⟨-, x, ht, hpairs⟩ <;> rw [hpairs] at h
    · exact ih hsorted h
    · rcases List.mem_cons.1 h with heq | h
      · cases heq
        exact hbelow x (target?_some ht).1
      · exact ih hsorted h

/-- The first of a pair takes the first one behind it that it can: whatever it could strike in
between has been taken by one before it. -/
lemma pairs_greedy (hsorted : xs.Pairwise fun x y => x.1 < y.1) (h : (i, j) ∈ pairs gone xs)
    (ha : (i, a) ∈ xs) (he : (k, e) ∈ xs) (hik : i < k) (hkj : k < j) (hs : Standing gone (k, e))
    (hmeet : meet a e = true) : ∃ i', i' < i ∧ (i', k) ∈ pairs gone xs := by
  induction xs generalizing gone with
  | nil => cases h
  | cons x xs ih =>
    obtain ⟨id, d⟩ := x
    obtain ⟨hbelow, hsorted'⟩ := List.pairwise_cons.1 hsorted
    have hback {n : UInt32} {c : Entity} (hc : (n, c) ∈ (id, d) :: xs) (hn : n ≠ id) :
        (n, c) ∈ xs :=
      (List.mem_cons.1 hc).resolve_left fun heq => hn (congrArg Prod.fst heq)
    have hfurther (hi : id < i) : (i, a) ∈ xs ∧ (k, e) ∈ xs ∧ k ≠ id :=
      have hk : k ≠ id := (UInt32.ne_of_lt (UInt32.lt_trans hi hik)).symm
      ⟨hback ha (UInt32.ne_of_lt hi).symm, hback he hk, hk⟩
    rcases pairs_cases gone id d xs with ⟨hpairs, -⟩ | ⟨-, x, ht, hpairs⟩
    · rw [hpairs] at h ⊢
      obtain ⟨a', -, ha', -⟩ := mem_pairs h
      obtain ⟨ha, he, -⟩ := hfurther (hbelow _ ha')
      exact ih hsorted' h ha he hs
    · rw [hpairs] at h ⊢
      rcases List.mem_cons.1 h with heq | h
      · cases heq
        have hd : a = d := by
          rcases List.mem_cons.1 ha with heq | ha
          · exact congrArg Prod.snd heq
          · exact absurd (hbelow _ ha) (UInt32.lt_irrefl _)
        have hfirst := target?_first hsorted' ht (hback he (UInt32.ne_of_lt hik).symm) hkj hs
        rw [← hd, hmeet] at hfirst
        cases hfirst
      · obtain ⟨a', -, ha', -⟩ := mem_pairs h
        obtain ⟨ha, he, hk⟩ := hfurther (hbelow _ ha')
        by_cases hother : k = x.1
        · exact ⟨id, hbelow _ ha, hother ▸ .head _⟩
        · have hs' : Standing (gone ++ [id, x.1]) (k, e) :=
            ⟨hs.unstruck, by simpa [hk, hother] using hs.present⟩
          obtain ⟨i', hi', hp⟩ := ih hsorted' h ha he hs'
          exact ⟨i', hi', .tail _ hp⟩

/-- No two that are left could strike each other. -/
lemma pairs_maximal {x y : UInt32 × Entity} (hx : x ∈ xs) (hy : y ∈ xs)
    (hsx : Standing (gone ++ members (pairs gone xs)) x)
    (hsy : Standing (gone ++ members (pairs gone xs)) y) : meet x.2 y.2 = false := by
  induction xs generalizing gone with
  | nil => cases hx
  | cons head xs ih =>
    obtain ⟨id, e⟩ := head
    rcases pairs_cases gone id e xs with ⟨hpairs, hnone⟩ | ⟨-, ⟨other, b⟩, -, hpairs⟩
    · rw [hpairs] at hsx hsy
      have hless {x : UInt32 × Entity} (hs : Standing (gone ++ members (pairs gone xs)) x) :
          Standing gone x :=
        ⟨hs.unstruck, fun hin => hs.present (List.mem_append_left _ hin)⟩
      rcases List.mem_cons.1 hx with rfl | hx <;> rcases List.mem_cons.1 hy with rfl | hy
      · exact not_meet_self e
      · exact target?_none (hnone (hless hsx)) hy (hless hsy)
      · rw [meet_comm]
        exact target?_none (hnone (hless hsy)) hx (hless hsx)
      · exact ih hx hy hsx hsy
    · -- the first entity has struck another one, so that both are further back
      have hgone : ∀ k, k ∈ gone ++ members (pairs gone ((id, e) :: xs)) ↔
          k ∈ (gone ++ [id, other]) ++ members (pairs (gone ++ [id, other]) xs) := by
        intro k
        rw [hpairs, List.append_assoc]
        rfl
      have hback {x : UInt32 × Entity} (hx : x ∈ (id, e) :: xs)
          (hs : Standing (gone ++ members (pairs gone ((id, e) :: xs))) x) : x ∈ xs ∧
          Standing ((gone ++ [id, other]) ++ members (pairs (gone ++ [id, other]) xs)) x := by
        refine ⟨(List.mem_cons.1 hx).resolve_left ?_, hs.unstruck,
          fun hin => hs.present ((hgone x.1).2 hin)⟩
        rintro rfl
        exact hs.present ((hgone id).2 (by simp))
      obtain ⟨hx, hsx⟩ := hback hx hsx
      obtain ⟨hy, hsy⟩ := hback hy hsy
      exact ih hx hy hsx hsy

/-! ## The loop -/

/-- Nothing comes of an entity that is flagged. -/
lemma foldl_confront_flagged {x : UInt32 × Entity} (hx : flagged gone x = true) :
    xs.foldl (confront x) gone = gone := by
  induction xs with
  | nil => rfl
  | cons y xs ih =>
    have hpassed : confront x gone y = gone := by rw [confront, hx, Bool.true_or, if_pos rfl]
    rw [List.foldl_cons, hpassed, ih]

/-- One that is not takes the first one behind it that it can, and is flagged from then on. -/
lemma foldl_confront {x : UInt32 × Entity} (hx : flagged gone x = false) :
    xs.foldl (confront x) gone = (target? x.2 gone xs).elim gone fun y => gone ++ [x.1, y.1] := by
  induction xs with
  | nil => rfl
  | cons y xs ih =>
    rw [List.foldl_cons, target?, List.find?_cons]
    rcases hy : flagged gone y with _ | _
    · rcases hmeet : meet x.2 y.2 with _ | _
      · have hpassed : confront x gone y = gone := by simp [confront, hx, hy, hmeet]
        rw [hpassed, ih]
        rfl
      · have hstruck : confront x gone y = gone ++ [x.1, y.1] := by
          simp [confront, hx, hy, hmeet]
        rw [hstruck, foldl_confront_flagged (by simp [flagged])]
        rfl
    · have hpassed : confront x gone y = gone := by simp [confront, hy]
      rw [hpassed, ih, Bool.not_true, Bool.and_false]
      rfl

/-- **The loop strikes the pairs**, in their order. -/
lemma clash_eq (xs : List (UInt32 × Entity)) (gone : List UInt32) :
    clash xs gone = gone ++ members (pairs gone xs) := by
  induction xs generalizing gone with
  | nil => exact (List.append_nil gone).symm
  | cons x xs ih =>
    obtain ⟨id, e⟩ := x
    rw [clash, ih, pairs]
    rcases hs : flagged gone (id, e) with _ | _
    · rw [foldl_confront hs, if_neg Bool.false_ne_true]
      rcases target? e gone xs with _ | ⟨other, b⟩
      · rfl
      · simp only [Option.elim_some, List.append_assoc]
        rfl
    · rw [foldl_confront_flagged hs, if_pos rfl]

/-! ## Marks -/

lemma find?_strike (es : IdMap Entity) (ids : List UInt32) (k : UInt32) :
    (strike es ids).find? k =
      (es.find? k).map fun e => { e with struck := e.struck || ids.contains k } := by
  rw [strike, IdMap.find?_map]
  refine congrArg (Option.map · (es.find? k)) (funext fun e => ?_)
  rcases hk : ids.contains k with _ | _ <;> simp

lemma strike_strike (es : IdMap Entity) (is js : List UInt32) :
    strike (strike es is) js = strike es (is ++ js) := by
  refine IdMap.ext_find? fun k => ?_
  rw [find?_strike, find?_strike, find?_strike, Option.map_map]
  refine congrArg (Option.map · (es.find? k)) (funext fun e => ?_)
  simp [Bool.or_assoc]

lemma strike_nil (es : IdMap Entity) : strike es [] = es := by
  refine IdMap.ext_find? fun k => ?_
  rw [find?_strike]
  simp

/-- What is left unstruck was there as it is. -/
lemma Marked.find?_unstruck (h : Marked es es') (he : es'.find? k = some e)
    (hfresh : e.struck = false) : es.find? k = some e := by
  have hk := h k
  rw [he] at hk
  generalize es.find? k = x at hk
  cases hk with
  | some hmark =>
    rcases hmark with rfl | rfl
    · rfl
    · cases hfresh

/-! ## Ships -/

/-- The enemy that strikes each of the players. -/
def hits : List Player → IdMap Entity → List (Option UInt32)
  | [], _ => []
  | p :: ps, es =>
    match contact? p es with
    | none => none :: hits ps es
    | some enemy => some enemy :: hits ps (strike es [enemy])

lemma length_hits (ps : List Player) (es : IdMap Entity) : (hits ps es).length = ps.length := by
  induction ps generalizing es with
  | nil => rfl
  | cons p ps ih =>
    unfold hits
    rcases contact? p es with _ | enemy
    · exact congrArg Nat.succ (ih es)
    · exact congrArg Nat.succ (ih _)

lemma length_contacts (ps : List Player) (es : IdMap Entity) :
    (contacts ps es).1.length = ps.length :=
  (Room.respawned_contacts ps es).length_eq.symm

lemma contacts_entities (ps : List Player) (es : IdMap Entity) :
    (contacts ps es).2 = strike es (hits ps es).reduceOption := by
  induction ps generalizing es with
  | nil => exact (strike_nil es).symm
  | cons p ps ih =>
    unfold contacts hits
    rcases contact? p es with _ | enemy
    · exact ih es
    · exact (ih _).trans (strike_strike es [enemy] _)

lemma contact?_some (h : contact? p es = some id) :
    ∃ e, es.find? id = some e ∧ e.struck = false ∧ e.kind.isEnemy = true ∧
      p.box.overlaps e.box = true := by
  obtain ⟨⟨k, e⟩, hfound, rfl⟩ := Option.map_eq_some_iff.1 h
  have he := List.find?_some hfound
  simp only [Bool.and_eq_true, Bool.not_eq_true'] at he
  exact ⟨e, IdMap.mem_entries_iff.1 (List.mem_of_find?_eq_some hfound), he.1.2, he.1.1, he.2⟩

lemma contact?_none (h : contact? p es = none) (he : es.find? id = some e)
    (hfresh : e.struck = false) (henemy : e.kind.isEnemy = true) :
    p.box.overlaps e.box = false := by
  have hnone := List.find?_eq_none.1 (Option.map_eq_none_iff.1 h) (id, e)
    (IdMap.mem_entries_iff.2 he)
  simpa [hfresh, henemy] using hnone

/-- The enemies that strike ships are different ones, and none was struck before. -/
lemma nodup_hits (ps : List Player) (es : IdMap Entity) :
    (hits ps es).reduceOption.Nodup ∧
      ∀ k ∈ (hits ps es).reduceOption, ∃ e, es.find? k = some e ∧ e.struck = false := by
  induction ps generalizing es with
  | nil => exact ⟨List.nodup_nil, fun k hk => nomatch hk⟩
  | cons p ps ih =>
    unfold hits
    rcases hc : contact? p es with _ | enemy
    · exact ih es
    · obtain ⟨hnodup, hfresh⟩ := ih (strike es [enemy])
      rw [List.reduceOption_cons_of_some, List.nodup_cons]
      refine ⟨⟨fun hin => ?_, hnodup⟩, fun k hk => ?_⟩
      · obtain ⟨e, he, hunstruck⟩ := hfresh enemy hin
        rw [find?_strike, Option.map_eq_some_iff] at he
        obtain ⟨e', -, rfl⟩ := he
        simp at hunstruck
      · rcases List.mem_cons.1 hk with rfl | hk
        · obtain ⟨e, he, hunstruck, -⟩ := contact?_some hc
          exact ⟨e, he, hunstruck⟩
        · obtain ⟨e, he, hunstruck⟩ := hfresh k hk
          exact ⟨e, (marked_strike es [enemy]).find?_unstruck he hunstruck, hunstruck⟩

/-- A player's turn, between the entities at first and those in the end: an enemy that was not
struck overlaps the ship and sends it back, or the ship stays, and no enemy that is left overlaps
it. -/
inductive Turn (es es' : IdMap Entity) (p : Player) : Option UInt32 → Player → Prop where
  | hit {enemy : UInt32} {e : Entity} (he : es.find? enemy = some e) (hfresh : e.struck = false)
    (henemy : e.kind.isEnemy = true) (hbox : p.box.overlaps e.box = true) :
    Turn es es' p (some enemy) { p with position := shipSpawn }
  | spared (hfar : ∀ k e, es'.find? k = some e → e.struck = false → e.kind.isEnemy = true →
      p.box.overlaps e.box = false) : Turn es es' p none p

/-- Every player has its turn. -/
lemma turn_contacts {es₀ : IdMap Entity} (hbefore : Marked es₀ es) {n : ℕ}
    (hp : ps[n]? = some p) :
    ∃ hit p', (hits ps es)[n]? = some hit ∧ (contacts ps es).1[n]? = some p' ∧
      Turn es₀ (contacts ps es).2 p hit p' := by
  induction ps generalizing es n with
  | nil => cases hp
  | cons q ps ih =>
    unfold hits contacts
    rcases hc : contact? q es with _ | enemy
    · cases n with
      | zero =>
        obtain rfl : q = p := by simpa using hp
        refine ⟨none, q, rfl, rfl, .spared fun k e he hfresh henemy => ?_⟩
        exact contact?_none hc ((marked_contacts ps es).find?_unstruck he hfresh) hfresh henemy
      | succ n => exact ih hbefore hp
    · cases n with
      | zero =>
        obtain rfl : q = p := by simpa using hp
        obtain ⟨e, he, hfresh, henemy, hbox⟩ := contact?_some hc
        exact ⟨some enemy, _, rfl, rfl,
          .hit (hbefore.find?_unstruck he hfresh) hfresh henemy hbox⟩
      | succ n => exact ih (hbefore.trans (marked_strike es [enemy])) hp

end Collision

namespace Room

lemma clashed_eq (r : Room) : r.clashed =
    Collision.strike r.entities (Collision.members (Collision.pairs [] r.entities.entries)) := by
  rw [clashed, Collision.clash_eq, List.nil_append]

/-- What is left unstruck when all have struck each other could not strike each other. -/
lemma not_meet_clashed {r : Room} {i j : UInt32} {a b : Entity}
    (ha : r.clashed.find? i = some a) (hb : r.clashed.find? j = some b)
    (hafresh : a.struck = false) (hbfresh : b.struck = false) : Collision.meet a b = false := by
  have hstands : ∀ {k : UInt32} {e : Entity}, r.clashed.find? k = some e → e.struck = false →
      (k, e) ∈ r.entities.entries ∧
        Collision.Standing ([] ++ Collision.members (Collision.pairs [] r.entities.entries))
          (k, e) := by
    intro k e he hfresh
    have hold := (Collision.marked_strike _ _).find?_unstruck he hfresh
    refine ⟨IdMap.mem_entries_iff.2 hold, hfresh, fun hin => ?_⟩
    rw [clashed_eq, Collision.find?_strike, hold, Option.map_some] at he
    have hstruck := congrArg Entity.struck (Option.some.inj he)
    simp only [List.nil_append] at hin
    simp [hin, hfresh] at hstruck
  obtain ⟨hain, hastands⟩ := hstands ha hafresh
  obtain ⟨hbin, hbstands⟩ := hstands hb hbfresh
  exact Collision.pairs_maximal hain hbin hastands hbstands

/-- Whoever strikes a ship is in no pair. -/
lemma nodup_struck (r : Room) :
    (Collision.members (Collision.pairs [] r.entities.entries) ++
      (Collision.hits r.players r.clashed).reduceOption).Nodup := by
  obtain ⟨hnodup, hfresh⟩ := Collision.nodup_hits r.players r.clashed
  refine (Collision.nodup_members_pairs r.entities.sorted []).append hnodup fun k hin hk => ?_
  obtain ⟨e, he, hunstruck⟩ := hfresh k hk
  rw [clashed_eq, Collision.find?_strike, Option.map_eq_some_iff] at he
  obtain ⟨e', -, rfl⟩ := he
  simp [hin] at hunstruck

lemma entities_resolveCollisions (r : Room) :
    r.resolveCollisions.entities = Collision.strike r.entities
      (Collision.members (Collision.pairs [] r.entities.entries) ++
        (Collision.hits r.players r.clashed).reduceOption) := by
  have hcontacts := Collision.contacts_entities r.players r.clashed
  rwa [clashed_eq, Collision.strike_strike, ← clashed_eq] at hcontacts

/-- **Collisions are matched greedily.** When a room resolves them, the entities that are struck
anew, each of them once, are those of some pairs and one enemy for each ship that is hit. A pair is
a projectile and an enemy that overlap, the first of which takes the first one behind it that nobody
before it has taken. A ship that is hit, by an enemy that overlapped it, goes back to where ships
appear; one that is not hit stays where it is and overlaps no enemy that is left. No projectile that
is left overlaps an enemy that is left, no mark is taken back, and nothing else changes. -/
theorem collisions_are_matched (r : Room) :
    ∃ (pairs : List (UInt32 × UInt32)) (hits : List (Option UInt32)),
      let r' := r.resolveCollisions
      let used := pairs.flatMap (fun p => [p.1, p.2]) ++ hits.reduceOption
      used.Nodup ∧
      (∀ i j, (i, j) ∈ pairs → i < j ∧ ∃ a b,
        r.entities.find? i = some a ∧ r.entities.find? j = some b ∧
        a.struck = false ∧ b.struck = false ∧ (Collision.Clash a b ∨ Collision.Clash b a) ∧
        ∀ k e, i < k → k < j → r.entities.find? k = some e → e.struck = false →
          (Collision.Clash a e ∨ Collision.Clash e a) → ∃ i', i' < i ∧ (i', k) ∈ pairs) ∧
      (hits.length = r.players.length ∧ r'.players.length = r.players.length ∧
        ∀ (n : ℕ) p, r.players[n]? = some p → ∃ hit p', hits[n]? = some hit ∧
          r'.players[n]? = some p' ∧ Collision.Turn r.entities r'.entities p hit p') ∧
      r'.entities = r.entities.map (fun id e => { e with struck := e.struck || used.contains id }) ∧
      (∀ i j a b, r'.entities.find? i = some a → r'.entities.find? j = some b →
        a.struck = false → b.struck = false → ¬ Collision.Clash a b) ∧
      r' = { r with players := r'.players, entities := r'.entities } := by
  refine ⟨Collision.pairs [] r.entities.entries, Collision.hits r.players r.clashed, ?_⟩
  intro r' used
  have hmarked : Collision.Marked r.clashed r'.entities :=
    Collision.marked_contacts r.players r.clashed
  refine ⟨r.nodup_struck, fun i j hp => ?_, ⟨Collision.length_hits r.players r.clashed,
    Collision.length_contacts r.players r.clashed, fun n p hp => ?_⟩, IdMap.ext_find? fun k => ?_,
    fun i j a b ha hb hafresh hbfresh hclash => ?_, rfl⟩
  · obtain ⟨a, b, ha, hb, hsa, hsb, hmeet⟩ := Collision.mem_pairs hp
    refine ⟨Collision.lt_of_mem_pairs r.entities.sorted hp, a, b, IdMap.mem_entries_iff.1 ha,
      IdMap.mem_entries_iff.1 hb, hsa.unstruck, hsb.unstruck, Collision.meet_iff.1 hmeet,
      fun k e hik hkj he hfresh hclash => ?_⟩
    exact Collision.pairs_greedy r.entities.sorted hp ha (IdMap.mem_entries_iff.2 he) hik hkj
      ⟨hfresh, List.not_mem_nil⟩ (Collision.meet_iff.2 hclash)
  · exact Collision.turn_contacts (Collision.marked_strike r.entities _) hp
  · rw [show r'.entities = _ from r.entities_resolveCollisions, Collision.find?_strike,
      IdMap.find?_map]
    rfl
  · have hmeet := not_meet_clashed (hmarked.find?_unstruck ha hafresh)
      (hmarked.find?_unstruck hb hbfresh) hafresh hbfresh
    rw [Collision.meet_iff.2 (.inl hclash)] at hmeet
    cases hmeet

/-- A shot takes the first of two enemies. The other enemy sends back the first ship it overlaps and
is taken by that, so that the second ship stays. -/
example :
    let enemy (x : Float32) : Entity := ⟨.enemy, ⟨x, 500⟩, -5, 0, 32, 32, false⟩
    let ship (id : UInt32) : Player := { Player.joining id "" with position := ⟨200, 500⟩ }
    let r : Room := { create 1 {} 0 with
      players := [ship 1, ship 2]
      entities := .ofList [(1, enemy 200), (2, enemy 210),
        (3, ⟨.shot, ⟨205, 500⟩, 10, 0, 10, 5, false⟩)] }
    (r.resolveCollisions.entities.values.map (·.struck) = [true, true, true]) ∧
      r.resolveCollisions.players.map (·.position) = [shipSpawn, ⟨200, 500⟩] := by
  decide +kernel

end Room

end CoopShooter
