import Mathlib
import CoopShooter.Client.Sampler

/-!
Every press of the fire key makes one shot. The sampler remembers only when the key went down; over
any frames that is the time of the frame since which the key has been down without a break, so that
a shot is made just where a press ends, and the clock is compared over just that press.
-/

namespace CoopShooter.Sampler

/-- What the keyboard shows in one frame, and when. -/
structure Frame where
  keys : Held
  now : UInt32
  deriving DecidableEq

/-- A new sampler after some frames. -/
def after (fs : List Frame) : Sampler :=
  fs.foldl (fun s f => (s.sample f.keys f.now).2) {}

/-- What a sampler makes of frames: their numbers, and what the player does in them. -/
def sampled (s : Sampler) : List Frame → List (UInt32 × InputFlags)
  | [] => []
  | f :: fs => (s.sample f.keys f.now).1 :: sampled (s.sample f.keys f.now).2 fs

/-- The inputs that a new sampler makes of frames. -/
def inputs (fs : List Frame) : List (UInt32 × InputFlags) :=
  sampled {} fs

/-- The input makes a shot. -/
def fires (flags : InputFlags) : Bool :=
  flags.contains .fire || flags.contains .fireCharged

/-! ### Presses -/

/-- The fire key is down in a frame. -/
def down (fs : List Frame) (i : ℕ) : Bool := fs[i]?.any (·.keys.fire)

/-- The fire key is down at the end of the frames, and this is the first frame since when. -/
structure Holding (fs : List Frame) (first : ℕ) : Prop where
  begins : first = 0 ∨ down fs (first - 1) = false
  within : first < fs.length
  held : ∀ i, first ≤ i → i < fs.length → down fs i = true

/-- A press that is over: the fire key goes down in the frame `first`, stays down until the frame
`release`, and is up in that one. -/
structure Press (fs : List Frame) (first release : ℕ) : Prop where
  begins : first = 0 ∨ down fs (first - 1) = false
  lasts : first < release
  held : ∀ i, first ≤ i → i < release → down fs i = true
  ends : release < fs.length ∧ down fs release = false

variable {fs : List Frame} {f : Frame} {i first : ℕ}

lemma down_of_some (h : fs[i]? = some f) : down fs i = f.keys.fire := by
  rw [down, h, Option.any_some]

lemma down_take (fs : List Frame) {i j : ℕ} (h : j < i) : down (fs.take i) j = down fs j := by
  rw [down, down, List.getElem?_take_of_lt h]

lemma down_snoc_last (fs : List Frame) (f : Frame) : down (fs ++ [f]) fs.length = f.keys.fire :=
  down_of_some (by simp)

lemma down_snoc (fs : List Frame) (f : Frame) (h : i < fs.length) :
    down (fs ++ [f]) i = down fs i := by
  rw [down, down, List.getElem?_append_left h]

lemma Holding.unique {j k : ℕ} (hj : Holding fs j) (hk : Holding fs k) : j = k := by
  -- between two beginnings there is a frame in which the key is up, and none is after the earlier
  have hle : ∀ {j k : ℕ}, Holding fs j → Holding fs k → ¬ j < k := by
    intro j k hj hk hlt
    rcases hk.begins with h0 | hup
    · omega
    · have hwithin := hk.within
      rw [hj.held (k - 1) (by omega) (by omega)] at hup
      cases hup
  have := hle hj hk
  have := hle hk hj
  omega

/-- The key stays down in one more frame, or it goes down. -/
lemma Holding.snoc (h : Holding fs first) (hf : f.keys.fire = true) :
    Holding (fs ++ [f]) first := by
  have hwithin := h.within
  refine ⟨h.begins.imp_right fun hup => ?_, by simp; omega, fun i hfirst hi => ?_⟩
  · rw [down_snoc fs f (by omega), hup]
  · rw [List.length_append, List.length_singleton] at hi
    rcases Nat.lt_or_ge i fs.length with hlt | hge
    · rw [down_snoc fs f hlt, h.held i hfirst hlt]
    · obtain rfl : i = fs.length := by omega
      rw [down_snoc_last, hf]

lemma holding_fresh (h : down fs (fs.length - 1) = false) (hf : f.keys.fire = true) :
    Holding (fs ++ [f]) fs.length := by
  refine ⟨?_, by simp, fun i hfirst hi => ?_⟩
  · rcases Nat.eq_zero_or_pos fs.length with h0 | hpos
    · exact .inl h0
    · exact .inr (by rw [down_snoc fs f (by omega), h])
  · rw [List.length_append, List.length_singleton] at hi
    obtain rfl : i = fs.length := by omega
    rw [down_snoc_last, hf]

lemma not_holding (h : down fs (fs.length - 1) = false) (first : ℕ) : ¬ Holding fs first := by
  intro hh
  have hwithin := hh.within
  rw [hh.held (fs.length - 1) (by omega) (by omega)] at h
  cases h

/-- A press is over in a frame if the key is up in it and was held until then. -/
lemma press_iff (h : fs[i]? = some f) :
    Press fs first i ↔ f.keys.fire = false ∧ Holding (fs.take i) first := by
  have hi : i < fs.length := (List.getElem?_eq_some_iff.1 h).1
  have hlen : (fs.take i).length = i := List.length_take_of_le hi.le
  have hbegins (hlt : first < i) : (first = 0 ∨ down (fs.take i) (first - 1) = false) ↔
      (first = 0 ∨ down fs (first - 1) = false) := by
    rw [down_take fs (show first - 1 < i by omega)]
  constructor
  · intro hp
    refine ⟨by rw [← down_of_some h]; exact hp.ends.2,
      (hbegins hp.lasts).2 hp.begins, by rw [hlen]; exact hp.lasts, fun j hfirst hj => ?_⟩
    rw [hlen] at hj
    rw [down_take fs hj, hp.held j hfirst hj]
  · rintro ⟨hup, hh⟩
    have hlasts : first < i := hlen ▸ hh.within
    refine ⟨(hbegins hlasts).1 hh.begins, hlasts, fun j hfirst hj => ?_, hi, ?_⟩
    · rw [← down_take fs hj, hh.held j hfirst (by omega)]
    · rw [down_of_some h, hup]

/-- One more frame ends the press that lasted until then, if the key is up in it. -/
lemma press_snoc (fs : List Frame) (f : Frame) (first release : ℕ) :
    Press (fs ++ [f]) first release ↔ Press fs first release ∨
      (release = fs.length ∧ f.keys.fire = false ∧ Holding fs first) := by
  rcases Nat.lt_trichotomy release fs.length with hlt | rfl | hgt
  · have hsome := List.getElem?_eq_getElem hlt
    have hsome' : (fs ++ [f])[release]? = some fs[release] := by
      rw [List.getElem?_append_left hlt, hsome]
    rw [press_iff hsome', press_iff hsome, List.take_append_of_le_length hlt.le]
    exact ⟨.inl, fun h => h.resolve_right fun h => by omega⟩
  · rw [press_iff (f := f) (by simp), List.take_left]
    exact ⟨fun h => .inr ⟨rfl, h⟩,
      fun h => (h.resolve_left fun h => absurd h.ends.1 (by omega)).2⟩
  · refine ⟨fun h => ?_, ?_⟩
    · have hlen := h.ends.1
      rw [List.length_append, List.length_singleton] at hlen
      omega
    · rintro (h | h)
      · have hlen := h.ends.1
        omega
      · omega

/-! ### One frame -/

lemma heldSince_sample (s : Sampler) (k : Held) (now : UInt32) :
    (s.sample k now).2.heldSince = if k.fire then some (s.heldSince.getD now) else none := by
  unfold sample
  cases k.fire <;> cases s.heldSince <;> rfl

lemma flags_sample (s : Sampler) (k : Held) (now : UInt32) :
    (s.sample k now).1.2 =
      k.directions ∪ if k.fire then .empty else s.heldSince.elim .empty (shot · now) := by
  unfold sample
  cases k.fire <;> cases s.heldSince <;> rfl

lemma nextTick_sample (s : Sampler) (k : Held) (now : UInt32) :
    (s.sample k now).2.nextTick = s.nextTick + 1 := rfl

/-- The bits of a frame: its directions and at most one shot. -/
lemma bits_directions (k : Held) (fired : InputFlags)
    (h : fired = .empty ∨ fired = .fire ∨ fired = .fireCharged) :
    (k.directions ∪ fired).contains .up = k.up ∧ (k.directions ∪ fired).contains .down = k.down ∧
      (k.directions ∪ fired).contains .left = k.left ∧
      (k.directions ∪ fired).contains .right = k.right ∧
      ((k.directions ∪ fired).contains .fire ↔ fired = .fire) ∧
      ((k.directions ∪ fired).contains .fireCharged ↔ fired = .fireCharged) := by
  obtain ⟨up, down, left, right, fire⟩ := k
  rcases h with rfl | rfl | rfl
  all_goals
    revert up down left right
    simp only [Held.directions]
    decide

/-- Just the time that has passed tells which shot it is. -/
lemma shot_iff (since now : UInt32) :
    (shot since now = .fireCharged ↔ chargeMs ≤ now - since) ∧
      (shot since now = .fire ↔ now - since < chargeMs) := by
  unfold shot
  split_ifs with h
  · exact ⟨iff_of_true rfl h, iff_of_false (by decide) (UInt32.not_lt.2 h)⟩
  · exact ⟨iff_of_false (by decide) h, iff_of_true rfl (UInt32.not_le.1 h)⟩

lemma shot_ne_empty (since now : UInt32) : shot since now ≠ .empty := by
  unfold shot
  split_ifs <;> decide

lemma shot_mem (since now : UInt32) :
    shot since now = .empty ∨ shot since now = .fire ∨ shot since now = .fireCharged := by
  unfold shot
  split_ifs
  · exact .inr (.inr rfl)
  · exact .inr (.inl rfl)

/-! ### Runs of frames -/

lemma after_snoc (fs : List Frame) (f : Frame) :
    after (fs ++ [f]) = ((after fs).sample f.keys f.now).2 := by
  simp [after, List.foldl_append]

lemma sampled_append (s : Sampler) (fs gs : List Frame) :
    sampled s (fs ++ gs) =
      sampled s fs ++ sampled (fs.foldl (fun s f => (s.sample f.keys f.now).2) s) gs := by
  induction fs generalizing s with
  | nil => rfl
  | cons f fs ih => rw [List.cons_append, sampled, ih, sampled, List.foldl_cons, List.cons_append]

lemma inputs_snoc (fs : List Frame) (f : Frame) :
    inputs (fs ++ [f]) = inputs fs ++ [((after fs).sample f.keys f.now).1] :=
  sampled_append {} fs [f]

lemma length_inputs (fs : List Frame) : (inputs fs).length = fs.length := by
  induction fs using List.reverseRecOn with
  | nil => rfl
  | append_singleton fs f ih => rw [inputs_snoc, List.length_append, List.length_append, ih]; rfl

lemma inputs_getElem? (h : fs[i]? = some f) :
    (inputs fs)[i]? = some ((after (fs.take i)).sample f.keys f.now).1 := by
  have hi : i < fs.length := (List.getElem?_eq_some_iff.1 h).1
  have hf : f = fs[i] := by simpa [List.getElem?_eq_getElem hi] using h.symm
  have hsplit : fs = fs.take i ++ f :: fs.drop (i + 1) := by
    rw [hf, List.cons_getElem_drop_succ, List.take_append_drop]
  have hlen : (sampled {} (fs.take i)).length = i := by
    have := length_inputs (fs.take i)
    rwa [List.length_take_of_le hi.le] at this
  rw [inputs, hsplit, sampled_append, ← hsplit, List.getElem?_append_right hlen.le, hlen,
    Nat.sub_self]
  rfl

lemma nextTick_after (fs : List Frame) : (after fs).nextTick = .ofNat (fs.length + 1) := by
  induction fs using List.reverseRecOn with
  | nil => rfl
  | append_singleton fs f ih =>
    rw [after_snoc, nextTick_sample, ih, List.length_append, UInt32.ofNat_add (_ + _) 1]
    rfl

/-- **What the sampler remembers**: the time of the frame since which the key has been down. -/
theorem heldSince_after (fs : List Frame) :
    (∃ first f, Holding fs first ∧ fs[first]? = some f ∧ (after fs).heldSince = some f.now) ∨
      (down fs (fs.length - 1) = false ∧ (after fs).heldSince = none) := by
  induction fs using List.reverseRecOn with
  | nil => exact .inr ⟨rfl, rfl⟩
  | append_singleton fs f ih =>
    rw [after_snoc, heldSince_sample]
    cases hf : f.keys.fire with
    | false =>
      refine .inr ⟨?_, rfl⟩
      rw [List.length_append, List.length_singleton, Nat.add_sub_cancel, down_snoc_last, hf]
    | true =>
      refine .inl ?_
      rcases ih with ⟨first, g, hh, hg, hsince⟩ | ⟨hup, hsince⟩
      · refine ⟨first, g, hh.snoc hf, ?_, by rw [hsince]; rfl⟩
        rw [List.getElem?_append_left hh.within, hg]
      · exact ⟨fs.length, f, holding_fresh hup hf, by simp, by rw [hsince]; rfl⟩

/-- The input of a frame: its number, its directions, and the shot of the press that ends in it. -/
lemma input_cases (h : fs[i]? = some f) :
    ∃ fired, (inputs fs)[i]? = some (.ofNat (i + 1), f.keys.directions ∪ fired) ∧
      ((fired = .empty ∧ ∀ first, ¬ Press fs first i) ∨
        ∃ first g, Press fs first i ∧ fs[first]? = some g ∧ fired = shot g.now f.now) := by
  have hi : i < fs.length := (List.getElem?_eq_some_iff.1 h).1
  have htick := nextTick_after (fs.take i)
  rw [List.length_take_of_le hi.le] at htick
  obtain ⟨fired, hfired⟩ : ∃ fired, fired = if f.keys.fire then InputFlags.empty else
      (after (fs.take i)).heldSince.elim .empty (shot · f.now) := ⟨_, rfl⟩
  have hflags := flags_sample (after (fs.take i)) f.keys f.now
  rw [← hfired] at hflags
  refine ⟨fired, (inputs_getElem? h).trans (congrArg some (Prod.ext htick hflags)), ?_⟩
  cases hf : f.keys.fire with
  | true =>
    refine .inl ⟨by rw [hfired, hf]; rfl, fun first hp => ?_⟩
    rw [press_iff h, hf] at hp
    cases hp.1
  | false =>
    rw [hf] at hfired
    rcases heldSince_after (fs.take i) with ⟨first, g, hh, hg, hsince⟩ | ⟨hup, hsince⟩
    · refine .inr ⟨first, g, (press_iff h).2 ⟨hf, hh⟩, ?_, by rw [hfired, hsince]; rfl⟩
      have hfirst := hh.within
      rw [List.length_take_of_le hi.le] at hfirst
      rwa [List.getElem?_take_of_lt hfirst] at hg
    · refine .inl ⟨by rw [hfired, hsince]; rfl, fun first hp => ?_⟩
      exact not_holding hup first ((press_iff h).1 hp).2

/-- A press ends where the key is up after a frame in which it was down. -/
lemma exists_press_iff (h : fs[i]? = some f) :
    (∃ first, Press fs first i) ↔ 0 < i ∧ down fs (i - 1) = true ∧ f.keys.fire = false := by
  constructor
  · rintro ⟨first, hp⟩
    have hlasts := hp.lasts
    exact ⟨by omega, hp.held (i - 1) (by omega) (by omega), ((press_iff h).1 hp).1⟩
  · rintro ⟨hpos, hdown, hup⟩
    have hi : i < fs.length := (List.getElem?_eq_some_iff.1 h).1
    rcases heldSince_after (fs.take i) with ⟨first, g, hh, -, -⟩ | ⟨hlast, -⟩
    · exact ⟨first, (press_iff h).2 ⟨hup, hh⟩⟩
    · rw [List.length_take_of_le hi.le, down_take fs (by omega), hdown] at hlast
      cases hlast

lemma Press.unique {j k : ℕ} (hj : Press fs j i) (hk : Press fs k i) : j = k := by
  have h := List.getElem?_eq_getElem hj.ends.1
  exact Holding.unique ((press_iff h).1 hj).2 ((press_iff h).1 hk).2

/-- The bits of a frame in which a press ends, and of one in which none does. -/
lemma fires_iff {fired : InputFlags} (k : Held)
    (h : fired = .empty ∨ fired = .fire ∨ fired = .fireCharged) :
    fires (k.directions ∪ fired) ↔ fired ≠ .empty := by
  obtain ⟨-, -, -, -, hfire, hcharged⟩ := bits_directions k fired h
  rw [fires, Bool.or_eq_true, hfire, hcharged]
  rcases h with rfl | rfl | rfl <;> decide

/-- The number of shots goes up with that of the presses that are over. -/
lemma encard_presses (fs : List Frame) :
    {p : ℕ × ℕ | Press fs p.1 p.2}.encard = ((inputs fs).countP (fires ·.2) : ℕ) := by
  induction fs using List.reverseRecOn with
  | nil =>
    have hnone : {p : ℕ × ℕ | Press [] p.1 p.2} = ∅ :=
      Set.eq_empty_of_forall_notMem fun p hp => absurd hp.ends.1 (Nat.not_lt_zero _)
    rw [hnone, Set.encard_empty]
    rfl
  | append_singleton fs f ih =>
    have hlast : (fs ++ [f])[fs.length]? = some f := by simp
    have hinput : (inputs (fs ++ [f]))[fs.length]? =
        some ((after fs).sample f.keys f.now).1 := by
      rw [inputs_snoc, List.getElem?_append_right (length_inputs fs).le, length_inputs,
        Nat.sub_self]
      rfl
    obtain ⟨fired, hfired, hcases⟩ := input_cases hlast
    have hflags := congrArg Prod.snd (Option.some.inj (hinput.symm.trans hfired))
    rw [inputs_snoc, List.countP_append, List.countP_singleton, hflags]
    rcases hcases with ⟨rfl, hno⟩ | ⟨first, g, hp, -, rfl⟩
    · -- no press ends here
      have hsame : {p : ℕ × ℕ | Press (fs ++ [f]) p.1 p.2} = {p | Press fs p.1 p.2} := by
        ext ⟨j, k⟩
        refine (press_snoc fs f j k).trans (or_iff_left ?_)
        rintro ⟨rfl, hup, hh⟩
        exact hno j ((press_snoc fs f j fs.length).2 (.inr ⟨rfl, hup, hh⟩))
      rw [hsame, ih, if_neg (by rw [fires_iff _ (.inl rfl)]; simp), Nat.add_zero]
    · -- one does, and no other one
      have hmore : {p : ℕ × ℕ | Press (fs ++ [f]) p.1 p.2} =
          insert (first, fs.length) {p | Press fs p.1 p.2} := by
        ext ⟨j, k⟩
        rw [Set.mem_insert_iff, or_comm]
        refine (press_snoc fs f j k).trans (or_congr_right ?_)
        rw [Prod.mk.injEq]
        constructor
        · rintro ⟨rfl, hup, hh⟩
          exact ⟨((press_snoc fs f j fs.length).2 (.inr ⟨rfl, hup, hh⟩)).unique hp, rfl⟩
        · rintro ⟨rfl, rfl⟩
          exact ((press_snoc fs f j fs.length).1 hp).resolve_left
            fun h => absurd h.ends.1 (Nat.lt_irrefl _)
      have hnew : (first, fs.length) ∉ {p : ℕ × ℕ | Press fs p.1 p.2} :=
        fun h => absurd (Press.ends h).1 (Nat.lt_irrefl _)
      rw [hmore, Set.encard_insert_of_notMem hnew, ih,
        if_pos ((fires_iff _ (shot_mem _ _)).2 (shot_ne_empty _ _))]
      rfl

/-- **Every press makes one shot, when the key is let go.** The frames are numbered from one. A
frame carries a shot just if the fire key is up in it after a frame in which it was down, which is
where a press ends, and never two of them; so there are as many shots as presses that are over. The
shot is charged just if the time from the first frame of the press to this one, on a clock that
comes round, is long enough. The directions are those of the keys that are down in the frame,
whatever was before. -/
theorem one_shot_per_press (fs : List Frame) (hfew : fs.length < UInt32.size - 1) :
    (inputs fs).map (·.1.toNat) = List.range' 1 fs.length ∧
    (∀ i f, fs[i]? = some f → ∃ tick flags, (inputs fs)[i]? = some (tick, flags) ∧
      (flags.contains .up = f.keys.up ∧ flags.contains .down = f.keys.down ∧
        flags.contains .left = f.keys.left ∧ flags.contains .right = f.keys.right) ∧
      (fires flags ↔ 0 < i ∧ down fs (i - 1) = true ∧ f.keys.fire = false) ∧
      (fires flags ↔ ∃ first, Press fs first i) ∧
      ¬ (flags.contains .fire ∧ flags.contains .fireCharged) ∧
      ∀ first g, Press fs first i → fs[first]? = some g →
        (flags.contains .fireCharged ↔ chargeMs ≤ f.now - g.now) ∧
        (flags.contains .fire ↔ f.now - g.now < chargeMs)) ∧
    {p : ℕ × ℕ | Press fs p.1 p.2}.encard = ((inputs fs).countP (fires ·.2) : ℕ) := by
  have hsize : UInt32.size = 4294967296 := rfl
  refine ⟨?_, fun i f h => ?_, encard_presses fs⟩
  · refine List.ext_getElem? fun i => ?_
    rw [List.getElem?_map]
    rcases Nat.lt_or_ge i fs.length with hlt | hge
    · obtain ⟨fired, hfired, -⟩ := input_cases (List.getElem?_eq_getElem hlt)
      rw [hfired, List.getElem?_range' hlt, Option.map_some,
        UInt32.toNat_ofNat_of_lt' (show i + 1 < UInt32.size by omega)]
      congr 1
      omega
    · rw [List.getElem?_eq_none (by rw [length_inputs]; exact hge),
        List.getElem?_eq_none (by rw [List.length_range']; exact hge)]
      rfl
  · obtain ⟨fired, hfired, hcases⟩ := input_cases h
    have hmem : fired = .empty ∨ fired = .fire ∨ fired = .fireCharged := by
      rcases hcases with ⟨hempty, -⟩ | ⟨first, g, -, -, hshot⟩
      · exact .inl hempty
      · exact hshot ▸ shot_mem g.now f.now
    have hends : fires (f.keys.directions ∪ fired) ↔ ∃ first, Press fs first i := by
      rw [fires_iff _ hmem]
      rcases hcases with ⟨hempty, hno⟩ | ⟨first, g, hp, -, hshot⟩
      · exact ⟨fun hne => absurd hempty hne, fun ⟨first, hp⟩ => absurd hp (hno first)⟩
      · exact ⟨fun _ => ⟨first, hp⟩, fun _ => hshot ▸ shot_ne_empty g.now f.now⟩
    obtain ⟨hup, hdown, hleft, hright, hfire, hcharged⟩ := bits_directions f.keys fired hmem
    refine ⟨_, _, hfired, ⟨hup, hdown, hleft, hright⟩, hends.trans (exists_press_iff h), hends,
      ?_, ?_⟩
    · rw [hfire, hcharged]
      rintro ⟨rfl, hboth⟩
      exact absurd hboth (by decide)
    · intro first g hp hg
      rw [hfire, hcharged]
      rcases hcases with ⟨-, hno⟩ | ⟨first', g', hp', hg', hshot⟩
      · exact absurd hp (hno first)
      · obtain rfl := hp.unique hp'
        obtain rfl : g = g' := Option.some.inj (hg.symm.trans hg')
        rw [hshot]
        exact shot_iff g.now f.now

/-- Two presses, the second of them over the end of the clock, and a third that is not over. -/
def twoShots : List Frame :=
  [⟨{ fire := true, up := true }, 100⟩, ⟨{ right := true }, 200⟩, ⟨{ fire := true }, 4294967000⟩,
    ⟨{ fire := true }, 100⟩, ⟨{ left := true }, 204⟩, ⟨{ fire := true }, 300⟩]

/-- The second press makes a charged shot: it takes five hundred milliseconds. -/
theorem second_shot_is_charged :
    twoShots.length < UInt32.size - 1 ∧ twoShots[4]? = some ⟨{ left := true }, 204⟩ ∧
      Press twoShots 2 4 ∧ twoShots[2]? = some ⟨{ fire := true }, 4294967000⟩ ∧
      (∃ tick flags, (inputs twoShots)[4]? = some (tick, flags) ∧
        flags.contains .fireCharged) ∧
      {p : ℕ × ℕ | Press twoShots p.1 p.2}.encard = 2 := by
  have hfew : twoShots.length < UInt32.size - 1 := by decide
  have hpress : Press twoShots 2 4 :=
    ⟨.inr (by decide), by decide, fun i hfirst hi => by interval_cases i <;> decide, by decide⟩
  obtain ⟨-, hframes, hcount⟩ := one_shot_per_press twoShots hfew
  obtain ⟨tick, flags, hinput, -, -, -, -, hcharged⟩ := hframes 4 _ rfl
  refine ⟨hfew, rfl, hpress, rfl, ⟨tick, flags, hinput, ?_⟩, hcount.trans (by decide)⟩
  exact (hcharged 2 _ hpress rfl).1.2 (by decide)

end CoopShooter.Sampler
