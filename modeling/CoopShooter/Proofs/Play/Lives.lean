import Mathlib
import CoopShooter.Proofs.Play.Mirror
import CoopShooter.Proofs.Play.News

/-!
The life of an entity as a player hears it: it appears, it moves, and at most once it disappears.
Its number is given to nobody else, so nothing is heard of it before and after.
-/

namespace CoopShooter

/-- What is queued for an address about an entity, full lists apart. -/
def told (k : UInt32) (a : Endpoint) (os : List Offer) : List Packet :=
  about k ((inbox a (queued os)).filterMap Packet.decode?)

lemma told_eq (k : UInt32) (a : Endpoint) {os : List Offer} (h : ∀ o ∈ os, o.packet.Fits) :
    told k a os = about k (mail a os) := by
  rw [told, inbox_queued h, List.filterMap_map]
  congr 1
  have hread : ∀ packet ∈ mail a os, (Packet.decode? ∘ Packet.encode) packet = some packet := by
    intro packet hp
    obtain ⟨o, ho, rfl⟩ := List.mem_map.1 hp
    exact Packet.decode?_encode (h o (List.mem_of_mem_filter ho))
  rw [List.filterMap_congr hread, List.filterMap_some]

namespace Room

variable {r r' : Room} {b c : Act} {as bs cs acts : List Act} {k : UInt32} {a : Endpoint}

/-- What is offered in the course of some acts. -/
def offersOf (r : Room) : List Act → List Offer
  | [] => []
  | b :: bs => (r.step b).offers ++ (r.step b).state.offersOf bs

/-- The numbers that are given to new entities in the course of some acts. -/
def births (r : Room) : List Act → List UInt32
  | [] => []
  | b :: bs => newborn r (r.step b).state ++ (r.step b).state.births bs

lemma offersOf_append (r : Room) (as bs : List Act) :
    r.offersOf (as ++ bs) = r.offersOf as ++ (r.after as).offersOf bs := by
  induction as generalizing r with
  | nil => rfl
  | cons b as ih =>
    rw [List.cons_append, offersOf, ih, offersOf, List.append_assoc]
    rfl

lemma births_append (r : Room) (as bs : List Act) :
    r.births (as ++ bs) = r.births as ++ (r.after as).births bs := by
  induction as generalizing r with
  | nil => rfl
  | cons b as ih =>
    rw [List.cons_append, births, ih, births, List.append_assoc]
    rfl

lemma offersOf_snoc (r : Room) (as : List Act) (b : Act) :
    r.offersOf (as ++ [b]) = r.offersOf as ++ ((r.after as).step b).offers := by
  rw [offersOf_append, offersOf, offersOf, List.append_nil]

lemma births_snoc (r : Room) (as : List Act) (b : Act) :
    r.births (as ++ [b]) = r.births as ++ newborn (r.after as) ((r.after as).step b).state := by
  rw [births_append, births, births, List.append_nil]

lemma fits_offersOf (r : Room) (as : List Act) : ∀ o ∈ r.offersOf as, o.packet.Fits := by
  induction as generalizing r with
  | nil => simp [offersOf]
  | cons b as ih =>
    rw [offersOf, List.forall_mem_append]
    exact ⟨(change_step r b).fits, ih _⟩

/-! ### Numbers -/

/-- The numbers of new entities are given out one after the other. -/
lemma births_eq (r : Room) (as : List Act) :
    r.births as = consecutive r.nextEntity (r.births as).length ∧
      (r.after as).nextEntity = r.nextEntity + UInt32.ofNat (r.births as).length := by
  induction as using List.reverseRecOn with
  | nil => exact ⟨rfl, (UInt32.add_zero _).symm⟩
  | append_singleton as b ih =>
    obtain ⟨now, es, hmakes, -⟩ := tells_step (r.after as) b
    obtain ⟨hbirths, hnext⟩ := ih
    rw [births_snoc, hmakes.newborn_eq, List.length_append, length_consecutive, after_snoc]
    constructor
    · rw [consecutive_add, ← hbirths, hnext]
    · rw [hmakes.next, hnext, UInt32.ofNat_add, UInt32.add_assoc]

lemma nodup_births (h : (r.births as).length < UInt32.size) : (r.births as).Nodup := by
  rw [(births_eq r as).1]
  exact nodup_consecutive _ (Nat.le_of_lt h)

lemma mem_births_of_find? (h0 : r.entities = ∅) {e : Entity}
    (h : (r.after as).entities.find? k = some e) : k ∈ r.births as := by
  induction as using List.reverseRecOn generalizing e with
  | nil =>
    rw [after_nil, h0] at h
    cases h
  | append_singleton as b ih =>
    rw [births_snoc, List.mem_append]
    rw [after_snoc] at h
    by_contra hnot
    rw [not_or] at hnot
    have hnone : (r.after as).entities.find? k = none := by
      rw [Option.eq_none_iff_forall_ne_some]
      exact fun e he => hnot.1 (ih he)
    rw [find?_step_none hnone hnot.2] at h
    cases h

/-- Nothing is heard of an entity before there is one of its number. -/
lemma mem_births_of_named (h0 : r.entities = ∅) {o : Offer} (ho : o ∈ r.offersOf as)
    (hk : o.packet.entity? = some k) : k ∈ r.births as := by
  induction as using List.reverseRecOn with
  | nil => cases ho
  | append_singleton as b ih =>
    rw [offersOf_snoc, List.mem_append] at ho
    rw [births_snoc, List.mem_append]
    rcases ho with ho | ho
    · exact .inl (ih ho)
    · exact (named_step ho hk).imp_left fun ⟨e, he⟩ => mem_births_of_find? h0 he

/-- A number that is given out is not in use. -/
lemma fresh_of_nodup (h0 : r.entities = ∅) (hn : (r.births (as ++ [b])).Nodup)
    (hk : k ∈ newborn (r.after as) ((r.after as).step b).state) :
    k ∉ r.births as ∧ (r.after as).entities.find? k = none := by
  rw [births_snoc, List.nodup_append] at hn
  have hnot : k ∉ r.births as := fun h => hn.2.2 k h k hk rfl
  refine ⟨hnot, ?_⟩
  rw [Option.eq_none_iff_forall_ne_some]
  exact fun e he => hnot (mem_births_of_find? h0 he)

/-- What has been said to be gone does not come back. -/
lemma gone_of_removal (h0 : r.entities = ∅) (hn : (r.births as).Nodup) {o : Offer}
    (ho : o ∈ r.offersOf as) (hk : o.packet = .removal ⟨k⟩) :
    (r.after as).entities.find? k = none := by
  induction as using List.reverseRecOn with
  | nil => cases ho
  | append_singleton as b ih =>
    have hfresh := fresh_of_nodup (k := k) h0 hn
    have hnamed : o.packet.entity? = some k := by
      rw [hk]
      rfl
    rw [births_snoc, List.nodup_append] at hn
    rw [offersOf_snoc, List.mem_append] at ho
    rw [after_snoc]
    rcases ho with ho | ho
    · exact find?_step_none (ih hn.1 ho) fun h => (hfresh h).1 (mem_births_of_named h0 ho hnamed)
    · exact removal_step ho hk fun h => (hfresh h).2

/-! ### A life -/

/-- A tick takes the entity away: it has been struck, or it moves out of the field. -/
def TakesAway (r : Room) (b : Act) (k : UInt32) : Prop :=
  r.Ticks b ∧ ∃ e, r.entities.find? k = some e ∧
    (e.struck = true ∨ (e.advanced k r.elapsed).outside = true)

/-- The last tick in the course of some acts has struck the entity. -/
def JustStruck (r : Room) (acts : List Act) (k : UInt32) : Prop :=
  ∃ cs c ds, acts = cs ++ c :: ds ∧ (r.after cs).Ticks c ∧
    (∀ ds' d, ds' ++ [d] <+: ds → ¬ (r.after (cs ++ c :: ds')).Ticks d) ∧
    (∃ e, (r.after cs).entities.find? k = some e ∧ e.struck = false) ∧
    ∃ e, (r.after (cs ++ [c])).entities.find? k = some e ∧ e.struck = true

lemma survivor?_eq_none_iff {elapsed : Float32} {e : Entity} : survivor? elapsed k e = none ↔
    e.struck = true ∨ (e.advanced k elapsed).outside = true := by
  unfold survivor?
  rcases hs : e.struck with _ | _
  · rcases ho : (e.advanced k elapsed).outside with _ | _ <;> simp [ho]
  · simp

lemma survivor?_unstruck {elapsed : Float32} {e e' : Entity}
    (h : survivor? elapsed k e = some e') : e.struck = false := by
  rcases hs : e.struck with _ | _
  · rfl
  · have hnone : survivor? elapsed k e = none := survivor?_eq_none_iff.2 (.inl hs)
    rw [hnone] at h
    cases h

/-- What becomes of an old entity in one act: it is said to be gone exactly if it goes, which is
when a tick takes it away, and nothing else is said of it then. -/
lemma Fate.leaves {ps : List Packet} (h : r.Fate b k ps)
    (hborn : k ∉ newborn r (r.step b).state) :
    (.removal ⟨k⟩ ∈ ps ↔ (r.entities.find? k).isSome ∧
      ((r.step b).state.entities.find? k).isNone) ∧
    (.removal ⟨k⟩ ∈ ps ↔ r.TakesAway b k) ∧ (r.TakesAway b k → ps = [.removal ⟨k⟩]) := by
  cases h with
  | absent hold _ hnew => simp [TakesAway, hold]
  | born _ hk => exact absurd hk hborn
  | stays hb hold hnew => simp [TakesAway, hold, hnew, hb]
  | moves hb hold hs hnew =>
    have hnot : ¬ r.TakesAway b k := by
      rintro ⟨-, e, he, htaken⟩
      rw [hold] at he
      obtain rfl := Option.some.inj he
      rw [survivor?_eq_none_iff.2 htaken] at hs
      cases hs
    simp [hnew, hnot]
  | @goes e hb hold hs hnew =>
    have htaken : r.TakesAway b k := ⟨hb, e, hold, survivor?_eq_none_iff.1 hs⟩
    simp [hold, hnew, htaken]

/-- All that is said of an entity in the course of some acts comes to the address, and its number is
not given out again. -/
structure Hears (r : Room) (a : Endpoint) (k : UInt32) (acts : List Act) : Prop where
  reaches : ∀ cs, cs <+: acts → (r.after cs).Reaches a
  single : k ∉ r.births acts

lemma Hears.mono (h : r.Hears a k bs) (hp : as <+: bs) : r.Hears a k as := by
  refine ⟨fun cs hcs => h.reaches cs (hcs.trans hp), fun hk => h.single ?_⟩
  obtain ⟨cs, rfl⟩ := hp
  rw [births_append]
  exact List.mem_append_left _ hk

lemma Hears.old (h : r.Hears a k (as ++ [b])) :
    k ∉ newborn (r.after as) ((r.after as).step b).state := by
  have hsingle := h.single
  rw [births_snoc, List.mem_append, not_or] at hsingle
  exact hsingle.2

lemma Hears.fate (h : r.Hears a k (as ++ [b])) :
    (r.after as).Fate b k (about k (mail a ((r.after as).step b).offers)) := by
  have hreach := h.reaches _ (List.prefix_refl _)
  rw [after_snoc] at hreach
  exact fate_step hreach fun hk => absurd hk h.old

/-- After it has appeared an entity moves until it is gone. -/
lemma Hears.about_offersOf (h : r.Hears a k bs) {e : Entity} (h0 : r.entities.find? k = some e) :
    ∃ ms : List MoveNotice, about k (mail a (r.offersOf bs)) = ms.map .move ++
      if ((r.after bs).entities.find? k).isNone then [.removal ⟨k⟩] else [] := by
  induction bs using List.reverseRecOn with
  | nil => exact ⟨[], by simp [offersOf, about, h0]⟩
  | append_singleton bs b ih =>
    obtain ⟨ms, hms⟩ := ih (h.mono (List.prefix_append _ _))
    have hfate := h.fate
    rw [offersOf_snoc, mail_append, about_append, hms, after_snoc]
    generalize about k (mail a ((r.after bs).step b).offers) = ps at hfate
    cases hfate with
    | absent hold _ hnew => exact ⟨ms, by simp [hold, hnew]⟩
    | born _ hk => exact absurd hk h.old
    | stays _ hold hnew => exact ⟨ms, by simp [hold, hnew]⟩
    | @moves _ _ _ m _ hold _ hnew => exact ⟨ms ++ [m], by simp [hold, hnew]⟩
    | goes _ hold _ hnew => exact ⟨ms, by simp [hold, hnew]⟩

/-- Only a tick strikes an entity, and the next one takes it away. -/
lemma Hears.justStruck (h : r.Hears a k bs) {e e' : Entity} (h0 : r.entities.find? k = some e)
    (hwhole : e.struck = false) (he : (r.after bs).entities.find? k = some e')
    (hs : e'.struck = true) : r.JustStruck bs k := by
  induction bs using List.reverseRecOn generalizing e' with
  | nil =>
    rw [after_nil, h0] at he
    obtain rfl := Option.some.inj he
    rw [hwhole] at hs
    cases hs
  | append_singleton bs b ih =>
    have hearlier := h.mono (List.prefix_append _ _)
    have hfate := h.fate
    rw [after_snoc] at he
    generalize about k (mail a ((r.after bs).step b).offers) = ps at hfate
    cases hfate with
    | absent _ _ hnew => exact absurd (he.symm.trans hnew) (by simp)
    | born _ hk => exact absurd hk h.old
    | goes _ _ _ hnew => exact absurd (he.symm.trans hnew) (by simp)
    | @stays x hb hold hnew =>
      obtain rfl := Option.some.inj (he.symm.trans hnew)
      obtain ⟨cs, c, ds, rfl, htick, hquiet, hbefore, hafter⟩ := ih hearlier hold hs
      refine ⟨cs, c, ds ++ [b], by simp, htick, fun ds' d hd => ?_, hbefore, hafter⟩
      rcases List.prefix_concat_iff.1 hd with heq | hd
      · obtain ⟨rfl, hlast⟩ := List.append_inj' heq rfl
        rwa [List.singleton_inj.1 hlast]
      · exact hquiet ds' d hd
    | @moves x _ _ _ hb hold hsurvives hnew =>
      refine ⟨bs, b, [], rfl, hb, fun ds' d hd => ?_, ⟨x, hold, survivor?_unstruck hsurvives⟩,
        e', by rw [after_snoc]; exact he, hs⟩
      have hnil := List.prefix_nil.1 hd
      simp at hnil

lemma JustStruck.shift (h : (r.after as).JustStruck bs k) : r.JustStruck (as ++ bs) k := by
  obtain ⟨cs, c, ds, rfl, htick, hquiet, hbefore, hafter⟩ := h
  refine ⟨as ++ cs, c, ds, (List.append_assoc _ _ _).symm, ?_, fun ds' d hd => ?_, ?_, ?_⟩
  · rwa [after_append]
  · rw [List.append_assoc, after_append]
    exact hquiet ds' d hd
  · rwa [after_append]
  · rwa [List.append_assoc, after_append]

/-- Who stays in the room stays known. -/
lemma at_of_stays (hs : r.Sound) {p : UInt32} (hat : (r.after as).At p a)
    (hstays : ∀ cs, as <+: cs → cs <+: as ++ bs → p ∈ (r.after cs).memberIds) :
    (r.after (as ++ bs)).At p a := by
  induction bs using List.reverseRecOn with
  | nil => rwa [List.append_nil]
  | append_singleton bs b ih =>
    rw [← List.append_assoc] at hstays ⊢
    have hknown := ih fun cs h h' => hstays cs h (h'.trans (List.prefix_append _ _))
    have hmember := hstays _ ((List.prefix_append as bs).trans (List.prefix_append _ _))
      (List.prefix_refl _)
    have hc := change_step (r.after (as ++ bs)) b
    rw [after_snoc] at hmember ⊢
    refine hc.at (hs.after _).nodup ?_ ?_ hknown
    · rintro rfl
      exact not_mem_step_remove _ p hmember
    · rintro rfl
      exact not_mem_step_kick _ p hmember

/-- Whoever stays in the room, and shares its address with nobody, is told everything. -/
lemma reaches_of_stays (hs : r.Sound) {p : UInt32} (hat : (r.after as).At p a)
    (hstays : ∀ cs, as <+: cs → cs <+: acts →
      p ∈ (r.after cs).memberIds ∧ (r.after cs).Alone p a)
    (hcs : as <+: cs) (hacts : cs <+: acts) : (r.after cs).Reaches a := by
  have halone := (hstays cs hcs hacts).2
  obtain ⟨cs, rfl⟩ := hcs
  have hknown := at_of_stays hs hat fun ds h h' => (hstays ds h (h'.trans hacts)).1
  exact reaches_of_at (hs.after _).nodup hknown halone

/-- All that is said of an entity after it was made is heard by whoever is told everything. -/
lemma hears_of_newborn (hn : (r.births (as ++ b :: bs)).Nodup)
    (hk : k ∈ newborn (r.after as) (r.after (as ++ [b])))
    (hreach : ∀ cs, as ++ [b] <+: cs → cs <+: as ++ b :: bs → (r.after cs).Reaches a) :
    (r.after (as ++ [b])).Hears a k bs := by
  have hsplit : as ++ b :: bs = as ++ [b] ++ bs := by simp
  rw [hsplit] at hn hreach
  refine ⟨fun cs hcs => ?_, fun hagain => ?_⟩
  · rw [← after_append]
    refine hreach _ (List.prefix_append _ _) ?_
    rwa [List.prefix_append_right_inj]
  · rw [births_append, births_snoc, List.nodup_append] at hn
    rw [after_snoc] at hk
    exact hn.2.2 k (List.mem_append_right _ hk) k hagain rfl

/-- A number is new in an act exactly if there is an entity of it afterwards and was none before. -/
lemma mem_newborn_iff (h0 : r.entities = ∅) (hn : (r.births (as ++ [b])).Nodup) :
    k ∈ newborn (r.after as) (r.after (as ++ [b])) ↔
      ((r.after as).entities.find? k).isNone ∧ ((r.after (as ++ [b])).entities.find? k).isSome := by
  have hfresh := fresh_of_nodup (k := k) h0 hn
  rw [after_snoc]
  obtain ⟨now, es, hmakes, -⟩ := tells_step (r.after as) b
  constructor
  · intro hk
    obtain ⟨e, -, -, hnew⟩ := hmakes.find?_new hk
    rw [(hfresh hk).2, hnew]
    exact ⟨rfl, rfl⟩
  · rintro ⟨hnone, hsome⟩
    by_contra hk
    rw [find?_step_none (Option.isNone_iff_eq_none.1 hnone) hk] at hsome
    cases hsome

/-- An entity that is new is announced, and nothing was said of its number before. -/
lemma about_born (h0 : r.entities = ∅) (hn : (r.births (as ++ [b])).Nodup)
    (hk : k ∈ newborn (r.after as) (r.after (as ++ [b])))
    (hreach : (r.after (as ++ [b])).Reaches a) :
    about k (mail a (r.offersOf as)) = [] ∧
      (∃ m : SpawnNotice, about k (mail a ((r.after as).step b).offers) = [.spawn m]) ∧
      ∃ e, (r.after (as ++ [b])).entities.find? k = some e ∧ e.struck = false := by
  rw [after_snoc] at hk hreach ⊢
  obtain ⟨hnot, hnone⟩ := fresh_of_nodup h0 hn hk
  have hfate := fate_step hreach fun _ => hnone
  refine ⟨?_, ?_⟩
  · rw [about, List.filter_eq_nil_iff]
    intro packet hp hnamed
    obtain ⟨o, ho, rfl⟩ := List.mem_map.1 hp
    exact hnot (mem_births_of_named h0 (List.mem_of_mem_filter ho) (by simpa using hnamed))
  · generalize about k (mail a ((r.after as).step b).offers) = ps at hfate
    cases hfate with
    | absent _ hborn => exact absurd hk hborn
    | born _ _ _ hnew he => exact ⟨⟨_, rfl⟩, _, hnew, he⟩
    | stays _ hold => exact absurd (hnone.symm.trans hold) (by simp)
    | moves _ hold => exact absurd (hnone.symm.trans hold) (by simp)
    | goes _ hold => exact absurd (hnone.symm.trans hold) (by simp)

lemma told_append (r : Room) (k : UInt32) (a : Endpoint) (as bs : List Act) :
    told k a (r.offersOf (as ++ bs)) =
      about k (mail a (r.offersOf as)) ++ about k (mail a ((r.after as).offersOf bs)) := by
  rw [told_eq k a (fits_offersOf r _), offersOf_append, mail_append, about_append]

/-- **Entities live once.** A room makes fewer entities than there are numbers. Then no number is
given out twice, and a full list is only of entities that have appeared and are not gone. A player
is known at an address when an entity appears, be it by the very input that fires it, stays, and
does not share the address. Of the datagrams on this entity that are queued for it in the whole run,
full lists apart, one announces it, the others say where it has moved, and a last one that it is
gone, if it is. That is said in the very act in which the entity leaves the room, which is a tick
into which it has come struck or in which it moves out of the field, and nothing else is said of it
in this tick. An entity that is struck was struck in the last tick. An outbox with room keeps what
is queued in this order (`Outbox.takes_in_order`). -/
theorem entities_live_once (id : UInt32) (settings : Settings) (seed : UInt64)
    (hfew : ((create id settings seed).births acts).length < UInt32.size) :
    let r := create id settings seed
    (r.births acts).Nodup ∧
    (∀ as b, as ++ [b] <+: acts →
      (∀ k, k ∈ newborn (r.after as) (r.after (as ++ [b])) ↔
        ((r.after as).entities.find? k).isNone ∧
          ((r.after (as ++ [b])).entities.find? k).isSome) ∧
      ∀ o ∈ ((r.after as).step b).offers, ∀ header entries, o.packet = .sync header entries →
        ∀ e ∈ entries, e.entity ∈ r.births (as ++ [b]) ∧
          ((r.after (as ++ [b])).entities.find? e.entity).isSome ∧
          ∀ o' ∈ r.offersOf (as ++ [b]), o'.packet ≠ .removal ⟨e.entity⟩) ∧
    ∀ as b bs k p a, acts = as ++ b :: bs → k ∈ newborn (r.after as) (r.after (as ++ [b])) →
      (r.after (as ++ [b])).At p a →
      (∀ cs, as ++ [b] <+: cs → cs <+: acts →
        p ∈ (r.after cs).memberIds ∧ (r.after cs).Alone p a) →
      (∃ (m : SpawnNotice) (ms : List MoveNotice), told k a (r.offersOf acts) =
        .spawn m :: (ms.map .move ++
          if ((r.after acts).entities.find? k).isNone then [.removal ⟨k⟩] else [])) ∧
      ∀ cs c, as ++ [b] <+: cs → cs ++ [c] <+: acts →
        let ps := told k a ((r.after cs).step c).offers
        (.removal ⟨k⟩ ∈ ps ↔ ((r.after cs).entities.find? k).isSome ∧
          ((r.after (cs ++ [c])).entities.find? k).isNone) ∧
        (.removal ⟨k⟩ ∈ ps ↔ (r.after cs).TakesAway c k) ∧
        ((r.after cs).TakesAway c k → ps = [.removal ⟨k⟩]) ∧
        ∀ e, (r.after cs).entities.find? k = some e → e.struck = true → r.JustStruck cs k := by
  intro r
  have h0 : r.entities = ∅ := rfl
  have hsound : r.Sound := sound_create id settings seed
  have hnodup := nodup_births hfew
  have hdistinct : ∀ {bs}, bs <+: acts → (r.births bs).Nodup := by
    rintro bs ⟨cs, rfl⟩
    rw [births_append] at hnodup
    exact hnodup.of_append_left
  refine ⟨hnodup, fun as b has => ⟨fun k => mem_newborn_iff h0 (hdistinct has), ?_⟩, ?_⟩
  · intro o ho header entries hs e he
    obtain ⟨x, hx⟩ := listed_step ho hs he
    rw [← after_snoc] at hx
    refine ⟨mem_births_of_find? h0 hx, by rw [hx]; rfl, fun o' ho' hgone => ?_⟩
    rw [gone_of_removal h0 (hdistinct has) ho' hgone] at hx
    cases hx
  · rintro as b bs k p a rfl hk hat hstays
    have hreach : ∀ cs, as ++ [b] <+: cs → cs <+: as ++ b :: bs → (r.after cs).Reaches a :=
      fun cs => reaches_of_stays hsound hat hstays
    have hsplit : as ++ b :: bs = as ++ [b] ++ bs := by simp
    have hborn : as ++ [b] <+: as ++ b :: bs := ⟨bs, hsplit.symm⟩
    obtain ⟨hbefore, ⟨m, hspawn⟩, e, hfound, hwhole⟩ :=
      about_born h0 (hdistinct hborn) hk (hreach _ (List.prefix_refl _) hborn)
    have hears : (r.after (as ++ [b])).Hears a k bs := hears_of_newborn hnodup hk hreach
    refine ⟨?_, fun cs c hcs hc => ?_⟩
    · obtain ⟨ms, hms⟩ := hears.about_offersOf hfound
      refine ⟨m, ms, ?_⟩
      rw [hsplit, told_append, offersOf_snoc, mail_append, about_append, hbefore, hspawn, hms,
        ← after_append]
      rfl
    · intro ps
      obtain ⟨cs, rfl⟩ := hcs
      rw [hsplit, List.append_assoc (as ++ [b]), List.prefix_append_right_inj] at hc
      have hold := (hears.mono hc).old
      have hfate := (hears.mono hc).fate
      have hps : ps = about k (mail a ((r.after (as ++ [b] ++ cs)).step c).offers) :=
        told_eq k a (change_step _ c).fits
      rw [← after_append] at hold hfate
      rw [← hps] at hfate
      obtain ⟨hgone, htaken, honly⟩ := hfate.leaves hold
      rw [after_snoc]
      refine ⟨hgone, htaken, honly, fun x hx hs => ?_⟩
      exact (hears.mono ((List.prefix_append _ _).trans hc)).justStruck hfound hwhole
        (by rwa [← after_append]) hs |>.shift

/-- A shot near the edge of the field, and two ticks. -/
def lastShot : List Act :=
  [.spawn .shot ⟨1900, 500⟩ 15 0 0, .update tickSeconds 20, .update tickSeconds 40]

/-- The shot appears, moves once and is gone with the second tick. -/
theorem shot_leaves_field :
    let r := create 1 {} 0
    let opening := [.add 7 "ann", .start 7, .input ⟨7, 0, .empty⟩ ⟨.loopback, 9000, 0⟩ 0]
    (r.births (opening ++ lastShot)).length < UInt32.size ∧
      ((r.after (opening ++ lastShot)).entities.find? 1).isNone ∧
      (∃ (m : SpawnNotice) (ms : List MoveNotice),
        told 1 ⟨.loopback, 9000, 0⟩ (r.offersOf (opening ++ lastShot)) =
          .spawn m :: (ms.map .move ++ [.removal ⟨1⟩])) ∧
      told 1 ⟨.loopback, 9000, 0⟩
        ((r.after (opening ++ lastShot.take 2)).step (.update tickSeconds 40)).offers =
          [.removal ⟨1⟩] := by
  intro r opening
  have hfew : (r.births (opening ++ lastShot)).length < UInt32.size := by decide +kernel
  have hnone : ((r.after (opening ++ lastShot)).entities.find? 1).isNone = true := by
    decide +kernel
  have hstays : ∀ ds ∈ lastShot.inits, 7 ∈ (r.after (opening ++ ds)).memberIds ∧
      (r.after (opening ++ ds)).Alone 7 ⟨.loopback, 9000, 0⟩ := by
    decide +kernel
  obtain ⟨-, -, hlives⟩ := entities_live_once 1 {} 0 hfew
  obtain ⟨⟨m, ms, htold⟩, hleaves⟩ := hlives opening (.spawn .shot ⟨1900, 500⟩ 15 0 0)
    [.update tickSeconds 20, .update tickSeconds 40] 1 7 ⟨.loopback, 9000, 0⟩ rfl
    (by decide +kernel) (by decide +kernel) (by
      rintro cs hcs hacts
      obtain ⟨ds, rfl⟩ := (List.prefix_append opening _).trans hcs
      rw [List.prefix_append_right_inj] at hacts
      exact hstays ds ((List.mem_inits _ _).2 hacts))
  have hlast := hleaves (opening ++ lastShot.take 2) (.update tickSeconds 40) ⟨_, rfl⟩ ⟨[], rfl⟩
  refine ⟨hfew, hnone, ⟨m, ms, ?_⟩, ?_⟩
  · rw [hnone, if_pos rfl] at htold
    exact htold
  · exact hlast.2.2.1 (hlast.2.1.1 (hlast.1.2 (by decide +kernel)))

end Room

end CoopShooter
