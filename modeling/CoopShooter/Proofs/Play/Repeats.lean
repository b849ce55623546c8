import Mathlib
import CoopShooter.Proofs.Play.AnyOrder

/-!
How often a full list becomes complete. The numbers of the lists that do never fall. A list whose
fragments all come again after it was complete, while none of a newer one has come, becomes complete
again, and puts back what was removed in between. This is the only way in which a number is told
twice: a single fragment that comes again brings no list back, unless the list is no longer than
that.
-/

namespace CoopShooter

open SyncAssembly

/-- It is no part of a full list. -/
def Packet.IsNews (p : Packet) : Prop := ∀ h es, p ≠ .sync h es

namespace View

variable {v : View} (now : UInt32) {p : Packet}

lemma assembly_apply (hp : p.IsNews) : (v.apply p now).assembly = v.assembly := by
  cases p with
  | player m =>
    simp only [apply, applyReport]
    split_ifs <;> rfl
  | spawn m =>
    simp only [apply, applySpawn]
    split <;> rfl
  | sync h es => exact absurd rfl (hp h es)
  | leave m =>
    simp only [apply, applyLeave]
    split_ifs <;> rfl
  | _ => rfl

lemma fits_of_isNews (hp : p.IsNews) : p.Fits := by
  cases p with
  | sync h es => exact absurd rfl (hp h es)
  | _ => trivial

lemma assembly_deliver_news (hp : p.IsNews) :
    (v.deliver now p.encode).assembly = v.assembly := by
  rw [deliver_encode v now (fits_of_isNews hp), assembly_apply now hp]

lemma completes?_news (hp : p.IsNews) : v.completes? p.encode = none := by
  have hfits := fits_of_isNews hp
  rw [completes?, List.take_of_length_le (Packet.length_encode_le hfits),
    Packet.decode?_encode hfits]
  cases p with
  | sync h es => exact absurd rfl (hp h es)
  | _ => rfl

/-- The numbers of the lists that become complete, in the order in which they do. -/
def completions (v : View) : List (Packet × UInt32) → List UInt32
  | [] => []
  | m :: mail => (v.completes? m.1.encode).toList ++ completions (v.deliver m.2 m.1.encode) mail

lemma completions_append (front rest : List (Packet × UInt32)) :
    v.completions (front ++ rest) = v.completions front ++ (v.hear front).completions rest := by
  induction front generalizing v with
  | nil => rfl
  | cons m front ih =>
    rw [List.cons_append, completions, completions, ih, List.append_assoc]
    rfl

lemma completions_snoc (mail : List (Packet × UInt32)) (m : Packet × UInt32) :
    v.completions (mail ++ [m]) =
      v.completions mail ++ ((v.hear mail).completes? m.1.encode).toList := by
  rw [completions_append, completions, completions, List.append_nil]

end View

section
variable {rooms : List Room} {r : Room} {front : List Packet} {q : Packet}

lemma Latest.of_append {tail : List Packet} (h : Latest rooms (front ++ tail) r) :
    Latest rooms tail r :=
  fun s hs q hq => h s hs q (List.mem_append_right _ hq)

lemma Latest.snoc_news (h : Latest rooms front r) (hq : q.IsNews) :
    Latest rooms (front ++ [q]) r := by
  intro s hs p hp hps
  rcases List.mem_append.1 hp with hp | hp
  · exact h s hs p hp hps
  · obtain rfl := List.mem_singleton.1 hp
    obtain ⟨i, hi⟩ := Room.mem_fullList.1 hps
    exact absurd hi.symm (hq _ _)

lemma Room.not_mem_fullList_of_news (hq : q.IsNews) : q ∉ r.fullList := by
  intro h
  obtain ⟨i, hi⟩ := Room.mem_fullList.1 h
  exact hq _ _ hi.symm

lemma Room.received_eq_empty (h : ∀ q ∈ front, q ∉ r.fullList) : r.received front = ∅ := by
  refine Finset.eq_empty_of_forall_notMem fun i hi => ?_
  obtain ⟨hlt, hmem⟩ := Room.mem_received.1 hi
  exact h _ hmem (Room.mem_fullList.2 ⟨_, rfl⟩)

lemma Room.not_full_empty : ¬ Full r.syncPieces.length ∅ := fun h =>
  absurd (h 0 (List.length_pos_of_ne_nil r.syncPieces_ne_nil)) (Finset.notMem_empty 0)

end

namespace View

variable {rooms : List Room} {v : View} {mail : List (Packet × UInt32)} {m : Packet × UInt32}
  {r s : Room}

/-- After a list was complete, all of its fragments come again, and none of a newer list comes
before. -/
def ComesAgain (rooms : List Room) (v : View) (mail : List (Packet × UInt32)) : Prop :=
  ∃ r ∈ rooms, ∃ before m since rest, mail = before ++ m :: since ++ rest ∧
    (v.hear before).completes? m.1.encode = some r.syncs ∧
    (∀ q ∈ r.fullList, q ∈ since.map (·.1)) ∧ Latest rooms (since.map (·.1)) r

lemma ComesAgain.append (h : ComesAgain rooms v mail) (rest : List (Packet × UInt32)) :
    ComesAgain rooms v (mail ++ rest) := by
  obtain ⟨r, hr, before, m, since, rest', rfl, h⟩ := h
  exact ⟨r, hr, before, m, since, rest' ++ rest, by simp, h⟩

/-- What has come since the room's list was last complete, or from the beginning if it never
was. -/
def Since (v : View) (mail : List (Packet × UInt32)) (r : Room)
    (since : List (Packet × UInt32)) : Prop :=
  since = mail ∧ (∀ k ∈ v.completions mail, k < r.syncs) ∨
    ∃ before m, mail = before ++ m :: since ∧ (v.hear before).completes? m.1.encode = some r.syncs

/-- The next list to become complete may be the room's: no newer one has been heard of, and of its
fragments, those are there that have come since it was complete last. -/
structure Awaits (rooms : List Room) (v : View) (mail : List (Packet × UInt32)) (r : Room) :
    Prop where
  mem : r ∈ rooms
  latest : Latest rooms (mail.map (·.1)) r
  ordered : (v.completions mail).Pairwise (· ≤ ·)
  below : ∀ k ∈ v.completions mail, k ≤ r.syncs
  strict : ¬ ComesAgain rooms v mail → (v.completions mail).Pairwise (· < ·)
  round : ∃ since, Since v mail r since ∧
    ¬ Full r.syncPieces.length (r.received (since.map (·.1))) ∧
    (v.hear mail).assembly.Gathers r.syncs r.syncPieces (r.received (since.map (·.1)))

/-- The room's list is the newest of which something has come. -/
structure Follows (rooms : List Room) (v : View) (mail : List (Packet × UInt32)) (r : Room) :
    Prop extends Awaits rooms v mail r where
  sync : (v.hear mail).assembly.sync = some r.syncs

/-- Nothing has come of any list. -/
structure Silent (v : View) (mail : List (Packet × UInt32)) : Prop where
  sync : (v.hear mail).assembly.sync = none
  news : ∀ q ∈ mail.map (·.1), q.IsNews
  none : v.completions mail = []

lemma completions_snoc_none (hnone : (v.hear mail).completes? m.1.encode = none) :
    v.completions (mail ++ [m]) = v.completions mail := by
  rw [completions_snoc, hnone, Option.toList_none, List.append_nil]

lemma Since.snoc {since : List (Packet × UInt32)} (h : Since v mail r since)
    (hnone : (v.hear mail).completes? m.1.encode = none) :
    Since v (mail ++ [m]) r (since ++ [m]) := by
  rcases h with ⟨rfl, hbelow⟩ | ⟨before, n, rfl, hn⟩
  · exact .inl ⟨rfl, completions_snoc_none hnone ▸ hbelow⟩
  · exact .inr ⟨before, n, by simp, hn⟩

/-- Something has come that makes nothing complete. -/
lemma Awaits.keep (h : Awaits rooms v mail r)
    (hnone : (v.hear mail).completes? m.1.encode = none)
    (hlatest : Latest rooms (mail.map (·.1) ++ [m.1]) r)
    (hround : ∀ since : List (Packet × UInt32),
      ¬ Full r.syncPieces.length (r.received (since.map (·.1))) →
      (v.hear mail).assembly.Gathers r.syncs r.syncPieces (r.received (since.map (·.1))) →
      ¬ Full r.syncPieces.length (r.received (since.map (·.1) ++ [m.1])) ∧
      (v.hear (mail ++ [m])).assembly.Gathers r.syncs r.syncPieces
        (r.received (since.map (·.1) ++ [m.1]))) :
    Awaits rooms v (mail ++ [m]) r := by
  have hcompletions := completions_snoc_none hnone
  obtain ⟨since, hsince, hmissing, hgathers⟩ := h.round
  refine ⟨h.mem, by simpa using hlatest, hcompletions ▸ h.ordered, hcompletions ▸ h.below,
    fun hnot => ?_, since ++ [m], hsince.snoc hnone, ?_⟩
  · rw [hcompletions]
    exact h.strict (mt (·.append [m]) hnot)
  · rw [List.map_append, List.map_singleton]
    exact hround since hmissing hgathers

/-- What does not matter to the list under way changes nothing. -/
lemma Follows.idle (h : Follows rooms v mail r)
    (hnone : (v.hear mail).completes? m.1.encode = none)
    (hsame : (v.hear (mail ++ [m])).assembly = (v.hear mail).assembly)
    (hlatest : Latest rooms (mail.map (·.1) ++ [m.1]) r) (hm : m.1 ∉ r.fullList) :
    Follows rooms v (mail ++ [m]) r := by
  refine ⟨h.toAwaits.keep hnone hlatest fun since hmissing hgathers => ?_, hsame ▸ h.sync⟩
  rw [Room.received_snoc_of_not_mem hm, hsame]
  exact ⟨hmissing, hgathers⟩

/-- With its last missing fragment the awaited list is complete. If it was complete before, all of
it has come again. -/
lemma Awaits.complete (h : Awaits rooms v mail r)
    (hcomplete : (v.hear mail).completes? m.1.encode = some r.syncs)
    (hdone : (v.hear (mail ++ [m])).assembly = gathered r.syncs r.syncPieces ∅)
    (hlatest : Latest rooms (mail.map (·.1) ++ [m.1]) r)
    (hall : ∀ since : List (Packet × UInt32), Since v mail r since →
      (v.hear mail).assembly.Gathers r.syncs r.syncPieces (r.received (since.map (·.1))) →
      ∀ q ∈ r.fullList, q ∈ since.map (·.1) ++ [m.1]) :
    Follows rooms v (mail ++ [m]) r := by
  have hempty : r.received (([] : List (Packet × UInt32)).map (·.1)) = ∅ :=
    Room.received_eq_empty nofun
  obtain ⟨since, hsince, -, hgathers⟩ := h.round
  have hagain := hall since hsince hgathers
  have hcompletions : v.completions (mail ++ [m]) = v.completions mail ++ [r.syncs] := by
    rw [completions_snoc, hcomplete, Option.toList_some]
  have hlatest' : Latest rooms ((mail ++ [m]).map (·.1)) r := by simpa using hlatest
  refine ⟨⟨h.mem, hlatest', ?_, ?_, fun hnot => ?_, [], .inr ⟨mail, m, rfl, hcomplete⟩, ?_, ?_⟩,
    hdone ▸ rfl⟩
  · rw [hcompletions, List.pairwise_append]
    exact ⟨h.ordered, List.pairwise_singleton _ _, by simpa using h.below⟩
  · rw [hcompletions]
    simpa [or_imp, forall_and] using h.below
  · rw [hcompletions, List.pairwise_append]
    refine ⟨h.strict (mt (·.append _) hnot), List.pairwise_singleton _ _, ?_⟩
    rcases hsince with ⟨-, hbelow⟩ | ⟨before, n, rfl, hn⟩
    · simpa using hbelow
    · refine absurd ⟨r, h.mem, before, n, since ++ [m], [], by simp, hn, ?_, ?_⟩ hnot
      · simpa using hagain
      · have hsplit : (before ++ n :: since ++ [m]).map (·.1) =
            (before ++ [n]).map (·.1) ++ (since ++ [m]).map (·.1) := by simp
        exact Latest.of_append (hsplit ▸ hlatest')
  · rw [hempty]
    exact Room.not_full_empty
  · rw [hempty, hdone]
    exact .inl rfl

/-- What a fragment does to a view that has some fragments of its list. -/
lemma hear_fragment {got : Finset ℕ}
    (h : (v.hear mail).assembly.Gathers r.syncs r.syncPieces got) (i : Fin r.syncPieces.length)
    (now : UInt32) :
    if Full r.syncPieces.length (insert i.1 got) then
      (v.hear mail).completes? (r.fragment i).encode = some r.syncs ∧
      (v.hear (mail ++ [(r.fragment i, now)])).assembly = gathered r.syncs r.syncPieces ∅ ∧
      (v.hear (mail ++ [(r.fragment i, now)])).entities = r.shown.first 576
    else
      (v.hear mail).completes? (r.fragment i).encode = none ∧
      (v.hear (mail ++ [(r.fragment i, now)])).assembly =
        gathered r.syncs r.syncPieces (insert i.1 got) := by
  rw [hear_snoc, deliver_fragment, completes?_fragment, applySync_fragment h i]
  by_cases hfull : Full r.syncPieces.length (insert i.1 got) <;> simp [hfull]

/-- A fragment of the awaited list is kept, or makes it complete and shows it. -/
lemma Awaits.fragment (h : Awaits rooms v mail r) (i : Fin r.syncPieces.length) (now : UInt32) :
    Follows rooms v (mail ++ [(r.fragment i, now)]) r ∧
      ∀ k, (v.hear mail).completes? (r.fragment i).encode = some k → r.syncs = k ∧
        (v.hear (mail ++ [(r.fragment i, now)])).assembly = gathered r.syncs r.syncPieces ∅ ∧
        (v.hear (mail ++ [(r.fragment i, now)])).entities = r.shown.first 576 := by
  have hlatest := h.latest.snoc (UInt32.le_refl _) i
  obtain ⟨since, -, -, hgathers⟩ := h.round
  have hheard := hear_fragment hgathers i now
  split_ifs at hheard with hfull
  · obtain ⟨hcomplete, hdone, hshown⟩ := hheard
    refine ⟨h.complete hcomplete hdone hlatest fun since' _ hgathers' => ?_, fun k hk =>
      ⟨Option.some.inj (hcomplete.symm.trans hk), hdone, hshown⟩⟩
    rw [← Room.full_received, Room.received_snoc]
    by_contra hmissing
    have hheard' := hear_fragment hgathers' i now
    rw [if_neg hmissing, hcomplete] at hheard'
    cases hheard'.1
  · obtain ⟨hnone, hkept⟩ := hheard
    refine ⟨⟨h.keep hnone hlatest fun since' hmissing' hgathers' => ?_, hkept ▸ rfl⟩,
      fun k hk => ?_⟩
    · have hheard' := hear_fragment hgathers' i now
      rw [Room.received_snoc]
      split_ifs at hheard' with hfull'
      · rw [hnone] at hheard'
        cases hheard'.1
      · exact ⟨hfull', .inl hheard'.2⟩
    · rw [hnone] at hk
      cases hk

/-- As long as nothing has come of any list, every list is awaited. -/
lemma Silent.awaits (h : Silent v mail) (hr : r ∈ rooms) : Awaits rooms v mail r := by
  have hlatest : Latest rooms (mail.map (·.1)) r := fun s _ q hq hs =>
    absurd hs (Room.not_mem_fullList_of_news (h.news q hq))
  have hempty : r.received (mail.map (·.1)) = ∅ :=
    Room.received_eq_empty fun q hq => Room.not_mem_fullList_of_news (h.news q hq)
  refine ⟨hr, hlatest, ?_, ?_, fun _ => ?_, mail, .inl ⟨rfl, ?_⟩, ?_, ?_⟩
  all_goals try simp [h.none]
  · rw [hempty]
    exact Room.not_full_empty
  · rw [hempty]
    exact .inr ⟨rfl, by simp [h.sync]⟩

/-- A list that is newer than what has come is awaited from its first fragment on. -/
lemma Follows.awaits_newer (h : Follows rooms v mail r) (hs : s ∈ rooms)
    (hlt : r.syncs < s.syncs) : Awaits rooms v mail s := by
  have hbelow : ∀ k ∈ v.completions mail, k < s.syncs := fun k hk =>
    UInt32.lt_of_le_of_lt (h.below k hk) hlt
  have hempty : s.received (mail.map (·.1)) = ∅ :=
    Room.received_eq_empty fun q hq hqs => UInt32.not_le.2 hlt (h.latest s hs q hq hqs)
  refine ⟨hs, fun t ht q hq hqt => ?_, h.ordered, fun k hk => UInt32.le_of_lt (hbelow k hk),
    h.strict, mail, .inl ⟨rfl, hbelow⟩, ?_, ?_⟩
  · exact UInt32.le_trans (h.latest t ht q hq hqt) (UInt32.le_of_lt hlt)
  · rw [hempty]
    exact Room.not_full_empty
  · rw [hempty]
    exact .inr ⟨rfl, fun k hk => Option.some.inj (h.sync.symm.trans hk) ▸ hlt⟩

/-- A fragment of an older list changes nothing. -/
lemma Follows.older (h : Follows rooms v mail r) (hlt : s.syncs < r.syncs)
    (i : Fin s.syncPieces.length) (now : UInt32) :
    (v.hear mail).completes? (s.fragment i).encode = none ∧
      Follows rooms v (mail ++ [(s.fragment i, now)]) r := by
  have hstale := applySync_stale h.sync
    (h := fragmentHeader s.syncs s.syncPieces.length i s.syncPieces[i]) hlt s.syncPieces[i]
  have hnone : (v.hear mail).completes? (s.fragment i).encode = none := by
    rw [completes?_fragment, hstale]
    rfl
  have hnot : s.fragment i ∉ r.fullList := fun hmem =>
    UInt32.ne_of_lt hlt (Room.syncs_eq_of_mem_fullList (Room.mem_fullList.2 ⟨i, rfl⟩) hmem)
  refine ⟨hnone, h.idle hnone ?_ (h.latest.snoc (UInt32.le_of_lt hlt) i) hnot⟩
  rw [hear_snoc, deliver_fragment, hstale]

lemma Follows.news (h : Follows rooms v mail r) (hm : m.1.IsNews) :
    Follows rooms v (mail ++ [m]) r := by
  refine h.idle (completes?_news hm) ?_ (h.latest.snoc_news hm)
    (Room.not_mem_fullList_of_news hm)
  rw [hear_snoc, assembly_deliver_news m.2 hm]

lemma Silent.snoc (h : Silent v mail) (hm : m.1.IsNews) : Silent v (mail ++ [m]) := by
  refine ⟨?_, by simpa [or_imp, forall_and] using ⟨by simpa using h.news, hm⟩, ?_⟩
  · rw [hear_snoc, assembly_deliver_news m.2 hm]
    exact h.sync
  · rw [completions_snoc_none (completes?_news hm), h.none]

/-- A datagram of the rooms: a fragment of one of their lists, or news. -/
def Sent (rooms : List Room) (q : Packet) : Prop :=
  (∃ r ∈ rooms, q ∈ r.fullList) ∨ q.IsNews

/-- Nothing has come of any list, or one of the rooms' lists is the newest. -/
def Stands (rooms : List Room) (v : View) (mail : List (Packet × UInt32)) : Prop :=
  Silent v mail ∨ ∃ r, Follows rooms v mail r

/-- One datagram more. What it makes complete is shown as the room sent it. -/
lemma Stands.snoc (h : Stands rooms v mail) (hrise : rooms.Pairwise fun r s => r.syncs < s.syncs)
    (hm : Sent rooms m.1) :
    Stands rooms v (mail ++ [m]) ∧ ∀ k, (v.hear mail).completes? m.1.encode = some k →
      ∃ r, r.syncs = k ∧ Follows rooms v (mail ++ [m]) r ∧
        (v.hear (mail ++ [m])).assembly = gathered r.syncs r.syncPieces ∅ ∧
        (v.hear (mail ++ [m])).entities = r.shown.first 576 := by
  rcases hm with ⟨s, hs, hm⟩ | hm
  · obtain ⟨i, hi⟩ := Room.mem_fullList.1 hm
    obtain ⟨q, now⟩ := m
    obtain rfl : s.fragment i = q := hi
    have hawaited : Awaits rooms v mail s →
        Stands rooms v (mail ++ [(s.fragment i, now)]) ∧
        ∀ k, (v.hear mail).completes? (s.fragment i).encode = some k →
          ∃ r, r.syncs = k ∧ Follows rooms v (mail ++ [(s.fragment i, now)]) r ∧
            (v.hear (mail ++ [(s.fragment i, now)])).assembly =
              gathered r.syncs r.syncPieces ∅ ∧
            (v.hear (mail ++ [(s.fragment i, now)])).entities = r.shown.first 576 := by
      intro ha
      obtain ⟨hnext, hshown⟩ := ha.fragment i now
      exact ⟨.inr ⟨s, hnext⟩, fun k hk => ⟨s, (hshown k hk).1, hnext, (hshown k hk).2⟩⟩
    rcases h with hsilent | ⟨r, hr⟩
    · exact hawaited (hsilent.awaits hs)
    · rcases Std.lt_trichotomy s.syncs r.syncs with hlt | heq | hgt
      · obtain ⟨hnone, hnext⟩ := hr.older hlt i now
        exact ⟨.inr ⟨r, hnext⟩, fun k hk => absurd (hnone.symm.trans hk) (by simp)⟩
      · exact hawaited (eq_of_syncs_eq hrise hs hr.mem heq ▸ hr.toAwaits)
      · exact hawaited (hr.awaits_newer hs hgt)
  · refine ⟨?_, fun k hk => absurd ((completes?_news hm).symm.trans hk) (by simp)⟩
    exact h.imp (fun hsilent => hsilent.snoc hm) fun ⟨r, hr⟩ => ⟨r, hr.news hm⟩

/-- Whatever comes, in whichever order. -/
lemma stands_of_sent (hrise : rooms.Pairwise fun r s => r.syncs < s.syncs)
    (hv : v.assembly.sync = none) (hmail : ∀ q ∈ mail.map (·.1), Sent rooms q) :
    Stands rooms v mail := by
  induction mail using List.reverseRecOn with
  | nil => exact .inl ⟨hv, nofun, rfl⟩
  | append_singleton mail m ih =>
    rw [List.map_append, List.forall_mem_append] at hmail
    exact ((ih hmail.1).snoc hrise (hmail.2 m.1 (by simp))).1

/-- As long as nothing of a newer list comes, the list stays the newest. -/
lemma Follows.stays (hrise : rooms.Pairwise fun r s => r.syncs < s.syncs)
    (h : Follows rooms v [] r) (hmail : ∀ q ∈ mail.map (·.1), Sent rooms q)
    (hlatest : Latest rooms (mail.map (·.1)) r) : Follows rooms v mail r := by
  induction mail using List.reverseRecOn with
  | nil => exact h
  | append_singleton mail m ih =>
    rw [List.map_append] at hmail hlatest
    rw [List.forall_mem_append] at hmail
    have hfollows := ih hmail.1 fun s hs q hq => hlatest s hs q (List.mem_append_left _ hq)
    rcases hmail.2 m.1 (by simp) with ⟨s, hs, hm⟩ | hm
    · have hle := hlatest s hs m.1 (by simp) hm
      obtain ⟨i, hi⟩ := Room.mem_fullList.1 hm
      obtain ⟨q, now⟩ := m
      obtain rfl : s.fragment i = q := hi
      rcases UInt32.lt_or_eq_of_le hle with hlt | heq
      · exact (hfollows.older hlt i now).2
      · obtain rfl := eq_of_syncs_eq hrise hs h.mem heq
        exact (hfollows.toAwaits.fragment i now).1
    · exact hfollows.news hm

/-- A list that has just become complete becomes so again if all of it comes. -/
lemma mem_completions (hrise : rooms.Pairwise fun r s => r.syncs < s.syncs) (hr : r ∈ rooms)
    (hv : v.assembly = gathered r.syncs r.syncPieces ∅)
    (hmail : ∀ q ∈ mail.map (·.1), Sent rooms q) (hlatest : Latest rooms (mail.map (·.1)) r)
    (hall : ∀ q ∈ r.fullList, q ∈ mail.map (·.1)) : r.syncs ∈ v.completions mail := by
  have hempty : r.received (([] : List (Packet × UInt32)).map (·.1)) = ∅ :=
    Room.received_eq_empty nofun
  have hstart : Follows rooms v [] r := by
    refine ⟨⟨hr, nofun, .nil, nofun, fun _ => .nil, [], .inl ⟨rfl, nofun⟩, ?_, ?_⟩, hv ▸ rfl⟩
    · rw [hempty]
      exact Room.not_full_empty
    · rw [hempty]
      exact .inl hv
  obtain ⟨since, hsince, hmissing, -⟩ := (hstart.stays hrise hmail hlatest).round
  rcases hsince with ⟨rfl, -⟩ | ⟨before, m, rfl, hm⟩
  · exact absurd (Room.full_received.2 hall) hmissing
  · rw [completions_append, completions, hm]
    simp

/-- What makes a list complete shows it as the room sent it, and is the newest that has come. -/
lemma shown_when_complete (hrise : rooms.Pairwise fun r s => r.syncs < s.syncs)
    (hv : v.assembly.sync = none) {rest : List (Packet × UInt32)}
    (hmail : ∀ q ∈ (mail ++ m :: rest).map (·.1), Sent rooms q) {k : UInt32}
    (hk : (v.hear mail).completes? m.1.encode = some k) :
    ∃ r, r.syncs = k ∧ Follows rooms v (mail ++ [m]) r ∧
      (v.hear (mail ++ [m])).assembly = gathered r.syncs r.syncPieces ∅ ∧
      (v.hear (mail ++ [m])).entities = r.shown.first 576 := by
  rw [List.map_append, List.forall_mem_append] at hmail
  exact ((stands_of_sent hrise hv hmail.1).snoc hrise (hmail.2 m.1 (by simp))).2 k hk

/-- **Full lists become complete in order.** Rooms send full lists under rising numbers, and their
datagrams come in any order, some of them twice and some not at all. The numbers of the lists that
become complete never fall, and what is shown with each is what the room sent. A number comes twice
just when, after its list was complete, the whole list comes once more before anything of a newer
one. -/
theorem completions_never_fall {rooms : List Room}
    (hrise : rooms.Pairwise fun r s => r.syncs < s.syncs) {v : View}
    (hv : v.assembly.sync = none) {mail : List (Packet × UInt32)}
    (hmail : ∀ q ∈ mail.map (·.1), Sent rooms q) :
    (v.completions mail).Pairwise (· ≤ ·) ∧
    ((v.completions mail).Pairwise (· < ·) ↔ ¬ ComesAgain rooms v mail) ∧
    ∀ front m rest, mail = front ++ m :: rest →
      ∀ k, (v.hear front).completes? m.1.encode = some k →
        ∃ r ∈ rooms, r.syncs = k ∧ Latest rooms ((front ++ [m]).map (·.1)) r ∧
          (v.hear (front ++ [m])).entities = r.shown.first 576 := by
  refine ⟨?_, ⟨fun hlt hagain => ?_, fun hnot => ?_⟩, fun front m rest h k hk => ?_⟩
  · rcases stands_of_sent hrise hv hmail with h | ⟨r, h⟩
    · simp [h.none]
    · exact h.ordered
  · obtain ⟨r, hr, before, m, since, rest, rfl, hm, hall, hlatest⟩ := hagain
    have hwhole : ∀ q ∈ (before ++ m :: (since ++ rest)).map (·.1), Sent rooms q := by
      simpa using hmail
    obtain ⟨s, hsr, hs, hdone, -⟩ := shown_when_complete hrise hv hwhole hm
    obtain rfl := eq_of_syncs_eq hrise hs.mem hr hsr
    have hsent : ∀ q ∈ since.map (·.1), Sent rooms q := fun q hq =>
      hmail q (by simp only [List.map_append, List.map_cons, List.mem_append, List.mem_cons]; tauto)
    have hagain := mem_completions hrise hr hdone hsent hlatest hall
    have hsplit : before ++ m :: since ++ rest = before ++ [m] ++ (since ++ rest) := by simp
    rw [hsplit, completions_append, completions_append _ rest, completions_snoc, hm]
      at hlt
    have hself := (List.pairwise_append.1 hlt).2.2 s.syncs (by simp) s.syncs
      (List.mem_append_left _ hagain)
    exact UInt32.lt_irrefl _ hself
  · rcases stands_of_sent hrise hv hmail with h | ⟨r, h⟩
    · simp [h.none]
    · exact h.strict hnot
  · obtain ⟨r, hrk, hr, -, hshown⟩ := shown_when_complete hrise hv (h ▸ hmail) hk
    exact ⟨r, hr.mem, hrk, hr.latest, hshown⟩

end View

/-- A room with one entity, which has sent one list. -/
def Room.lone : Room :=
  { Room.create 1 {} 0 with
    syncs := 1
    entities := .ofList [(7, ⟨.enemy, shipSpawn, 0, 0, 32, 32, false⟩)] }

/-- Its list comes, then the end of the entity, then the list once more. -/
def Room.echo : List (Packet × UInt32) :=
  lone.fullList.map (·, 0) ++ [(.removal ⟨7⟩, 10)] ++ lone.fullList.map (·, 20)

/-- A player to whom nothing has come yet. -/
def View.blank : View := { player := 1 }

/-- A list of one fragment that comes twice is complete twice. -/
theorem lone_list_comes_again :
    [Room.lone].Pairwise (fun r s => r.syncs < s.syncs) ∧
    View.blank.assembly.sync = none ∧ (∀ q ∈ Room.echo.map (·.1), View.Sent [Room.lone] q) ∧
    (View.blank.completions Room.echo).Pairwise (· ≤ ·) ∧
    View.ComesAgain [Room.lone] .blank Room.echo := by
  have hrise : [Room.lone].Pairwise fun r s => r.syncs < s.syncs := List.pairwise_singleton _ _
  have hsent : ∀ q ∈ Room.echo.map (·.1), View.Sent [Room.lone] q := by
    have h : ∀ q ∈ Room.echo.map (·.1), q ∈ Room.lone.fullList ∨ q = .removal ⟨7⟩ := by
      decide +kernel
    intro q hq
    refine (h q hq).imp (fun hq => ⟨_, List.mem_singleton_self _, hq⟩) ?_
    rintro rfl _ _ ⟨⟩
  obtain ⟨hle, hlt, -⟩ := View.completions_never_fall hrise (v := .blank) rfl hsent
  refine ⟨hrise, rfl, hsent, hle, not_not.1 (mt hlt.2 ?_)⟩
  decide +kernel

/-- The entity is gone, and is shown again. -/
theorem removed_entity_returns :
    View.blank.completions Room.echo = [1, 1] ∧
    ¬ (View.blank.completions Room.echo).Pairwise (· < ·) ∧
    (View.blank.hear (Room.echo.take 2)).entities.find? 7 = none ∧
    (View.blank.hear Room.echo).entities.find? 7 = some ⟨.enemy, shipSpawn⟩ := by
  decide +kernel

end CoopShooter
