import Mathlib
import CoopShooter.Proofs.Play.FullList

/-!
Full lists on their way to a player, one after the other: fragments are lost, come twice, come out
of order, and those of one list come between those of another.
-/

namespace CoopShooter

open SyncAssembly

namespace Room

variable {r s : Room} {front : List Packet} {q : Packet}

/-- The datagrams with which a room sends its full list, under the number of its last one. -/
def fullList (r : Room) : List Packet := r.syncPackets r.syncs

def fragment (r : Room) (i : Fin r.syncPieces.length) : Packet :=
  .sync (fragmentHeader r.syncs r.syncPieces.length i r.syncPieces[i]) r.syncPieces[i]

lemma mem_fullList : q ∈ r.fullList ↔ ∃ i, r.fragment i = q := by
  rw [fullList, syncPackets_eq, fragmentPackets, List.mem_mapIdx]
  constructor
  · rintro ⟨i, hi, h⟩
    exact ⟨⟨i, hi⟩, h⟩
  · rintro ⟨i, h⟩
    exact ⟨i, i.2, h⟩

lemma syncs_eq_of_mem_fullList (hr : q ∈ r.fullList) (hs : q ∈ s.fullList) :
    r.syncs = s.syncs := by
  obtain ⟨i, rfl⟩ := mem_fullList.1 hr
  obtain ⟨j, hj⟩ := mem_fullList.1 hs
  simp only [fragment, fragmentHeader, Packet.sync.injEq, SyncHeader.mk.injEq] at hj
  exact hj.1.1.symm

lemma fragment_injective : Function.Injective r.fragment := by
  have hmax : maxFragments = 8 := rfl
  have hn := r.length_syncPieces_le
  intro i j hij
  simp only [fragment, fragmentHeader, Packet.sync.injEq, SyncHeader.mk.injEq] at hij
  have hindex := congrArg (·.toUInt32.toNat) hij.1.2.1
  simp only [toNat_index (show i.1 < 256 by omega), toNat_index (show j.1 < 256 by omega)] at hindex
  exact Fin.ext hindex

/-- The numbers of the fragments that are among some datagrams. -/
def received (r : Room) (front : List Packet) : Finset ℕ :=
  (Finset.univ.filter fun i => r.fragment i ∈ front).image Fin.val

lemma mem_received {i : ℕ} : i ∈ r.received front ↔ ∃ hi, r.fragment ⟨i, hi⟩ ∈ front := by
  simp only [received, Finset.mem_image, Finset.mem_filter, Finset.mem_univ, true_and]
  constructor
  · rintro ⟨j, hj, rfl⟩
    exact ⟨j.2, hj⟩
  · rintro ⟨hi, h⟩
    exact ⟨⟨i, hi⟩, h, rfl⟩

lemma received_snoc (i : Fin r.syncPieces.length) :
    r.received (front ++ [r.fragment i]) = insert i.1 (r.received front) := by
  ext j
  simp only [mem_received, Finset.mem_insert, List.mem_append, List.mem_singleton,
    fragment_injective.eq_iff, Fin.ext_iff]
  constructor
  · rintro ⟨hj, h | h⟩
    · exact .inr ⟨hj, h⟩
    · exact .inl h
  · rintro (rfl | ⟨hj, h⟩)
    · exact ⟨i.2, .inr rfl⟩
    · exact ⟨hj, .inl h⟩

lemma received_snoc_of_not_mem (hq : q ∉ r.fullList) :
    r.received (front ++ [q]) = r.received front := by
  ext j
  have hne (hj : j < r.syncPieces.length) : r.fragment ⟨j, hj⟩ ≠ q :=
    fun h => hq (mem_fullList.2 ⟨_, h⟩)
  simp [mem_received, hne]

lemma full_received :
    Full r.syncPieces.length (r.received front) ↔ ∀ q ∈ r.fullList, q ∈ front := by
  constructor
  · intro h q hq
    obtain ⟨i, rfl⟩ := mem_fullList.1 hq
    exact (mem_received.1 (h i i.2)).2
  · exact fun h i hi => mem_received.2 ⟨hi, h _ (mem_fullList.2 ⟨_, rfl⟩)⟩

end Room

namespace View

variable {v : View} (now : UInt32) {r : Room} {q : Packet}

/-- The number of the full list that bytes from the server make complete, if they do. -/
def completes? (v : View) (bs : Bytes) : Option UInt32 :=
  match Packet.decode? (bs.take maxDatagram) with
  | some (.sync h es) => if (v.applySync h es).1 then some h.sync else none
  | _ => none

/-- Takes in datagrams as bytes, each at its time. -/
def hear (v : View) (mail : List (Packet × UInt32)) : View :=
  mail.foldl (fun v m => v.deliver m.2 m.1.encode) v

lemma hear_snoc (mail : List (Packet × UInt32)) (m : Packet × UInt32) :
    v.hear (mail ++ [m]) = (v.hear mail).deliver m.2 m.1.encode := by
  simp [hear, List.foldl_append]

lemma completes?_fragment (i : Fin r.syncPieces.length) :
    v.completes? (r.fragment i).encode =
      if (v.applySync (fragmentHeader r.syncs r.syncPieces.length i r.syncPieces[i])
        r.syncPieces[i]).1 then some r.syncs else none := by
  have hfits := r.fits_syncPackets r.syncs _ (Room.mem_fullList.2 ⟨i, rfl⟩)
  rw [completes?, List.take_of_length_le (Packet.length_encode_le hfits),
    Packet.decode?_encode hfits]
  rfl

lemma deliver_fragment (i : Fin r.syncPieces.length) :
    v.deliver now (r.fragment i).encode =
      (v.applySync (fragmentHeader r.syncs r.syncPieces.length i r.syncPieces[i])
        r.syncPieces[i]).2 :=
  deliver_encode v now (r.fits_syncPackets r.syncs _ (Room.mem_fullList.2 ⟨i, rfl⟩))

lemma applySync_fragment {got : Finset ℕ} (hv : v.assembly.Gathers r.syncs r.syncPieces got)
    (i : Fin r.syncPieces.length) :
    v.applySync (fragmentHeader r.syncs r.syncPieces.length i r.syncPieces[i]) r.syncPieces[i] =
      if Full r.syncPieces.length (insert i.1 got) then
        (true, { v with
          assembly := gathered r.syncs r.syncPieces ∅
          entities := r.shown.first 576 })
      else (false, { v with assembly := gathered r.syncs r.syncPieces (insert i.1 got) }) := by
  have hall : r.shown.first 576 = sightings r.syncPieces.flatten := by
    rw [r.flatten_syncPieces, r.sightings_syncEntries]
    rfl
  rw [hall]
  exact applySync_gathers hv i.2 r.length_syncPieces_le

end View

/-! ### Lists of several numbers -/

section
variable {rooms : List Room} {front : List Packet} {r s : Room} {v : View} (now : UInt32)

lemma eq_of_syncs_eq (hrise : rooms.Pairwise fun r s => r.syncs < s.syncs) (hr : r ∈ rooms)
    (hs : s ∈ rooms) (h : r.syncs = s.syncs) : r = s := by
  have hnodup : (rooms.map (·.syncs)).Nodup :=
    List.pairwise_map.2 (hrise.imp fun h => UInt32.ne_of_lt h)
  exact List.inj_on_of_nodup_map hnodup hr hs h

/-- No fragment has come of a list after the room's. -/
def Latest (rooms : List Room) (front : List Packet) (r : Room) : Prop :=
  ∀ s ∈ rooms, ∀ q ∈ front, q ∈ s.fullList → s.syncs ≤ r.syncs

lemma Latest.snoc (h : Latest rooms front r) (hle : s.syncs ≤ r.syncs)
    (i : Fin s.syncPieces.length) : Latest rooms (front ++ [s.fragment i]) r := by
  intro t ht q hq hqt
  rcases List.mem_append.1 hq with hq | hq
  · exact h t ht q hq hqt
  · rw [List.mem_singleton.1 hq] at hqt
    rwa [Room.syncs_eq_of_mem_fullList hqt (Room.mem_fullList.2 ⟨i, rfl⟩)]

/-- Of the last list of which anything has come, some fragments are there, and of no other list. -/
def UnderWay (rooms : List Room) (front : List Packet) (v : View) : Prop :=
  (front = [] ∧ v.assembly.sync = none) ∨
    ∃ r ∈ rooms, Latest rooms front r ∧
      ∃ got, v.assembly = gathered r.syncs r.syncPieces got

/-- A fragment comes too late, or it is one of the list that is under way or of a new one. -/
lemma UnderWay.stale_or_gathers (hrise : rooms.Pairwise fun r s => r.syncs < s.syncs)
    (hv : UnderWay rooms front v) (hs : s ∈ rooms) :
    (∃ r ∈ rooms, s.syncs < r.syncs ∧ Latest rooms front r ∧
        ∃ got, v.assembly = gathered r.syncs r.syncPieces got) ∨
      Latest rooms front s ∧ ∃ got, v.assembly.Gathers s.syncs s.syncPieces got := by
  rcases hv with ⟨rfl, hnone⟩ | ⟨r, hr, hlatest, got, hgot⟩
  · exact .inr ⟨fun _ _ _ hq => (nomatch hq), ∅, .inr ⟨rfl, by simp [hnone]⟩⟩
  rcases Std.lt_trichotomy s.syncs r.syncs with hlt | heq | hgt
  · exact .inl ⟨r, hr, hlt, hlatest, got, hgot⟩
  · obtain rfl := eq_of_syncs_eq hrise hs hr heq
    exact .inr ⟨hlatest, got, .inl hgot⟩
  · have hnew : ∀ k, v.assembly.sync = some k → k < s.syncs := by
      intro k hk
      rw [hgot] at hk
      exact Option.some.inj hk ▸ hgt
    exact .inr ⟨fun t ht q hq hqt => UInt32.le_trans (hlatest t ht q hq hqt) (UInt32.le_of_lt hgt),
      ∅, .inr ⟨rfl, hnew⟩⟩

/-- One fragment more: what it completes is shown as it was sent, and what it does not complete
does not show. -/
lemma UnderWay.deliver (hrise : rooms.Pairwise fun r s => r.syncs < s.syncs)
    (hv : UnderWay rooms front v) (hs : s ∈ rooms) (i : Fin s.syncPieces.length) :
    UnderWay rooms (front ++ [s.fragment i]) (v.deliver now (s.fragment i).encode) ∧
      match v.completes? (s.fragment i).encode with
      | none => (v.deliver now (s.fragment i).encode).entities = v.entities
      | some k => ∃ r ∈ rooms, r.syncs = k ∧ Latest rooms (front ++ [s.fragment i]) r ∧
          (v.deliver now (s.fragment i).encode).entities = r.shown.first 576 := by
  rw [View.deliver_fragment, View.completes?_fragment]
  rcases hv.stale_or_gathers hrise hs with ⟨r, hr, hlt, hlatest, got, hgot⟩ | ⟨hlatest, got, hgot⟩
  · have hsync : v.assembly.sync = some r.syncs := by rw [hgot, gathered]
    rw [View.applySync_stale hsync hlt]
    exact ⟨.inr ⟨r, hr, hlatest.snoc (UInt32.le_of_lt hlt) i, got, hgot⟩, rfl⟩
  · have hsnoc := hlatest.snoc (UInt32.le_refl _) i
    rw [View.applySync_fragment hgot i]
    by_cases hfull : Full s.syncPieces.length (insert i.1 got)
    · rw [if_pos hfull]
      exact ⟨.inr ⟨s, hs, hsnoc, ∅, rfl⟩, s, hs, rfl, hsnoc, rfl⟩
    · rw [if_neg hfull]
      exact ⟨.inr ⟨s, hs, hsnoc, _, rfl⟩, rfl⟩

/-- Whatever has come of the lists, in whichever order, the last of them is under way. -/
lemma underWay_hear (hrise : rooms.Pairwise fun r s => r.syncs < s.syncs)
    (hv : v.assembly.sync = none) {mail : List (Packet × UInt32)}
    (hmail : ∀ q ∈ mail.map (·.1), ∃ r ∈ rooms, q ∈ r.fullList) :
    UnderWay rooms (mail.map (·.1)) (v.hear mail) := by
  induction mail using List.reverseRecOn with
  | nil => exact .inl ⟨rfl, hv⟩
  | append_singleton mail m ih =>
    rw [List.map_append, List.forall_mem_append] at hmail
    obtain ⟨r, hr, hm⟩ := hmail.2 m.1 (by simp)
    obtain ⟨i, hi⟩ := Room.mem_fullList.1 hm
    rw [View.hear_snoc, List.map_append, List.map_singleton, ← hi]
    exact ((ih hmail.1).deliver m.2 hrise hr i).1

lemma gathers_older {got : Finset ℕ} (hv : v.assembly.Gathers r.syncs r.syncPieces got)
    (hlt : s.syncs < r.syncs) (i : Fin s.syncPieces.length) :
    (v.deliver now (s.fragment i).encode).assembly.Gathers r.syncs r.syncPieces got := by
  rw [View.deliver_fragment, View.assembly_applySync]
  exact hv.accept_older hlt _

/-- As long as a list is not complete, exactly those of its fragments are there that have come. -/
lemma gathers_hear (hv : v.assembly.Gathers r.syncs r.syncPieces ∅)
    {mail : List (Packet × UInt32)} (hmail : ∀ q ∈ mail.map (·.1),
      q ∈ r.fullList ∨ ∃ s ∈ rooms, s.syncs < r.syncs ∧ q ∈ s.fullList)
    (hmissing : ∃ q ∈ r.fullList, q ∉ mail.map (·.1)) :
    (v.hear mail).assembly.Gathers r.syncs r.syncPieces (r.received (mail.map (·.1))) := by
  induction mail using List.reverseRecOn with
  | nil => simpa [Room.received, View.hear] using hv
  | append_singleton mail m ih =>
    rw [List.map_append, List.map_singleton] at hmail hmissing ⊢
    rw [List.forall_mem_append] at hmail
    obtain ⟨p, hp, hnot⟩ := hmissing
    have hgathers := ih hmail.1 ⟨p, hp, fun h => hnot (List.mem_append_left _ h)⟩
    rw [View.hear_snoc]
    rcases hmail.2 m.1 (by simp) with hm | ⟨s, -, hlt, hm⟩
    · -- the fragment is new or not, but it is not the last one: one is still missing
      obtain ⟨i, hi⟩ := Room.mem_fullList.1 hm
      rw [← hi] at hnot ⊢
      have hfull : ¬ Full r.syncPieces.length (insert i.1 (r.received (mail.map (·.1)))) := by
        rw [← Room.received_snoc, Room.full_received]
        exact fun h => hnot (h p hp)
      rw [View.deliver_fragment, View.applySync_fragment hgathers i, if_neg hfull,
        Room.received_snoc]
      exact .inl rfl
    · have hne : m.1 ∉ r.fullList := fun h =>
        UInt32.ne_of_lt hlt (Room.syncs_eq_of_mem_fullList hm h)
      obtain ⟨i, hi⟩ := Room.mem_fullList.1 hm
      rw [Room.received_snoc_of_not_mem hne, ← hi]
      exact gathers_older m.2 hgathers hlt i

/-- A list that is not complete is completed by the last of its fragments, and by nothing else. -/
lemma shown_with_last (hv : v.assembly.Gathers r.syncs r.syncPieces ∅)
    {mail : List (Packet × UInt32)} {m : Packet × UInt32}
    (hmail : ∀ q ∈ (mail ++ [m]).map (·.1),
      q ∈ r.fullList ∨ ∃ s ∈ rooms, s.syncs < r.syncs ∧ q ∈ s.fullList)
    (hmissing : ∃ q ∈ r.fullList, q ∉ mail.map (·.1)) :
    ((v.hear mail).completes? m.1.encode = some r.syncs ↔
        ∀ q ∈ r.fullList, q ∈ (mail ++ [m]).map (·.1)) ∧
      ((v.hear mail).completes? m.1.encode = some r.syncs →
        (v.hear (mail ++ [m])).entities = r.shown.first 576 ∧
        (v.hear (mail ++ [m])).assembly = gathered r.syncs r.syncPieces ∅) := by
  rw [List.map_append, List.map_singleton] at hmail ⊢
  rw [List.forall_mem_append] at hmail
  have hgathers := gathers_hear hv hmail.1 hmissing
  rw [View.hear_snoc]
  rcases hmail.2 m.1 (by simp) with hm | ⟨s, -, hlt, hm⟩
  · obtain ⟨i, hi⟩ := Room.mem_fullList.1 hm
    rw [← hi, View.completes?_fragment, View.deliver_fragment, View.applySync_fragment hgathers i,
      ← Room.received_snoc, ← Room.full_received]
    by_cases hfull : Full r.syncPieces.length (r.received (mail.map (·.1) ++ [r.fragment i])) <;>
      simp [hfull]
  · -- a fragment of an older list can only complete that list
    have hne := UInt32.ne_of_lt hlt
    have hother : (v.hear mail).completes? m.1.encode ≠ some r.syncs := by
      obtain ⟨i, hi⟩ := Room.mem_fullList.1 hm
      rw [← hi, View.completes?_fragment]
      split_ifs
      · exact fun h => hne (Option.some.inj h)
      · simp
    refine ⟨iff_of_false hother fun hall => ?_, fun h => absurd h hother⟩
    obtain ⟨p, hp, hnot⟩ := hmissing
    rcases List.mem_append.1 (hall p hp) with h | h
    · exact hnot h
    · rw [List.mem_singleton.1 h] at hp
      exact hne (Room.syncs_eq_of_mem_fullList hm hp)

end

/-- **Full lists are shown whole or not at all.** Rooms send full lists under rising numbers. Every
datagram is small enough and can be read. What a player takes for a full list, whichever fragments
have come, how often, and in which order, is the list of one room, with the room's first 576
entities, and there is none of a later number among what has come. And a list that is newer than all
that came before is shown just when the last of its fragments has come. -/
theorem full_lists_are_shown_whole {rooms : List Room}
    (hrise : rooms.Pairwise fun r s => r.syncs < s.syncs) :
    (∀ r ∈ rooms, ∀ p ∈ r.fullList, p.encode.length ≤ 1024 ∧ Packet.decode? p.encode = some p) ∧
    (∀ r ∈ rooms, (r.shown.first 576).size = min r.entities.size 576 ∧
      (r.entities.size ≤ 576 → r.shown.first 576 = r.shown)) ∧
    (∀ (v : View) (mail : List (Packet × UInt32)) (m : Packet × UInt32),
      v.assembly.sync = none →
      (∀ q ∈ (mail ++ [m]).map (·.1), ∃ r ∈ rooms, q ∈ r.fullList) →
      match (v.hear mail).completes? m.1.encode with
      | none => (v.hear (mail ++ [m])).entities = (v.hear mail).entities
      | some k => ∃ r ∈ rooms, r.syncs = k ∧ Latest rooms ((mail ++ [m]).map (·.1)) r ∧
          (v.hear (mail ++ [m])).entities = r.shown.first 576) ∧
    ∀ r ∈ rooms, ∀ (v : View) (mail : List (Packet × UInt32)) (m : Packet × UInt32),
      ((∀ k, v.assembly.sync = some k → k < r.syncs) ∨
        v.assembly = .gathered r.syncs r.syncPieces ∅) →
      (∀ q ∈ (mail ++ [m]).map (·.1),
        q ∈ r.fullList ∨ ∃ s ∈ rooms, s.syncs < r.syncs ∧ q ∈ s.fullList) →
      (∃ q ∈ r.fullList, q ∉ mail.map (·.1)) →
      ((v.hear mail).completes? m.1.encode = some r.syncs ↔
        ∀ q ∈ r.fullList, q ∈ (mail ++ [m]).map (·.1)) ∧
      ((v.hear mail).completes? m.1.encode = some r.syncs →
        (v.hear (mail ++ [m])).entities = r.shown.first 576 ∧
        (v.hear (mail ++ [m])).assembly = .gathered r.syncs r.syncPieces ∅) := by
  refine ⟨fun r _ p hp => ?_, fun r _ => ⟨?_, fun hle => ?_⟩, fun v mail m hv hmail => ?_,
    fun r hr v mail m hv hmail hmissing => ?_⟩
  · have hfits := r.fits_syncPackets r.syncs p hp
    exact ⟨Packet.length_encode_le hfits, Packet.decode?_encode hfits⟩
  · rw [IdMap.size_first, r.size_shown]
  · exact IdMap.first_of_size_le (r.size_shown.trans_le hle)
  · rw [List.map_append, List.map_singleton] at hmail ⊢
    rw [List.forall_mem_append] at hmail
    obtain ⟨s, hs, hm⟩ := hmail.2 m.1 (by simp)
    obtain ⟨i, hi⟩ := Room.mem_fullList.1 hm
    rw [View.hear_snoc, ← hi]
    exact ((underWay_hear hrise hv hmail.1).deliver m.2 hrise hs i).2
  · have hgathers : v.assembly.Gathers r.syncs r.syncPieces ∅ := by
      rcases hv with hold | hnone
      · exact .inr ⟨rfl, hold⟩
      · exact .inl hnone
    exact shown_with_last hgathers hmail hmissing

/-- A room that has sent one list, of nothing. -/
def Room.quiet : Room := { Room.create 1 {} 0 with syncs := 1 }

/-- The same room later: there is one entity more than fits into a fragment. -/
def Room.crowded : Room :=
  { Room.create 1 {} 0 with
    syncs := 2
    entities := .ofList ((List.range 73).map fun i =>
      (UInt32.ofNat i, ⟨.enemy, shipSpawn, 0, 0, 32, 32, false⟩)) }

/-- The second fragment comes first and comes again, and the old list comes in between. -/
def Room.muddle : List (Packet × UInt32) :=
  (crowded.fullList.drop 1 ++ quiet.fullList ++ crowded.fullList.drop 1).map fun q => (q, 20)

/-- With the first fragment, a new player sees all of the crowd. -/
theorem crowd_is_shown :
    Room.crowded.fullList.length = 2 ∧ ∃ q ∈ Room.crowded.fullList,
      (View.hear { player := 7 } (Room.muddle ++ [(q, 30)])).entities = Room.crowded.shown := by
  have hrise : [Room.quiet, .crowded].Pairwise fun r s => r.syncs < s.syncs := by decide +kernel
  obtain ⟨-, hsize, -, hlast⟩ := full_lists_are_shown_whole hrise
  have hmuddle : ∃ q ∈ Room.crowded.fullList, q ∉ Room.muddle.map (·.1) ∧
      (∀ p ∈ (Room.muddle ++ [(q, (30 : UInt32))]).map (·.1), p ∈ Room.crowded.fullList ∨
        ∃ s ∈ [Room.quiet, .crowded], s.syncs < Room.crowded.syncs ∧ p ∈ s.fullList) ∧
      ∀ p ∈ Room.crowded.fullList, p ∈ (Room.muddle ++ [(q, (30 : UInt32))]).map (·.1) := by
    decide +kernel
  obtain ⟨q, hq, hnew, hmail, hall⟩ := hmuddle
  obtain ⟨hiff, hshown⟩ := hlast .crowded (by simp) { player := 7 } Room.muddle (q, 30)
    (.inl nofun) hmail ⟨q, hq, hnew⟩
  refine ⟨by decide +kernel, q, hq, ?_⟩
  rw [(hshown (hiff.2 hall)).1]
  exact (hsize .crowded (by simp)).2 (by decide +kernel)

end CoopShooter
