import Mathlib
import CoopShooter.Proofs.Play.Mirror
import CoopShooter.Proofs.Play.News
import CoopShooter.Proofs.Play.Repeats

/-!
Reports on a ship and full lists are numbered: a tick that sends one counts up a word of the room's,
and the view keeps the greatest number it has seen and takes only what is greater for news. Both
numbers are counted and kept in the same way; after a run that a player hears, the view's number is
the greatest of those that the room has come to, be they as many as there are words or more.
-/

namespace CoopShooter

/-! ### The greatest number -/

/-- The greatest number so far, with one more. -/
def newer (last : Option UInt32) (k : UInt32) : Option UInt32 :=
  if last.any (k ≤ ·) then last else some k

lemma newer_newer (last : Option UInt32) (k : UInt32) :
    newer (newer last k) k = newer last k := by
  have hself : newer (some k) k = some k := by simp [newer]
  by_cases h : last.any (k ≤ ·) = true
  · have hlast : newer last k = last := if_pos h
    rw [hlast, hlast]
  · have hlast : newer last k = some k := if_neg h
    rw [hlast, hself]

/-- The greatest number among the first so many, counted in words from one on. -/
def greatest (count : Nat) : Option UInt32 :=
  if count = 0 then none else some (.ofNat (min count (UInt32.size - 1)))

lemma toNat_of_greatest {count : Nat} {k : UInt32} (h : greatest count = some k) :
    k.toNat = min count (UInt32.size - 1) := by
  have hsize : UInt32.size = 4294967296 := rfl
  unfold greatest at h
  split_ifs at h
  obtain rfl := Option.some.inj h
  exact UInt32.toNat_ofNat_of_lt' (by omega)

/-- The next number is no news once all numbers have been there. -/
lemma any_greatest (count : Nat) :
    (greatest count).any (UInt32.ofNat (count + 1) ≤ ·) = decide (UInt32.size ≤ count + 1) := by
  have hsize : UInt32.size = 4294967296 := rfl
  rcases hk : greatest count with _ | k
  · have hzero : count = 0 := by
      unfold greatest at hk
      split_ifs at hk with h0
      exact h0
    simp [hzero, hsize]
  · have hlast := toNat_of_greatest hk
    rw [Option.any_some, decide_eq_decide, UInt32.le_iff_toNat_le, hlast, UInt32.toNat_ofNat']
    rcases Nat.lt_or_ge (count + 1) UInt32.size with hlt | hge
    · rw [Nat.mod_eq_of_lt hlt]
      omega
    · have hmod : (count + 1) % UInt32.size < UInt32.size := Nat.mod_lt _ (by omega)
      omega

lemma newer_greatest (count : Nat) :
    newer (greatest count) (.ofNat (count + 1)) = greatest (count + 1) := by
  have hsize : UInt32.size = 4294967296 := rfl
  rw [newer, any_greatest]
  by_cases hround : UInt32.size ≤ count + 1
  · rw [decide_eq_true hround, if_pos rfl, greatest, greatest, if_neg (by omega), if_neg (by omega),
      min_eq_right (by omega), min_eq_right (by omega)]
  · rw [decide_eq_false hround, if_neg Bool.false_ne_true, greatest, if_neg (by omega),
      min_eq_left (by omega)]

lemma greatest_succ {count : Nat} (h : UInt32.size ≤ count + 1) :
    greatest (count + 1) = greatest count := by
  rw [← newer_greatest, newer, any_greatest, decide_eq_true h, if_pos rfl]

/-! ### Numbers in a view -/

namespace SyncAssembly

variable {a : SyncAssembly} {h : SyncHeader}

/-- The fragment is taken for one of a list that is not over, and is kept or makes it complete. -/
structure Takes (a : SyncAssembly) (h : SyncHeader) (es : List SyncEntry) : Prop where
  sync : (a.accept h es).2.sync = some h.sync
  kept : (a.accept h es).1.isSome = true ∨
    (a.accept h es).2.fragments.find? h.index.toUInt32 = some es

lemma kept_add (a : SyncAssembly) (i : UInt8) (es : List SyncEntry) :
    (a.add i es).1.isSome = true ∨ (a.add i es).2.fragments.find? i.toUInt32 = some es := by
  simp only [add]
  split_ifs
  · exact .inr ((IdMap.find?_insert _ _ _ _).trans (if_pos rfl))
  · exact .inl rfl

lemma takes_of_le (hwell : wellFormed h = true) (hle : ∀ k, a.sync = some k → k ≤ h.sync)
    (es : List SyncEntry) : a.Takes h es := by
  rcases hs : a.sync with _ | k
  · have hnew : a.accept h es = (restart h).add h.index es :=
      accept_new hwell (fun k hk => nomatch hs.symm.trans hk) es
    exact ⟨hnew ▸ sync_add _ _ _, hnew ▸ kept_add _ _ _⟩
  · by_cases hlt : k < h.sync
    · have hnew : a.accept h es = (restart h).add h.index es :=
        accept_new hwell (fun k' hk' => Option.some.inj (hs.symm.trans hk') ▸ hlt) es
      exact ⟨hnew ▸ sync_add _ _ _, hnew ▸ kept_add _ _ _⟩
    · have hk : h.sync = k := UInt32.le_antisymm (UInt32.not_lt.1 hlt) (hle k hs)
      subst hk
      have hsame : a.accept h es = a.add h.index es := by
        rw [SyncAssembly.accept, if_pos hwell, hs]
        simp [UInt32.lt_irrefl]
      exact ⟨hsame ▸ (sync_add _ _ _).trans hs, hsame ▸ kept_add _ _ _⟩

lemma sync_accept_eq (a : SyncAssembly) (es : List SyncEntry) :
    (a.accept h es).2.sync = if wellFormed h then newer a.sync h.sync else a.sync := by
  by_cases hwell : wellFormed h = true
  · rw [if_pos hwell, newer]
    rcases hs : a.sync with _ | k
    · exact (takes_of_le hwell (fun k hk => nomatch hs.symm.trans hk) es).sync
    · by_cases hlt : h.sync < k
      · have hany : (some k).any (h.sync ≤ ·) = true := decide_eq_true (UInt32.le_of_lt hlt)
        rw [accept_stale hs hlt, if_pos hany]
        exact hs
      · have hle : k ≤ h.sync := UInt32.not_lt.1 hlt
        rw [(takes_of_le hwell (fun _ hk => Option.some.inj (hs.symm.trans hk) ▸ hle) es).sync]
        split_ifs with hany
        · exact congrArg some (UInt32.le_antisymm (of_decide_eq_true hany) hle)
        · rfl
  · rw [if_neg hwell, SyncAssembly.accept, if_neg hwell]

end SyncAssembly

namespace View

variable {v : View}

lemma player_apply (v : View) (q : Packet) (now : UInt32) : (v.apply q now).player = v.player := by
  cases q with
  | player m =>
    simp only [apply, applyReport]
    split_ifs <;> rfl
  | spawn m =>
    simp only [apply, applySpawn]
    split <;> rfl
  | leave m =>
    simp only [apply, applyLeave]
    split_ifs <;> rfl
  | sync h es =>
    simp only [apply, applySync]
    split <;> rfl
  | _ => rfl

lemma player_applyAll (v : View) (now : UInt32) (ps : List Packet) :
    (v.applyAll now ps).player = v.player := by
  induction ps generalizing v with
  | nil => rfl
  | cons q ps ih => exact (ih (v.apply q now)).trans (v.player_apply q now)

/-- The number of a report on a player's own ship. -/
def reportNumber? (player : UInt32) : Packet → Option UInt32
  | .player m => if m.player = player then some m.sequence else none
  | _ => none

/-- The number of a full list, told by one of its fragments. -/
def listNumber? (_ : UInt32) : Packet → Option UInt32
  | .sync h _ => if SyncAssembly.wellFormed h then some h.sync else none
  | _ => none

lemma lastSequence_apply (v : View) (q : Packet) (now : UInt32) : (v.apply q now).lastSequence =
    (reportNumber? v.player q).elim v.lastSequence (newer v.lastSequence) := by
  cases q with
  | player m =>
    simp only [apply, applyReport, reportNumber?]
    split_ifs with hown hold hgone
    · exact (if_pos hold).symm
    · exact (if_neg hold).symm
    · rfl
    · rfl
  | spawn m =>
    simp only [apply, applySpawn]
    split <;> rfl
  | leave m =>
    simp only [apply, applyLeave]
    split_ifs <;> rfl
  | sync h es =>
    simp only [apply, applySync]
    split <;> rfl
  | _ => rfl

lemma sync_apply (v : View) (q : Packet) (now : UInt32) : (v.apply q now).assembly.sync =
    (listNumber? v.player q).elim v.assembly.sync (newer v.assembly.sync) := by
  cases q with
  | sync h es =>
    change (v.applySync h es).2.assembly.sync = _
    rw [assembly_applySync, SyncAssembly.sync_accept_eq, listNumber?]
    split_ifs <;> rfl
  | _ => exact congrArg SyncAssembly.sync (assembly_apply now fun _ _ => Packet.noConfusion)

end View

/-! ### Numbers in a room -/

namespace Room

variable {r : Room} {p : UInt32} {a : Endpoint} {b : Act} {o : Offer} {dt : Float32} {t : UInt32}

lemma sequence_update (hplay : r.playing = true) (dt : Float32) (t : UInt32) :
    (r.update dt t).state.sequence = r.sequence + 1 := by
  rw [update_playing dt t hplay]
  have hspawned : ((r.ticked dt t).spawnDue dt t).state.sequence = r.sequence + 1 := by
    rcases spawnDue_cases (r.ticked dt t) dt t with ⟨timer, h⟩ | ⟨timer, g, e, h⟩
    · rw [h]
      rfl
    · rw [h]
      rfl
  by_cases hd : ((r.ticked dt t).spawnDue dt t).state.SyncIsDue dt
  · rw [syncDue_due hd]
    exact hspawned
  · rw [syncDue_early hd]
    exact hspawned

/-- A report on anybody's ship comes with a tick, under the number that this tick has. -/
lemma report_step {m : PlayerReport} (ho : o ∈ (r.step b).offers) (hm : o.packet = .player m) :
    (r.step b).state.sequence = r.sequence + 1 ∧ m.sequence = r.sequence + 1 := by
  by_cases hb : r.Ticks b
  · obtain ⟨hplay, dt, t, rfl⟩ := hb
    refine ⟨sequence_update hplay dt t, ?_⟩
    rcases packet_of_mem_update hplay ho with ⟨m', h⟩ | ⟨m', h⟩ | ⟨m', h, hs⟩ | ⟨m', h⟩ | ⟨h, -⟩
    · cases hm.symm.trans h
    · cases hm.symm.trans h
    · cases hm.symm.trans h
      exact hs
    · cases hm.symm.trans h
    · obtain ⟨_, _, h⟩ := sync_of_mem_syncPackets h
      cases hm.symm.trans h
  · rcases (quiet_step hb).2.2 o ho with ⟨m', h⟩ | h | ⟨m', h⟩ <;> cases hm.symm.trans h

/-- A fragment of a list can belong to one, and has the number of the last list. -/
lemma list_step {h : SyncHeader} {es : List SyncEntry} (ho : o ∈ (r.step b).offers)
    (hs : o.packet = .sync h es) : (r.step b).state.syncs = r.syncs + 1 ∧ h.sync = r.syncs + 1 ∧
      SyncAssembly.wellFormed h = true := by
  by_cases hb : r.Ticks b
  · obtain ⟨hplay, dt, t, rfl⟩ := hb
    rcases packet_of_mem_update hplay ho with ⟨m, h⟩ | ⟨m, h⟩ | ⟨m, h, -⟩ | ⟨m, h⟩ | ⟨hmem, hcount⟩
    · cases hs.symm.trans h
    · cases hs.symm.trans h
    · cases hs.symm.trans h
    · cases hs.symm.trans h
    · rw [hs, syncPackets_eq, fragmentPackets, List.mem_mapIdx] at hmem
      obtain ⟨i, hi, hfragment⟩ := hmem
      obtain ⟨rfl, -⟩ := Packet.sync.inj hfragment
      exact ⟨hcount, rfl, SyncAssembly.wellFormed_fragment hi (length_syncPieces_le _)⟩
  · rcases (quiet_step hb).2.2 o ho with ⟨m, h⟩ | h | ⟨m, h⟩ <;> cases hs.symm.trans h

lemma mem_broadcast (hat : r.At p a) (packet : Packet) : ⟨a, packet⟩ ∈ r.broadcast packet := by
  obtain ⟨q, hq, -, haddress⟩ := hat
  exact List.mem_map_of_mem (List.mem_filterMap.2 ⟨q, hq, haddress⟩)

/-- Whoever is known when the game runs on is told of its own ship. -/
lemma own_report_mem (hplay : r.playing = true) (hat : r.At p a) (dt : Float32) (t : UInt32) :
    ∃ m, ⟨a, .player m⟩ ∈ (r.update dt t).offers ∧ m.player = p := by
  have hsettled : (r.settled t).At p a := (at_respawned (respawned_settled r t)).2 hat
  have htold := mem_broadcast hsettled
  obtain ⟨q, hq, rfl, -⟩ := hsettled
  refine ⟨q.reported ((r.settled t).sequence + 1) t, ?_, rfl⟩
  rw [update_playing dt t hplay, report_offers]
  refine List.mem_append_left _ (List.mem_append_left _ (List.mem_append_right _ ?_))
  exact List.mem_flatMap.2 ⟨q, hq, htold _⟩

/-- Whoever is known when a list is sent gets its fragments. -/
lemma list_mem (hplay : r.playing = true) (hat : r.At p a)
    (hcount : (r.update dt t).state.syncs ≠ r.syncs) :
    ∃ h es, ⟨a, .sync h es⟩ ∈ (r.update dt t).offers := by
  generalize hr' : ((r.ticked dt t).spawnDue dt t).state = r'
  have hsyncs : r'.syncs = r.syncs := hr' ▸ (spawnDue_frame (r.ticked dt t) dt t).2
  have hat' : r'.At p a := by
    rw [← hr', At, (spawnDue_frame (r.ticked dt t) dt t).1]
    exact (at_respawned (respawned_settled r t)).2 hat
  rw [update_playing dt t hplay, hr'] at hcount ⊢
  have hd : r'.SyncIsDue dt := by
    by_contra hd
    rw [syncDue_early hd] at hcount
    exact hcount hsyncs
  obtain ⟨packet, hpacket⟩ := List.exists_mem_of_ne_nil (r'.syncPackets (r'.syncs + 1)) fun h =>
    r'.syncPieces_ne_nil (by simpa [syncPackets_eq, fragmentPackets] using h)
  obtain ⟨h, es, rfl⟩ := sync_of_mem_syncPackets hpacket
  refine ⟨h, es, List.mem_append_right _ ?_⟩
  rw [syncDue_due hd]
  exact List.mem_flatMap.2 ⟨_, hpacket, mem_broadcast hat' _⟩

/-- One if the act is a tick of a game that runs. -/
def ticksIn (r : Room) : Act → Nat
  | .update .. => if r.playing then 1 else 0
  | _ => 0

/-- How many ticks of its game a room runs in the course of some acts. -/
def tickCount (r : Room) : List Act → Nat
  | [] => 0
  | b :: bs => r.ticksIn b + (r.step b).state.tickCount bs

/-- The player is known at the address whenever the game runs on. -/
def HearsTicks (r : Room) (p : UInt32) (a : Endpoint) : List Act → Prop
  | [] => True
  | b :: bs => (r.Ticks b → r.At p a) ∧ (r.step b).state.HearsTicks p a bs

lemma hearsTicks_append {as bs : List Act} :
    r.HearsTicks p a (as ++ bs) ↔ r.HearsTicks p a as ∧ (r.after as).HearsTicks p a bs := by
  induction as generalizing r with
  | nil => simp [HearsTicks]
  | cons c as ih =>
    rw [List.cons_append, HearsTicks, HearsTicks, ih, and_assoc]
    rfl

end Room

/-! ### What is counted there and kept here -/

/-- A number that a room counts up in some of its ticks and gives to datagrams of such a tick, and
the greatest of which a view keeps. -/
structure Counter where
  current : Room → UInt32
  number? : UInt32 → Packet → Option UInt32
  last : View → Option UInt32
  last_apply : ∀ v q now, last (v.apply q now) =
    (number? v.player q).elim (last v) (newer (last v))
  current_quiet : ∀ {r b}, ¬ Room.Ticks r b → current (r.step b).state = current r
  current_step : ∀ r b, current (Room.step r b).state = current r ∨
    current (Room.step r b).state = current r + 1
  number_eq : ∀ {r b p o k}, o ∈ (Room.step r b).offers → number? p o.packet = some k →
    current (Room.step r b).state = current r + 1 ∧ k = current r + 1
  number_mem : ∀ {r b p a}, Room.Ticks r b → Room.At r p a →
    current (r.step b).state ≠ current r →
      ∃ o ∈ (r.step b).offers, o.peer = a ∧ number? p o.packet = some (current r + 1)

namespace Counter

/-- The ticks, told by the reports on a player's own ship. -/
def reports : Counter where
  current := Room.sequence
  number? := View.reportNumber?
  last := View.lastSequence
  last_apply := View.lastSequence_apply
  current_quiet hb := (Room.quiet_step hb).1
  current_step r b := by
    by_cases hb : r.Ticks b
    · obtain ⟨hplay, dt, t, rfl⟩ := hb
      exact .inr (Room.sequence_update hplay dt t)
    · exact .inl (Room.quiet_step hb).1
  number_eq {r b p o k} ho hk := by
    unfold View.reportNumber? at hk
    split at hk
    · next m hm =>
      split_ifs at hk
      obtain rfl := Option.some.inj hk
      exact Room.report_step ho hm
    · cases hk
  number_mem {r b p a} hb hat _ := by
    obtain ⟨hplay, dt, t, rfl⟩ := hb
    obtain ⟨m, hm, hp⟩ := Room.own_report_mem hplay hat dt t
    have hsequence := (Room.report_step (b := .update dt t) hm rfl).2
    exact ⟨_, hm, rfl, (if_pos hp).trans (congrArg some hsequence)⟩

/-- The full lists. -/
def lists : Counter where
  current := Room.syncs
  number? := View.listNumber?
  last v := v.assembly.sync
  last_apply := View.sync_apply
  current_quiet hb := (Room.quiet_step hb).2.1
  current_step r b := (Room.change_step r b).syncs
  number_eq {r b p o k} ho hk := by
    unfold View.listNumber? at hk
    split at hk
    · next h es hs =>
      split_ifs at hk
      obtain rfl := Option.some.inj hk
      obtain ⟨hcount, hsync, -⟩ := Room.list_step ho hs
      exact ⟨hcount, hsync⟩
    · cases hk
  number_mem {r b p a} hb hat hcount := by
    obtain ⟨hplay, dt, t, rfl⟩ := hb
    obtain ⟨h, es, hm⟩ := Room.list_mem hplay hat hcount
    obtain ⟨-, hsync, hwell⟩ := Room.list_step (b := .update dt t) hm rfl
    exact ⟨_, hm, rfl, (if_pos hwell).trans (congrArg some hsync)⟩

/-- How often it is counted up in the course of some acts. -/
def count (c : Counter) (r : Room) : List Room.Act → Nat
  | [] => 0
  | b :: bs => (if c.current (r.step b).state = c.current r then 0 else 1) +
      c.count (r.step b).state bs

lemma count_append (c : Counter) (r : Room) (as bs : List Room.Act) :
    c.count r (as ++ bs) = c.count r as + c.count (r.after as) bs := by
  induction as generalizing r with
  | nil => exact (Nat.zero_add _).symm
  | cons d as ih =>
    rw [List.cons_append, count, ih, count, Nat.add_assoc]
    rfl

lemma count_reports (r : Room) (bs : List Room.Act) : reports.count r bs = r.tickCount bs := by
  induction bs generalizing r with
  | nil => rfl
  | cons b bs ih =>
    rw [count, Room.tickCount, ih]
    congr 1
    by_cases hb : r.Ticks b
    · obtain ⟨hplay, dt, t, rfl⟩ := hb
      have hne : (r.update dt t).state.sequence ≠ r.sequence := by
        rw [Room.sequence_update hplay]
        exact Room.succ_ne _
      exact (if_neg hne).trans (if_pos hplay).symm
    · rw [if_pos (reports.current_quiet hb)]
      cases b with
      | update dt t => exact (if_neg fun hplay => hb ⟨hplay, dt, t, rfl⟩).symm
      | _ => rfl

lemma count_lists (r : Room) (bs : List Room.Act) : lists.count r bs = r.syncCount bs := by
  induction bs generalizing r with
  | nil => rfl
  | cons b bs ih => exact congrArg _ (ih _)

/-- Datagrams that all have the same number, if any, count once. -/
lemma last_applyAll (c : Counter) {v : View} {k : UInt32} {ps : List Packet} (now : UInt32)
    (h : ∀ q ∈ ps, ∀ n, c.number? v.player q = some n → n = k) :
    c.last (v.applyAll now ps) =
      if ∃ q ∈ ps, c.number? v.player q = some k then newer (c.last v) k else c.last v := by
  induction ps generalizing v with
  | nil => simp [View.applyAll]
  | cons q ps ih =>
    have hplayer := View.player_apply v q now
    have hnext := ih (v := v.apply q now) fun q' hq' n hn =>
      h q' (List.mem_cons_of_mem _ hq') n (hplayer ▸ hn)
    change c.last ((v.apply q now).applyAll now ps) = _
    rw [hnext, c.last_apply, hplayer]
    rcases hq : c.number? v.player q with _ | n
    · simp [hq]
    · obtain rfl := h q List.mem_cons_self n hq
      simp [hq, newer_newer]

/-- It has been counted up so often, and the view keeps the greatest number of these. -/
structure Stands (c : Counter) (n : Nat) (w : Watch) : Prop where
  current : c.current w.room = .ofNat n
  last : c.last w.view = greatest n

variable {c : Counter} {n : Nat} {w : Watch} {a : Endpoint}

/-- A step: a tick that is heard brings the next number, if it counts, and nothing else does. -/
lemma Stands.step (h : c.Stands n w) (b : Room.Act × UInt32)
    (hat : w.room.Ticks b.1 → w.room.At w.view.player a) :
    c.Stands (n + if c.current (w.room.step b.1).state = c.current w.room then 0 else 1)
      (w.step a b) := by
  have hnumber : ∀ q ∈ mail a (w.room.step b.1).offers, ∀ k,
      c.number? w.view.player q = some k →
        c.current (w.room.step b.1).state = c.current w.room + 1 ∧ k = c.current w.room + 1 := by
    intro q hq k hk
    obtain ⟨o, ho, rfl⟩ := List.mem_map.1 hq
    exact c.number_eq (List.mem_of_mem_filter ho) hk
  have hlast := c.last_applyAll b.2 fun q hq k hk => (hnumber q hq k hk).2
  rw [← Watch.view_step] at hlast
  by_cases hsame : c.current (w.room.step b.1).state = c.current w.room
  · have hnone : ¬ ∃ q ∈ mail a (w.room.step b.1).offers,
        c.number? w.view.player q = some (c.current w.room + 1) := by
      rintro ⟨q, hq, hk⟩
      exact Room.succ_ne _ ((hnumber q hq _ hk).1.symm.trans hsame)
    rw [if_pos hsame]
    exact ⟨hsame.trans h.current, by rw [hlast, if_neg hnone, h.last, Nat.add_zero]⟩
  · have hticks : w.room.Ticks b.1 := by
      by_contra hquiet
      exact hsame (c.current_quiet hquiet)
    obtain ⟨o, ho, hpeer, hk⟩ := c.number_mem hticks (hat hticks) hsame
    have hheard : o.packet ∈ mail a (w.room.step b.1).offers :=
      List.mem_map_of_mem (List.mem_filter.2 ⟨ho, by simpa using hpeer⟩)
    have hnext : c.current w.room + 1 = .ofNat (n + 1) := by
      rw [h.current, UInt32.ofNat_add]
      rfl
    rw [if_neg hsame]
    refine ⟨((c.current_step _ _).resolve_left hsame).trans hnext, ?_⟩
    rw [hlast, if_pos ⟨_, hheard, hk⟩, h.last, hnext, newer_greatest]

/-- From a room and a view with no numbers on, after every run of which the view hears the ticks. -/
lemma Stands.run {r : Room} {p : UInt32} (h : c.Stands 0 ⟨r, { player := p }⟩)
    (bs : List (Room.Act × UInt32)) (hears : r.HearsTicks p a (bs.map (·.1))) :
    let w := (⟨r, { player := p }⟩ : Watch).run a bs
    c.Stands (c.count r (bs.map (·.1))) w ∧ w.view.player = p := by
  induction bs using List.reverseRecOn with
  | nil => exact ⟨h, rfl⟩
  | append_singleton bs b ih =>
    rw [List.map_append, List.map_singleton, Room.hearsTicks_append] at hears
    obtain ⟨hbefore, hat, -⟩ := hears
    obtain ⟨hstands, hplayer⟩ := ih hbefore
    have hroom := Watch.room_run (a := a) ⟨r, { player := p }⟩ bs
    rw [← hroom] at hat
    intro w
    have hw : w = ((⟨r, { player := p }⟩ : Watch).run a bs).step a b := Watch.run_snoc _ _ _
    have hkept : w.view.player = p := by rw [hw, Watch.view_step, View.player_applyAll, hplayer]
    refine ⟨?_, hkept⟩
    rw [hw, List.map_append, List.map_singleton, count_append]
    rw [count, ← hroom]
    refine hstands.step b ?_
    rw [hplayer]
    exact hat

/-- Some datagrams of the next act have come already. They may have brought its number. -/
lemma Stands.amid (h : c.Stands n w) (b : Room.Act) (now : UInt32) {heard : List Packet}
    (hheard : ∀ q ∈ heard, ∃ o ∈ (w.room.step b).offers, o.packet = q) :
    c.last (w.view.applyAll now heard) = greatest n ∨
      c.last (w.view.applyAll now heard) = greatest (n + 1) ∧
        ∃ q ∈ heard, c.number? w.view.player q = some (.ofNat (n + 1)) := by
  have hnext : c.current w.room + 1 = .ofNat (n + 1) := by
    rw [h.current, UInt32.ofNat_add]
    rfl
  have hlast := c.last_applyAll (v := w.view) now (k := .ofNat (n + 1)) fun q hq k hk => by
    obtain ⟨o, ho, rfl⟩ := hheard q hq
    exact (c.number_eq ho hk).2.trans hnext
  rw [hlast, h.last, newer_greatest]
  split_ifs with hex
  · exact .inr ⟨rfl, hex⟩
  · exact .inl rfl

end Counter

end CoopShooter
