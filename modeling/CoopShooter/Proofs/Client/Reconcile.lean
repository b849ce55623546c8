import Mathlib
import CoopShooter.Client.View

/-!
The own ship under a network that loses, repeats and reorders the server's reports.

Whatever arrives in whatever order, the ship stands where the newest report puts it, moved by the
inputs which that report leaves out.
-/

namespace CoopShooter.View

/-- What can happen to the own ship: an input is made, or a report comes in. -/
inductive Event where
  | sample (tick : UInt32) (inputs : InputFlags)
  | report (m : PlayerReport) (now : UInt32)

def happen (v : View) : Event → View
  | .sample tick inputs => v.predict tick inputs
  | .report m now => (v.applyReport m now).2

/-- A new view after some events. -/
def run (player : UInt32) (es : List Event) : View :=
  es.foldl happen { player := player }

lemma run_snoc (player : UInt32) (es : List Event) (e : Event) :
    run player (es ++ [e]) = happen (run player es) e := by
  simp [run, List.foldl_append]

/-- The inputs made, in their order. -/
def samples (es : List Event) : List PendingInput :=
  es.filterMap fun
    | .sample tick inputs => some ⟨tick, inputs⟩
    | .report .. => none

/-- The reports received, in the order of their arrival. -/
def reports (es : List Event) : List PlayerReport :=
  es.filterMap fun
    | .sample .. => none
    | .report m _ => some m

/-- The tick of the last input, zero before the first. -/
def lastTick (es : List Event) : UInt32 :=
  ((samples es).getLast?.map (·.tick)).getD 0

section
variable (es : List Event) (tick : UInt32) (inputs : InputFlags) (m : PlayerReport) (now : UInt32)

@[simp] lemma samples_sample :
    samples (es ++ [.sample tick inputs]) = samples es ++ [⟨tick, inputs⟩] := by
  simp [samples]
@[simp] lemma samples_report : samples (es ++ [.report m now]) = samples es := by
  simp [samples]
@[simp] lemma reports_sample : reports (es ++ [.sample tick inputs]) = reports es := by
  simp [reports]
@[simp] lemma reports_report : reports (es ++ [.report m now]) = reports es ++ [m] := by
  simp [reports]

end

/-! ### Reports of one server -/

/-- The inputs are numbered upwards from one, and the reports are such as one server makes of the
own player: a later one never counts fewer inputs, the sequence number tells which one it is, and
none counts an input that was not yet made when it arrived. -/
structure Plausible (player : UInt32) (es : List Event) : Prop where
  own : ∀ m ∈ reports es, m.player = player
  positive : ∀ i ∈ samples es, 0 < i.tick
  rising : (samples es).Pairwise (·.tick < ·.tick)
  monotone : ∀ m ∈ reports es, ∀ n ∈ reports es,
    m.sequence < n.sequence → m.processed ≤ n.processed
  distinct : ∀ m ∈ reports es, ∀ n ∈ reports es, m.sequence = n.sequence → m = n
  causal : ∀ i m now, es[i]? = some (.report m now) → m.processed ≤ lastTick (es.take i)

variable {player : UInt32} {es fs : List Event}

lemma Plausible.init {e : Event} (h : Plausible player (es ++ [e])) : Plausible player es := by
  have hr : ∀ m ∈ reports es, m ∈ reports (es ++ [e]) := by
    intro m hm
    cases e <;> simp [hm]
  have hs : (samples es).Sublist (samples (es ++ [e])) := by
    cases e <;> simp
  refine ⟨fun m hm => h.own m (hr m hm), fun i hi => h.positive i (hs.subset hi),
    h.rising.sublist hs,
    fun m hm n hn => h.monotone m (hr m hm) n (hr n hn),
    fun m hm n hn => h.distinct m (hr m hm) n (hr n hn),
    fun i m now hi => ?_⟩
  have hlt : i < es.length := (List.getElem?_eq_some_iff.1 hi).1
  have htake : (es ++ [e]).take i = es.take i := List.take_append_of_le_length hlt.le
  rw [← htake]
  exact h.causal i m now (by rw [List.getElem?_append_left hlt, hi])

lemma lastTick_sample (es : List Event) (tick : UInt32) (inputs : InputFlags) :
    lastTick (es ++ [.sample tick inputs]) = tick := by
  simp [lastTick]

lemma lastTick_report (es : List Event) (m : PlayerReport) (now : UInt32) :
    lastTick (es ++ [.report m now]) = lastTick es := by
  simp [lastTick]

lemma lastTick_lt {tick : UInt32} {inputs : InputFlags}
    (h : Plausible player (es ++ [.sample tick inputs])) : lastTick es < tick := by
  rcases List.eq_nil_or_concat' (samples es) with hs | ⟨is, i, hs⟩
  · have := h.positive ⟨tick, inputs⟩ (by simp)
    simpa [lastTick, hs] using this
  · have hr := h.rising
    rw [samples_sample, hs, List.pairwise_append] at hr
    simpa [lastTick, hs] using hr.2.2 i (by simp)

/-- No report counts more than the inputs made so far. -/
lemma Plausible.processed_le (h : Plausible player es) :
    ∀ m ∈ reports es, m.processed ≤ lastTick es := by
  induction es using List.reverseRecOn with
  | nil => simp [reports]
  | append_singleton es e ih =>
    have ih := ih h.init
    intro n hn
    -- an input moves the bound up, and a report is below it when it arrives
    cases e with
    | sample tick inputs =>
      rw [reports_sample] at hn
      rw [lastTick_sample]
      exact UInt32.le_trans (ih n hn) (UInt32.le_of_lt (lastTick_lt h))
    | report m now =>
      rw [lastTick_report]
      rw [reports_report, List.mem_append, List.mem_singleton] at hn
      rcases hn with hn | rfl
      · exact ih n hn
      · simpa using h.causal es.length n now (by simp)

/-! ### The ship and the inputs kept -/

lemma replay_snoc (p : Position) (is : List PendingInput) (i : PendingInput) :
    replay p (is ++ [i]) = (replay p is).moved i.inputs shipSpeed := by
  simp [replay, List.foldl_append]

/-- The newest of some reports. -/
structure Newest (ms : List PlayerReport) (m : PlayerReport) : Prop where
  mem : m ∈ ms
  le : ∀ n ∈ ms, n.sequence ≤ m.sequence

lemma newest_snoc {ms : List PlayerReport} {m : PlayerReport}
    (h : ∀ n ∈ ms, n.sequence ≤ m.sequence) : Newest (ms ++ [m]) m := by
  refine ⟨by simp, fun n hn => ?_⟩
  rcases List.mem_append.1 hn with hn | hn
  · exact h n hn
  · rw [List.mem_singleton.1 hn]
    exact UInt32.le_refl _

lemma Newest.snoc {ms : List PlayerReport} {m n : PlayerReport} (h : Newest ms n)
    (hle : m.sequence ≤ n.sequence) : Newest (ms ++ [m]) n := by
  refine ⟨List.mem_append_left _ h.mem, fun k hk => ?_⟩
  rcases List.mem_append.1 hk with hk | hk
  · exact h.le k hk
  · rw [List.mem_singleton.1 hk]
    exact hle

lemma newest_unique (h : Plausible player es) {m n : PlayerReport}
    (hm : Newest (reports es) m) (hn : Newest (reports es) n) : m = n :=
  h.distinct m hm.mem n hn.mem (UInt32.le_antisymm (hn.le m hm.mem) (hm.le n hn.mem))

/-- The view keeps exactly the inputs that `processed` leaves out, and has moved the ship by them
from `start`. -/
structure Settled (v : View) (is : List PendingInput) (start : Position) (processed : UInt32) :
    Prop where
  counted : v.processed = processed
  kept : v.pending = is.filter (processed < ·.tick)
  placed : v.position = replay start v.pending

/-- Such views agree on the own ship. -/
lemma Settled.agree {v w : View} {is : List PendingInput} {start : Position} {processed : UInt32}
    (hv : v.Settled is start processed) (hw : w.Settled is start processed) :
    w.processed = v.processed ∧ w.pending = v.pending ∧ w.position = v.position := by
  have hkept : w.pending = v.pending := by rw [hw.kept, hv.kept]
  exact ⟨by rw [hw.counted, hv.counted], hkept, by rw [hw.placed, hv.placed, hkept]⟩

/-- What is true after every run. -/
structure Reconciled (player : UInt32) (es : List Event) (v : View) : Prop where
  player : v.player = player
  playing : v.status = .playing
  unheard : reports es = [] → v.lastSequence = none ∧ v.Settled (samples es) shipSpawn 0
  heard : reports es ≠ [] → ∃ m, Newest (reports es) m ∧ v.lastSequence = some m.sequence ∧
    v.Settled (samples es) (.ofBits m.x m.y) m.processed

lemma settled_sample {v : View} {is : List PendingInput} {start : Position} {processed : UInt32}
    (h : v.Settled is start processed) (hv : v.status = .playing) {tick : UInt32}
    (ht : processed < tick) (inputs : InputFlags) :
    (v.predict tick inputs).Settled (is ++ [⟨tick, inputs⟩]) start processed := by
  rw [predict, if_pos hv]
  refine ⟨h.counted, ?_, ?_⟩
  · simp [h.kept, ht]
  · simp [replay_snoc, h.placed]

/-- A newer report drops what it counts from what an older one has left. -/
lemma settled_reconcile {v : View} {is : List PendingInput} {start : Position}
    {processed : UInt32} (h : v.Settled is start processed) {processed' : UInt32}
    (hle : processed ≤ processed') (p : Position) :
    (v.reconcile p processed').Settled is p processed' := by
  refine ⟨rfl, ?_, rfl⟩
  simp only [reconcile, h.kept, List.filter_filter]
  refine List.filter_congr fun i _ => ?_
  have : processed' < i.tick → processed < i.tick := fun hi => UInt32.lt_of_le_of_lt hle hi
  simpa using this

lemma reconciled_sample {v : View} {tick : UInt32} {inputs : InputFlags}
    (h : Reconciled player es v) (hp : Plausible player (es ++ [.sample tick inputs])) :
    Reconciled player (es ++ [.sample tick inputs]) (v.predict tick inputs) := by
  have hlt := lastTick_lt hp
  have hseq : (v.predict tick inputs).lastSequence = v.lastSequence := by
    rw [predict]; split <;> rfl
  refine ⟨?_, ?_, fun hnone => ?_, fun hsome => ?_⟩
  · rw [predict]; split <;> exact h.player
  · rw [predict]; split <;> exact h.playing
  · rw [reports_sample] at hnone
    obtain ⟨hl, hs⟩ := h.unheard hnone
    rw [samples_sample, hseq]
    exact ⟨hl, settled_sample hs h.playing (UInt32.lt_of_le_of_lt UInt32.zero_le hlt) inputs⟩
  · rw [reports_sample] at hsome ⊢
    obtain ⟨m, hm, hl, hs⟩ := h.heard hsome
    rw [samples_sample, hseq]
    have hcounted := hp.init.processed_le m hm.mem
    exact ⟨m, hm, hl, settled_sample hs h.playing (UInt32.lt_of_le_of_lt hcounted hlt) inputs⟩

/-- A report that is no news leaves the view alone. -/
lemma applyReport_stale {v : View} {m : PlayerReport} (hm : m.player = v.player) {s : UInt32}
    (hs : v.lastSequence = some s) (hle : m.sequence ≤ s) (now : UInt32) :
    (v.applyReport m now).2 = v := by
  simp [applyReport, hm, hs, hle]

lemma applyReport_fresh {v : View} {m : PlayerReport} (hm : m.player = v.player)
    (h : ∀ s, v.lastSequence = some s → s < m.sequence) (now : UInt32) :
    v.applyReport m now = (true, View.reconcile
      { v with
        lastSequence := some m.sequence
        window := v.window.record m.sequence now }
      (.ofBits m.x m.y) m.processed) := by
  have : v.lastSequence.any (m.sequence ≤ ·) = false := by
    rcases hl : v.lastSequence with _ | s
    · rfl
    · simpa using h s hl
  simp [applyReport, hm, this]

/-- A report on the own ship is taken. -/
def Takes (v : View) (m : PlayerReport) (now : UInt32) : Prop :=
  m.player = v.player ∧ (v.applyReport m now).1 = true

lemma takes_iff {v : View} {m : PlayerReport} {now : UInt32} : v.Takes m now ↔
    m.player = v.player ∧ v.lastSequence.any (m.sequence ≤ ·) = false := by
  refine and_congr_right fun hown => ?_
  rw [applyReport, if_pos hown]
  cases v.lastSequence.any (m.sequence ≤ ·) <;> simp

/-- The inputs that a report leaves to be replayed. -/
def left (v : View) (m : PlayerReport) : List PendingInput :=
  v.pending.filter (m.processed < ·.tick)

/-- What a datagram does to the own ship: a report that is taken reconciles it, and nothing else
touches it. -/
lemma ship_apply (v : View) (p : Packet) (now : UInt32) :
    (∃ m, p = .player m ∧ v.Takes m now ∧ (v.apply p now).pending = v.left m ∧
      (v.apply p now).position = replay (.ofBits m.x m.y) (v.left m)) ∨
    (∀ m, p = .player m → ¬ v.Takes m now) ∧ (v.apply p now).pending = v.pending ∧
      (v.apply p now).position = v.position := by
  cases p with
  | player m =>
    have hanswer : ∀ m', Packet.player m = .player m' → v.Takes m' now → v.Takes m now := by
      rintro _ ⟨⟩ h
      exact h
    simp only [apply, applyReport]
    split_ifs with hown hstale
    · refine .inr ⟨fun m' hm' h => ?_, rfl, rfl⟩
      have hfresh := (takes_iff.1 (hanswer m' hm' h)).2
      rw [hstale] at hfresh
      cases hfresh
    · exact .inl ⟨m, rfl, takes_iff.2 ⟨hown, Bool.eq_false_of_not_eq_true hstale⟩, rfl, rfl⟩
    · exact .inr ⟨fun m' hm' h => hown (hanswer m' hm' h).1, rfl, rfl⟩
    · exact .inr ⟨fun m' hm' h => hown (hanswer m' hm' h).1, rfl, rfl⟩
  | spawn m =>
    refine .inr ⟨fun _ => Packet.noConfusion, ?_⟩
    simp only [apply, applySpawn]
    split <;> exact ⟨rfl, rfl⟩
  | leave m =>
    refine .inr ⟨fun _ => Packet.noConfusion, ?_⟩
    simp only [apply, applyLeave]
    split_ifs <;> exact ⟨rfl, rfl⟩
  | sync header es =>
    refine .inr ⟨fun _ => Packet.noConfusion, ?_⟩
    simp only [apply, applySync]
    split <;> exact ⟨rfl, rfl⟩
  | _ => exact .inr ⟨fun _ => Packet.noConfusion, rfl, rfl⟩

lemma reconciled_report {v : View} {m : PlayerReport} {now : UInt32}
    (h : Reconciled player es v) (hp : Plausible player (es ++ [.report m now])) :
    Reconciled player (es ++ [.report m now]) (v.applyReport m now).2 := by
  have hown : m.player = v.player := by
    rw [h.player]
    exact hp.own m (by simp)
  -- the report is the newest one so far, and at least as much is counted as before
  have accept : (∀ s, v.lastSequence = some s → s < m.sequence) →
      (∀ n ∈ reports es, n.sequence ≤ m.sequence) →
      (∃ start processed, v.Settled (samples es) start processed ∧ processed ≤ m.processed) →
      Reconciled player (es ++ [.report m now]) (v.applyReport m now).2 := by
    rintro hs hle ⟨start, processed, hset, hcounted⟩
    rw [applyReport_fresh hown hs]
    refine ⟨h.player, h.playing, fun hnone => by simp at hnone, fun _ => ⟨m, ?_, rfl, ?_⟩⟩
    · rw [reports_report]
      exact newest_snoc hle
    · rw [samples_report]
      exact settled_reconcile (v := { v with
        lastSequence := some m.sequence
        window := v.window.record m.sequence now }) ⟨hset.counted, hset.kept, hset.placed⟩
        hcounted _
  by_cases hnone : reports es = []
  · obtain ⟨hl, hs⟩ := h.unheard hnone
    refine accept (by simp [hl]) (by simp [hnone]) ⟨_, _, hs, UInt32.zero_le⟩
  · obtain ⟨n, hn, hl, hs⟩ := h.heard hnone
    rcases UInt32.lt_or_le n.sequence m.sequence with hlt | hge
    · refine accept (by simpa [hl] using hlt)
        (fun k hk => UInt32.le_trans (hn.le k hk) (UInt32.le_of_lt hlt)) ⟨_, _, hs, ?_⟩
      exact hp.monotone n (by simp [hn.mem]) m (by simp) hlt
    · rw [applyReport_stale hown hl hge]
      refine ⟨h.player, h.playing, fun hnone => by simp at hnone, fun _ => ⟨n, ?_, hl, ?_⟩⟩
      · rw [reports_report]
        exact hn.snoc hge
      · rw [samples_report]
        exact hs

lemma reconciled_run (h : Plausible player es) : Reconciled player es (run player es) := by
  induction es using List.reverseRecOn with
  | nil => exact ⟨rfl, rfl, fun _ => ⟨rfl, rfl, rfl, rfl⟩, fun hne => absurd rfl hne⟩
  | append_singleton es e ih =>
    rw [run_snoc]
    cases e with
    | sample tick inputs => exact reconciled_sample (ih h.init) h
    | report m now => exact reconciled_report (ih h.init) h

lemma pending_unheard {v : View} (h : Plausible player es)
    (hs : v.Settled (samples es) shipSpawn 0) : v.pending = samples es := by
  rw [hs.kept, List.filter_eq_self]
  intro i hi
  simpa using h.positive i hi

/-- The newest report depends only on which reports have come in. -/
lemma Newest.congr {ms ns : List PlayerReport} {m : PlayerReport} (h : Newest ms m)
    (hmem : ∀ k, k ∈ ns ↔ k ∈ ms) : Newest ns m :=
  ⟨(hmem m).2 h.mem, fun k hk => h.le k ((hmem k).1 hk)⟩

/-- **Reports may be lost, repeated and reordered.** Before the first report the ship has moved from
its spawn by every input. After that the newest report received decides: what is kept are the inputs
it leaves out, and they have moved the ship from where it says the ship is. So the same inputs and
the same set of reports lead to the same ship, whichever way they came. -/
theorem reconcile_ignores_delivery (h : Plausible player es) :
    (reports es = [] →
      (run player es).lastSequence = none ∧
      (run player es).pending = samples es ∧
      (run player es).position = replay shipSpawn (samples es)) ∧
    (reports es ≠ [] → ∃ m, Newest (reports es) m ∧
      (run player es).lastSequence = some m.sequence ∧
      (run player es).pending = (samples es).filter (m.processed < ·.tick) ∧
      (run player es).position =
        replay (.ofBits m.x m.y) ((samples es).filter (m.processed < ·.tick))) ∧
    ∀ fs, Plausible player fs → samples fs = samples es →
      (∀ m, m ∈ reports fs ↔ m ∈ reports es) →
      (run player fs).lastSequence = (run player es).lastSequence ∧
      (run player fs).processed = (run player es).processed ∧
      (run player fs).pending = (run player es).pending ∧
      (run player fs).position = (run player es).position := by
  have hes := reconciled_run h
  refine ⟨fun hnone => ?_, fun hsome => ?_, fun fs hf hsamples hreports => ?_⟩
  · obtain ⟨hl, hs⟩ := hes.unheard hnone
    have hp := pending_unheard h hs
    exact ⟨hl, hp, by rw [hs.placed, hp]⟩
  · obtain ⟨m, hm, hl, hs⟩ := hes.heard hsome
    exact ⟨m, hm, hl, hs.kept, by rw [hs.placed, hs.kept]⟩
  · have hfs := reconciled_run hf
    by_cases hnone : reports es = []
    · have hnone' : reports fs = [] := by
        rw [List.eq_nil_iff_forall_not_mem] at hnone ⊢
        exact fun m hm => hnone m ((hreports m).1 hm)
      obtain ⟨hl, hs⟩ := hes.unheard hnone
      obtain ⟨hl', hs'⟩ := hfs.unheard hnone'
      rw [hsamples] at hs'
      exact ⟨by rw [hl', hl], hs.agree hs'⟩
    · obtain ⟨m, hm, hl, hs⟩ := hes.heard hnone
      have hnone' : reports fs ≠ [] := List.ne_nil_of_mem ((hreports m).2 hm.mem)
      obtain ⟨n, hn, hl', hs'⟩ := hfs.heard hnone'
      obtain rfl : n = m := newest_unique hf hn (hm.congr hreports)
      rw [hsamples] at hs'
      exact ⟨by rw [hl', hl], hs.agree hs'⟩

/-- A report on player 7, `n` steps to the right of the spawn. -/
def stepped (n : UInt32) : PlayerReport :=
  ⟨n, 7, n, 0, Float32.toBits (100 + 5 * n.toFloat32), Float32.toBits 500⟩

/-- Three steps to the right, with reports on the first two. -/
def inOrder : List Event :=
  [.sample 1 .right, .sample 2 .right, .report (stepped 1) 20, .report (stepped 2) 40,
    .sample 3 .right]

/-- The same, but the second report overtakes the first and comes twice. -/
def overtaken : List Event :=
  [.sample 1 .right, .sample 2 .right, .report (stepped 2) 20, .sample 3 .right,
    .report (stepped 1) 40, .report (stepped 2) 60]

lemma plausible_inOrder : Plausible 7 inOrder := by
  refine ⟨by decide +kernel, by decide +kernel, by decide +kernel, by decide +kernel,
    by decide +kernel, fun i m now hi => ?_⟩
  have hlt : i < 5 := (List.getElem?_eq_some_iff.1 hi).1
  interval_cases i <;> simp [inOrder] at hi <;> obtain ⟨rfl, -⟩ := hi <;> decide

lemma plausible_overtaken : Plausible 7 overtaken := by
  refine ⟨by decide +kernel, by decide +kernel, by decide +kernel, by decide +kernel,
    by decide +kernel, fun i m now hi => ?_⟩
  have hlt : i < 6 := (List.getElem?_eq_some_iff.1 hi).1
  interval_cases i <;> simp [overtaken] at hi <;> obtain ⟨rfl, -⟩ := hi <;> decide

theorem overtaking_is_ignored :
    (run 7 overtaken).position = (run 7 inOrder).position ∧
      (run 7 inOrder).position = ⟨115, 500⟩ :=
  ⟨((reconcile_ignores_delivery plausible_inOrder).2.2 overtaken plausible_overtaken
    (by decide) (fun m => by simp [inOrder, overtaken, reports]; tauto)).2.2.2, by decide +kernel⟩

end CoopShooter.View
