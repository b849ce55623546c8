import Mathlib
import CoopShooter.Proofs.Client.Reconcile
import CoopShooter.Proofs.Client.Traffic
import CoopShooter.Proofs.Play.Counters

/-!
The wire of a session and the ledger of its view agree. The sampler counts one tick up for each
input that is queued, and the view keeps just that input; so the view is at any time what the
traffic makes of a new one, and its ledger holds the inputs that no report has counted since they
were queued. Nothing that arrives starts a game again or brings back a player who has left.
-/

namespace CoopShooter

open Traffic (inputs ledger Accepted)

namespace View

/-- Takes part in what passes: an input with a tick is predicted, a datagram taken in. -/
def enter (v : View) : Traffic → View
  | .queued m => if m.tick = 0 then v else v.predict m.tick m.inputs
  | .arrived p now => v.apply p now

/-- The view goes by the reports that arrived, and keeps what they have not counted. -/
structure Informed (player : UInt32) (ts : List Traffic) (v : View) : Prop where
  own : v.player = player
  last : ∀ k, v.lastSequence.any (k ≤ ·) = true ↔ ∃ n ∈ Traffic.reports player ts, k ≤ n.sequence
  pending : v.pending = ledger player ts

variable {v : View} {player : UInt32} {ts : List Traffic}

lemma any_newer (last : Option UInt32) (j k : UInt32) :
    (newer last j).any (k ≤ ·) = true ↔ last.any (k ≤ ·) = true ∨ k ≤ j := by
  rcases last with _ | l
  · simp [newer]
  · by_cases hjl : j ≤ l
    · have hnewer : newer (some l) j = some l := by simp [newer, hjl]
      simp only [hnewer, Option.any_some, decide_eq_true_eq]
      exact ⟨.inl, fun h => h.elim id fun hkj => UInt32.le_trans hkj hjl⟩
    · have hnewer : newer (some l) j = some j := by simp [newer, hjl]
      simp only [hnewer, Option.any_some, decide_eq_true_eq]
      exact ⟨.inr, fun h => h.elim
        (fun hkl => UInt32.le_trans hkl (UInt32.le_of_lt (UInt32.not_le.1 hjl))) id⟩

lemma reportNumber?_eq (player : UInt32) (p : Packet) (now : UInt32) :
    reportNumber? player p = (Traffic.report? player (.arrived p now)).map (·.sequence) := by
  cases p with
  | player m =>
    simp only [reportNumber?, Traffic.report?]
    split_ifs <;> rfl
  | _ => rfl

/-! ### Reports and the ledger -/

/-- A report on the own ship is taken just if it is accepted. -/
lemma Informed.accepted_iff {m : PlayerReport} (h : Informed player ts v)
    (hown : m.player = player) :
    Accepted player ts m ↔ v.lastSequence.any (m.sequence ≤ ·) = false := by
  rw [← Bool.not_eq_true, h.last]
  push Not
  exact ⟨fun ha n hn => UInt32.not_le.2 (ha.newest n hn),
    fun hn => ⟨hown, fun n hmem => UInt32.not_le.1 (hn n hmem)⟩⟩

lemma Informed.takes_iff {m : PlayerReport} (h : Informed player ts v) (now : UInt32) :
    v.Takes m now ↔ Accepted player ts m := by
  rw [View.takes_iff, h.own]
  exact ⟨fun ⟨hown, hnew⟩ => (h.accepted_iff hown).2 hnew,
    fun ha => ⟨ha.own, (h.accepted_iff ha.own).1 ha⟩⟩

lemma Informed.answer {m : PlayerReport} (h : Informed player ts v) (hown : m.player = player)
    (now : UInt32) : (v.applyReport m now).1 = true ↔ Accepted player ts m := by
  rw [← h.takes_iff now, Takes, and_iff_right (hown.trans h.own.symm)]

lemma Informed.pending_arrived (h : Informed player ts v) (p : Packet) (now : UInt32) :
    (v.apply p now).pending = ledger player (ts ++ [.arrived p now]) := by
  rcases v.ship_apply p now with ⟨m, rfl, htakes, hpending, -⟩ | ⟨hno, hpending, -⟩
  · rw [hpending, Traffic.ledger_accepted ((h.takes_iff now).1 htakes), ← h.pending]
    rfl
  · have hrefused : ∀ m, p = .player m → ¬ Accepted player ts m := fun m hm ha =>
      hno m hm ((h.takes_iff now).2 ha)
    rw [hpending, Traffic.ledger_arrived hrefused, h.pending]

lemma Informed.arrived (h : Informed player ts v) (p : Packet) (now : UInt32) :
    Informed player (ts ++ [.arrived p now]) (v.apply p now) := by
  refine ⟨(player_apply v p now).trans h.own, fun k => ?_, h.pending_arrived p now⟩
  rw [lastSequence_apply, h.own, reportNumber?_eq player p now, Traffic.reports_arrived]
  cases Traffic.report? player (.arrived p now) with
  | none => simpa using h.last k
  | some n =>
    simp only [Option.map_some, Option.elim_some, any_newer, h.last, Option.toList_some,
      List.mem_append, List.mem_singleton, or_and_right, exists_or, exists_eq_left]

lemma Informed.queued {m : InputReport} (h : Informed player ts v) (hplay : v.status = .playing)
    (hpos : 0 < m.tick) (hnew : m ∉ inputs ts) :
    Informed player (ts ++ [.queued m]) (v.predict m.tick m.inputs) := by
  rw [predict, if_pos hplay]
  refine ⟨h.own, fun k => ?_, ?_⟩
  · rw [Traffic.reports_queued]
    exact h.last k
  · rw [Traffic.ledger_queued hpos hnew, ← h.pending]

/-! ### What does not come back -/

lemma status_predict (v : View) (tick : UInt32) (flags : InputFlags) :
    (v.predict tick flags).status = v.status := by
  unfold predict
  split_ifs <;> rfl

/-- A game that is over stays over. -/
lemma playing_of_apply {p : Packet} {now : UInt32} (h : (v.apply p now).status = .playing) :
    v.status = .playing := by
  cases p with
  | player m =>
    simp only [apply, applyReport] at h
    split_ifs at h <;> exact h
  | spawn m =>
    simp only [apply, applySpawn] at h
    split at h <;> exact h
  | leave m =>
    by_cases hown : m.player = v.player
    · simp [apply, applyLeave, hown] at h
    · simpa only [apply, applyLeave, if_neg hown] using h
  | sync header es =>
    simp only [apply, applySync] at h
    split at h <;> exact h
  | kick => cases h
  | _ => exact h

/-- The player has left, and is not shown. -/
structure Gone (q : UInt32) (v : View) : Prop where
  departed : v.departed.contains q = true
  absent : v.others.find? q = none

variable {q : UInt32}

lemma Gone.predict (h : Gone q v) (tick : UInt32) (flags : InputFlags) :
    Gone q (v.predict tick flags) := by
  unfold View.predict
  split_ifs
  · exact ⟨h.departed, h.absent⟩
  · exact h

lemma gone_leave (hq : q ≠ v.player) (now : UInt32) : Gone q (v.apply (.leave ⟨q⟩) now) := by
  have habsent : (v.others.erase q).find? q = none := by rw [IdMap.find?_erase, if_pos rfl]
  simp only [apply, applyLeave, if_neg hq]
  split_ifs with hknown
  · exact ⟨hknown, habsent⟩
  · exact ⟨by simp, habsent⟩

/-- Whatever arrives, a player who has left does not come back. -/
lemma Gone.apply (h : Gone q v) (p : Packet) (now : UInt32) : Gone q (v.apply p now) := by
  cases p with
  | player m =>
    simp only [View.apply, applyReport]
    split_ifs with hown hstale hgone
    · exact h
    · exact ⟨h.departed, h.absent⟩
    · exact h
    · refine ⟨h.departed, ?_⟩
      have hne : q ≠ m.player := fun hq => hgone (hq ▸ h.departed)
      rw [IdMap.find?_insert, if_neg hne, h.absent]
  | spawn m =>
    simp only [View.apply, applySpawn]
    split <;> exact ⟨h.departed, h.absent⟩
  | leave m =>
    by_cases hq : m.player = q
    · by_cases hown : q = v.player
      · simp only [View.apply, applyLeave, hq, if_pos hown]
        exact ⟨h.departed, h.absent⟩
      · subst hq
        exact gone_leave hown now
    · simp only [View.apply, applyLeave]
      have habsent : (v.others.erase m.player).find? q = none := by
        rw [IdMap.find?_erase, h.absent, ite_self]
      split_ifs with hown hknown
      · exact ⟨h.departed, h.absent⟩
      · exact ⟨h.departed, habsent⟩
      · exact ⟨by rw [List.contains_cons, h.departed, Bool.or_true], habsent⟩
  | sync header es =>
    simp only [View.apply, applySync]
    split <;> exact ⟨h.departed, h.absent⟩
  | _ => exact ⟨h.departed, h.absent⟩

lemma Gone.not_shown (h : Gone q v) (hq : q ≠ v.player) :
    ∀ ship ∈ v.snapshot.ships, ship.player ≠ q := by
  intro ship hship
  rcases List.mem_cons.1 hship with rfl | hship
  · exact hq.symm
  · obtain ⟨⟨k, position⟩, hmem, rfl⟩ := List.mem_map.1 hship
    rintro rfl
    cases (IdMap.mem_entries_iff.1 hmem).symm.trans h.absent

end View

namespace Session

variable {server : Endpoint} {player : UInt32}

/-! ### Runs -/

/-- The traffic holds a registration and then the moves, numbered from one on, and the sampler has
come just so far. -/
structure Wired (player : UInt32) (ts : List Traffic) (s : Session) : Prop where
  moves : ∃ ms, inputs ts = ⟨player, 0, .empty⟩ :: ms ∧
    ms.map (·.tick.toNat) = List.range' 1 ms.length ∧ ∀ m ∈ ms, m.player = player
  next : s.sampler.nextTick = .ofNat (inputs ts).length

/-- What a new move is numbered: it is the first one with this number. -/
lemma Wired.fresh {ts : List Traffic} {s : Session} (h : Wired player ts s)
    (hroom : (inputs ts).length < UInt32.size) :
    0 < s.sampler.nextTick ∧ ∀ m ∈ inputs ts, m.tick ≠ s.sampler.nextTick := by
  obtain ⟨ms, hms, hticks, -⟩ := h.moves
  have hnext : s.sampler.nextTick.toNat = ms.length + 1 := by
    rw [h.next, UInt32.toNat_ofNat_of_lt' hroom, hms, List.length_cons]
  refine ⟨UInt32.lt_iff_toNat_lt.2 (by rw [hnext]; exact Nat.succ_pos _), fun m hm heq => ?_⟩
  rw [hms] at hm
  have htick : m.tick.toNat = ms.length + 1 := heq ▸ hnext
  rcases List.mem_cons.1 hm with rfl | hm
  · exact absurd htick (by simp)
  · have hrange : m.tick.toNat ∈ List.range' 1 ms.length := hticks ▸ List.mem_map_of_mem hm
    rw [List.mem_range'_1] at hrange
    omega

lemma Wired.move {ts : List Traffic} {s t : Session} {flags : InputFlags} (h : Wired player ts s)
    (hroom : (inputs ts).length < UInt32.size)
    (hnext : t.sampler.nextTick = s.sampler.nextTick + 1) :
    Wired player (ts ++ [.queued ⟨player, s.sampler.nextTick, flags⟩]) t := by
  obtain ⟨ms, hms, hticks, hplayer⟩ := h.moves
  have htick : s.sampler.nextTick.toNat = ms.length + 1 := by
    rw [h.next, UInt32.toNat_ofNat_of_lt' hroom, hms, List.length_cons]
  refine ⟨⟨ms ++ [⟨player, s.sampler.nextTick, flags⟩], ?_, ?_, ?_⟩, ?_⟩
  · rw [Traffic.inputs_queued, hms, List.cons_append]
  · rw [List.map_append, hticks, List.length_append, List.length_singleton, List.range'_concat,
      List.map_singleton, htick]
    simp [Nat.add_comm]
  · intro m hm
    rcases List.mem_append.1 hm with hm | hm
    · exact hplayer m hm
    · rw [List.mem_singleton.1 hm]
  · rw [hnext, h.next, Traffic.inputs_queued, List.length_append, UInt32.ofNat_add]
    rfl

/-- After a run the wire, the sampler and the view have come to the same point. -/
structure InStep (server : Endpoint) (player : UInt32) (es : List Event) : Prop where
  wire : inputsOf (queued server player es) = inputs (traffic server player es)
  few : (inputs (traffic server player es)).length ≤ es.countP Event.isFrame + 1
  wired : Wired player (traffic server player es) (after server player es)
  informed : View.Informed player (traffic server player es) (after server player es).view
  view : (after server player es).view =
    (traffic server player es).foldl View.enter { player := player }

lemma inStep_start : InStep server player [] := by
  refine ⟨rfl, le_rfl, ⟨⟨[], rfl, rfl, by simp⟩, rfl⟩, ⟨rfl, fun k => ?_, ?_⟩, rfl⟩
  · simp [Traffic.reports, traffic, inputsOf, start, collected, Traffic.report?, after]
  · simp [ledger, inputs, traffic, inputsOf, start, collected, Traffic.input?, after]

variable {es : List Event} {e : Event}

/-- An event keeps them together if it adds the same inputs to the wire as to the traffic, and the
view makes of it what passed. -/
lemma InStep.snoc (hi : InStep server player es)
    (hsent : inputsOf ((after server player es).step e).2 =
      inputs ((after server player es).passed e))
    (hcount : (inputs ((after server player es).passed e)).length ≤ [e].countP Event.isFrame)
    (hwired : Wired player (traffic server player es ++ (after server player es).passed e)
      ((after server player es).step e).1)
    (hinformed : View.Informed player
      (traffic server player es ++ (after server player es).passed e)
      ((after server player es).step e).1.view)
    (hview : ((after server player es).step e).1.view =
      ((after server player es).passed e).foldl View.enter (after server player es).view) :
    InStep server player (es ++ [e]) := by
  have hfew := hi.few
  have hinputs : inputs (traffic server player (es ++ [e])) =
      inputs (traffic server player es) ++ inputs ((after server player es).passed e) := by
    rw [traffic_snoc, inputs, inputs, inputs, List.filterMap_append]
  refine ⟨?_, ?_, ?_, ?_, ?_⟩
  · rw [queued_snoc, inputsOf_append, hi.wire, hsent, hinputs]
  · rw [hinputs, List.length_append, List.countP_append]
    omega
  · rwa [traffic_snoc, after_snoc]
  · rwa [traffic_snoc, after_snoc]
  · rw [traffic_snoc, after_snoc, hview, List.foldl_append, hi.view]

/-- An event that is not noticed. -/
lemma InStep.nothing (hi : InStep server player es)
    (hsent : inputsOf ((after server player es).step e).2 = [])
    (hpassed : (after server player es).passed e = [])
    (hview : ((after server player es).step e).1.view = (after server player es).view)
    (htick : ((after server player es).step e).1.sampler.nextTick =
      (after server player es).sampler.nextTick) : InStep server player (es ++ [e]) := by
  refine hi.snoc ?_ ?_ ?_ ?_ ?_ <;> rw [hpassed]
  · exact hsent
  · exact Nat.zero_le _
  · rw [List.append_nil]
    exact ⟨hi.wired.moves, htick.trans hi.wired.next⟩
  · rw [List.append_nil, hview]
    exact hi.informed
  · exact hview

/-- Each event keeps them together, as long as there are numbers left for the moves. -/
lemma InStep.step (hi : InStep server player es)
    (hroom : (inputs (traffic server player es)).length < UInt32.size) (e : Event) :
    InStep server player (es ++ [e]) := by
  have hplayer : (after server player es).player = player := (same_after es).player
  rcases turn (running_after es) e with
    ⟨keys, now, flags, rfl, hplay, hsent, hpassed, hview, htick⟩ |
    ⟨keys, now, -, -, hsent, hpassed, hview, htick⟩ |
    ⟨a, p, -, -, hsent, hpassed, hview, htick⟩ | ⟨a, -, -, hsent, hpassed, hview, htick⟩
  · rw [hplayer] at hsent hpassed
    obtain ⟨hpos, hnew⟩ := hi.wired.fresh hroom
    have hne : (after server player es).sampler.nextTick ≠ 0 := (UInt32.ne_of_lt hpos).symm
    refine hi.snoc ?_ ?_ ?_ ?_ ?_ <;> rw [hpassed]
    · exact hsent
    · exact le_rfl
    · exact hi.wired.move hroom htick
    · rw [hview]
      exact hi.informed.queued (m := ⟨player, _, flags⟩) hplay hpos fun hmem => hnew _ hmem rfl
    · rw [hview, List.foldl_cons, List.foldl_nil, View.enter, if_neg hne]
  · exact hi.nothing hsent hpassed hview htick
  · refine hi.snoc ?_ ?_ ?_ ?_ ?_ <;> rw [hpassed]
    · exact hsent
    · exact Nat.zero_le _
    · refine ⟨?_, ?_⟩ <;> rw [Traffic.inputs_arrived]
      · exact hi.wired.moves
      · exact htick.trans hi.wired.next
    · rw [hview]
      exact hi.informed.arrived p a.now
    · exact hview
  · exact hi.nothing hsent hpassed hview htick

lemma inStep_after (hfew : es.countP Event.isFrame < UInt32.size - 1) :
    InStep server player es := by
  induction es using List.reverseRecOn with
  | nil => exact inStep_start
  | append_singleton es e ih =>
    rw [List.countP_append] at hfew
    have hi := ih (by omega)
    have hcount := hi.few
    exact hi.step (by omega) e

/-- What neither an input nor a datagram undoes in a view is there at the end of a run. -/
lemma kept_run {P : View → Prop} (hpredict : ∀ v tick flags, P v → P (v.predict tick flags))
    (happly : ∀ v p now, P v → P (v.apply p now)) (before behind : List Event)
    (h : P (after server player before).view) :
    P (after server player (before ++ behind)).view := by
  induction behind using List.reverseRecOn with
  | nil => rwa [List.append_nil]
  | append_singleton behind e ih =>
    rw [← List.append_assoc, after_snoc]
    rcases turn (running_after (before ++ behind)) e with
      ⟨keys, now, flags, -, -, -, -, hview, -⟩ | ⟨keys, now, -, -, -, -, hview, -⟩ |
      ⟨a, p, -, -, -, -, hview, -⟩ | ⟨a, -, -, -, -, hview, -⟩ <;> rw [hview]
    · exact hpredict _ _ _ ih
    · exact ih
    · exact happly _ _ _ ih
    · exact ih

/-- What a datagram of the server says is taken into the view. -/
lemma view_said {a : Inbound} {p : Packet} (h : said? server a = some p) :
    (after server player (es ++ [.datagram a])).view =
      (after server player es).view.apply p a.now := by
  have hserver : (after server player es).server = server := (same_after es).server
  rw [after_snoc]
  rcases turn (running_after es) (.datagram a) with
    ⟨keys, now, flags, hevent, -⟩ | ⟨keys, now, hevent, -⟩ |
    ⟨b, q, hevent, hsaid, -, -, hview, -⟩ | ⟨b, hevent, hsaid, -⟩
  · cases hevent
  · cases hevent
  · cases hevent
    rw [hserver] at hsaid
    obtain rfl : p = q := Option.some.inj (h.symm.trans hsaid)
    exact hview
  · cases hevent
    rw [hserver] at hsaid
    cases h.symm.trans hsaid

/-- **The wire of a session and its ledger agree.** The inputs on the wire are a registration and
then the moves, numbered from one on: one for each frame in which the game goes on, which the view
predicts with just those bits, and none for any other frame; an outbox with room keeps them all in
this order (`Outbox.takes_in_order`). So the view is what the traffic makes of a new one, and it
keeps just the moves that no report has counted which was accepted after they were queued. A game
that is over stays over, and a player of whom it was said that he has left is shown no more,
whatever arrives. -/
theorem wire_and_ledger_agree (server : Endpoint) (player : UInt32) (es : List Event)
    (hfew : es.countP Event.isFrame < UInt32.size - 1) :
    (∃ ms, inputsOf (queued server player es) = ⟨player, 0, .empty⟩ :: ms ∧
      ms.map (·.tick.toNat) = List.range' 1 ms.length ∧ ∀ m ∈ ms, m.player = player) ∧
    (∀ before keys now behind, es = before ++ .frame keys now :: behind →
      ((after server player before).view.status = .playing → ∃ m : InputReport,
        inputsOf ((after server player before).frame keys now).2 = [m] ∧ 0 < m.tick ∧
        ((after server player before).frame keys now).1.view =
          (after server player before).view.predict m.tick m.inputs) ∧
      ((after server player before).view.status ≠ .playing →
        inputsOf ((after server player before).frame keys now).2 = [])) ∧
    (inputsOf (queued server player es) = inputs (traffic server player es) ∧
      (after server player es).view =
        (traffic server player es).foldl View.enter { player := player }) ∧
    (after server player es).view.pending = ledger player (traffic server player es) ∧
    (∀ before a behind m, es = before ++ .datagram a :: behind →
      said? server a = some (.player m) → m.player = player →
      (((after server player before).view.applyReport m a.now).1 = true ↔
        Accepted player (traffic server player before) m)) ∧
    (∀ before behind, es = before ++ behind →
      (after server player before).view.status ≠ .playing →
        (after server player es).view.status ≠ .playing) ∧
    ∀ before a behind q, es = before ++ .datagram a :: behind →
      said? server a = some (.leave ⟨q⟩) → q ≠ player →
        ∀ ship ∈ (after server player es).view.snapshot.ships, ship.player ≠ q := by
  have hi : InStep server player es := inStep_after hfew
  have hfront {before behind : List Event} {e : Event} (h : es = before ++ e :: behind) :
      InStep server player before := by
    refine inStep_after (lt_of_le_of_lt ?_ hfew)
    rw [h, List.countP_append]
    omega
  refine ⟨hi.wire ▸ hi.wired.moves, fun before keys now behind hes => ?_, ⟨hi.wire, hi.view⟩,
    hi.informed.pending,
    fun before a behind m hes _ hown => (hfront hes).informed.answer hown a.now, ?_, ?_⟩
  · rcases turn (running_after before) (.frame keys now) with
      ⟨keys', now', flags, hevent, hplay, hsent, -, hview, -⟩ |
      ⟨keys', now', hevent, hended, hsent, -⟩ | ⟨a, p, hevent, -⟩ | ⟨a, hevent, -⟩
    · have hb := hfront hes
      have hroom : (inputs (traffic server player before)).length < UInt32.size := by
        have hcount := hb.few
        rw [hes, List.countP_append] at hfew
        omega
      exact ⟨fun _ => ⟨_, hsent, (hb.wired.fresh hroom).1, hview⟩, fun h => absurd hplay h⟩
    · exact ⟨fun h => absurd h hended, fun _ => hsent⟩
    · cases hevent
    · cases hevent
  · rintro before behind rfl hended
    refine kept_run (P := fun v => v.status ≠ .playing) (fun v tick flags h => ?_)
      (fun v p now h hplay => h (View.playing_of_apply hplay)) before behind hended
    rwa [View.status_predict]
  · rintro before a behind q hes hsaid hq
    have hsplit : es = (before ++ [.datagram a]) ++ behind := by rw [hes, List.append_assoc]; rfl
    have hown : q ≠ (after server player before).view.player := by
      rwa [(hfront hes).informed.own]
    have hgone : View.Gone q (after server player (before ++ [.datagram a])).view := by
      rw [view_said hsaid]
      exact View.gone_leave hown a.now
    have hend := kept_run (P := View.Gone q) (fun v tick flags h => h.predict tick flags)
      (fun v p now h => h.apply p now) (before ++ [.datagram a]) behind hgone
    rw [← hsplit] at hend
    refine hend.not_shown ?_
    rwa [hi.informed.own]

/-- The server's address. -/
def home : Endpoint := ⟨.loopback, 5252, 0⟩

/-- A datagram of the server. -/
def fromHome (p : Packet) : Inbound := ⟨p.encode, home, 40⟩

/-- Two moves, of which the first is counted. -/
def opening : List Event :=
  [.frame { right := true } 0, .frame { up := true } 16,
    .datagram (fromHome (.player ⟨1, 1, 1, 30, 0x42d20000, 0x43fa0000⟩))]

/-- Player 2 is reported once more; then the game is over. -/
def ending : List Event :=
  [.datagram (fromHome (.player ⟨2, 2, 0, 30, 0, 0⟩)), .datagram (fromHome .kick)]

/-- In between player 2 leaves, and at last the key is still down. -/
def wholeGame : List Event :=
  opening ++ .datagram (fromHome (.leave ⟨2⟩)) :: (ending ++ [.frame { right := true } 48])

/-- The second move is still in the ledger; player 2 is not shown, and nothing is moved any more. -/
theorem second_move_is_kept :
    wholeGame.countP Event.isFrame < UInt32.size - 1 ∧
    ledger 1 (traffic home 1 wholeGame) = [⟨2, .up⟩] ∧
    (∃ m : InputReport, inputsOf ((after home 1 []).frame { right := true } 0).2 = [m] ∧
      0 < m.tick) ∧
    Accepted 1 (traffic home 1 (opening.take 2)) ⟨1, 1, 1, 30, 0x42d20000, 0x43fa0000⟩ ∧
    (said? home (fromHome (.leave ⟨2⟩)) = some (.leave ⟨2⟩) ∧
      ∀ ship ∈ (after home 1 wholeGame).view.snapshot.ships, ship.player ≠ 2) ∧
    (after home 1 wholeGame).view.status ≠ .playing ∧
    inputsOf ((after home 1 (opening ++ .datagram (fromHome (.leave ⟨2⟩)) :: ending)).frame
      { right := true } 48).2 = [] := by
  have hfew : wholeGame.countP Event.isFrame < UInt32.size - 1 := by decide
  obtain ⟨-, hframes, -, hledger, hanswer, hstatus, hgone⟩ :=
    wire_and_ledger_agree home 1 wholeGame hfew
  have hsaid : said? home (fromHome (.leave ⟨2⟩)) = some (.leave ⟨2⟩) := by decide +kernel
  have hover : (after home 1
      (opening ++ .datagram (fromHome (.leave ⟨2⟩)) :: ending)).view.status ≠ .playing := by
    decide +kernel
  obtain ⟨m, hm, hpos, -⟩ := (hframes [] _ _ _ rfl).1 rfl
  refine ⟨hfew, hledger.symm.trans (by decide +kernel), ⟨m, hm, hpos⟩, ?_,
    ⟨hsaid, hgone opening _ _ 2 rfl hsaid (by decide)⟩,
    hstatus _ [.frame { right := true } 48] rfl hover, (hframes _ _ _ [] rfl).2 hover⟩
  exact (hanswer (opening.take 2) _ _ _ rfl (by decide +kernel) rfl).1 (by decide +kernel)

end Session

end CoopShooter
