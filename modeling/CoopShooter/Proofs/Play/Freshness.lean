import Mathlib
import CoopShooter.Proofs.Play.Counters

/-!
The room counts in words, and after the last word comes zero. As long as the room has not come
round, a player who has heard everything takes the next report on its ship and the next full list
for news. From then on it takes every report for old, and the lists too.
-/

namespace CoopShooter

namespace Watch

open Counter

variable {p : UInt32} {a : Endpoint} {w : Watch} {n : Nat} {heard : List Packet} {b : Room.Act}
  {o : Offer}

/-- The next report on the own ship is news as long as numbers have not come round. -/
lemma report_amid (h : reports.Stands n w) (hp : w.view.player = p) (now : UInt32)
    (hheard : ∀ q ∈ heard, ∃ o ∈ (w.room.step b).offers, o.packet = q)
    (ho : o ∈ (w.room.step b).offers) {m : PlayerReport} (hm : o.packet = .player m)
    (hown : m.player = p) :
    (n + 1 < UInt32.size → (∀ m', .player m' ∈ heard → m'.player ≠ p) →
      ((w.view.applyAll now heard).applyReport m now).1 = true) ∧
    (UInt32.size ≤ n + 1 → (w.view.applyAll now heard).applyReport m now =
      (false, w.view.applyAll now heard)) := by
  have hamid := h.amid b now hheard
  have hplayer : m.player = (w.view.applyAll now heard).player := by
    rw [View.player_applyAll, hp, hown]
  have hnumber : m.sequence = .ofNat (n + 1) := by
    rw [(Room.report_step ho hm).2, UInt32.ofNat_add, ← h.current]
    rfl
  generalize w.view.applyAll now heard = v at hamid hplayer ⊢
  have hany := any_greatest n
  refine ⟨fun hlt hnone => ?_, fun hround => ?_⟩
  · rcases hamid with hlast | ⟨-, q, hq, hk⟩
    · have hlast : v.lastSequence = greatest n := hlast
      rw [decide_eq_false (by omega)] at hany
      rw [View.applyReport, if_pos hplayer, hlast, hnumber, if_neg (Bool.eq_false_iff.1 hany)]
    · -- no own report is among those that have come
      change View.reportNumber? w.view.player q = _ at hk
      unfold View.reportNumber? at hk
      split at hk
      · next m' =>
        rw [hp, if_neg (hnone m' hq)] at hk
        cases hk
      · cases hk
  · have hlast : v.lastSequence = greatest n :=
      hamid.elim id fun hlast => hlast.1.trans (greatest_succ hround)
    rw [decide_eq_true hround] at hany
    rw [View.applyReport, if_pos hplayer, hlast, hnumber, if_pos hany]

/-- The next list is new as long as numbers have not come round. Only under the very last number it
would be taken for the last list before it. -/
lemma list_amid (h : lists.Stands n w) (now : UInt32)
    (hheard : ∀ q ∈ heard, ∃ o ∈ (w.room.step b).offers, o.packet = q)
    (ho : o ∈ (w.room.step b).offers) {header : SyncHeader} {es : List SyncEntry}
    (hs : o.packet = .sync header es) :
    (n + 1 < UInt32.size → (w.view.applyAll now heard).assembly.Takes header es) ∧
    (UInt32.size ≤ n + 1 → (n + 2) % UInt32.size ≠ 0 →
      (w.view.applyAll now heard).assembly.accept header es =
        (none, (w.view.applyAll now heard).assembly)) := by
  have hsize : UInt32.size = 4294967296 := rfl
  have hamid := h.amid b now hheard
  obtain ⟨-, hsync, hwell⟩ := Room.list_step ho hs
  have hnumber : header.sync = .ofNat (n + 1) := by
    rw [hsync, UInt32.ofNat_add, ← h.current]
    rfl
  have htoNat : header.sync.toNat = (n + 1) % UInt32.size := by
    rw [hnumber, UInt32.toNat_ofNat']
  generalize w.view.applyAll now heard = v at hamid ⊢
  refine ⟨fun hlt => SyncAssembly.takes_of_le hwell (fun k hk => ?_) es, fun hround hmod => ?_⟩
  · have hk' : k.toNat ≤ n + 1 := by
      rcases hamid with hlast | ⟨hlast, -⟩
      · have hlast := toNat_of_greatest (hlast.symm.trans hk)
        omega
      · have hlast := toNat_of_greatest (hlast.symm.trans hk)
        omega
    rw [UInt32.le_iff_toNat_le, htoNat, Nat.mod_eq_of_lt hlt]
    exact hk'
  · have hlast : v.assembly.sync = greatest n :=
      hamid.elim id fun hlast => hlast.1.trans (greatest_succ hround)
    rcases hk : greatest n with _ | k
    · unfold greatest at hk
      split_ifs at hk
      omega
    · refine SyncAssembly.accept_stale (hlast.trans hk) ?_ es
      have hmax := toNat_of_greatest hk
      rw [UInt32.lt_iff_toNat_lt, htoNat, hmax]
      rw [hsize] at hround hmod ⊢
      omega

/-- **News is fresh until numbers come round.** A room is made, and one of its players has heard
every tick of its game so far. Then its view takes the next tick's report on its own ship, and keeps
every fragment of the list that this tick may send, whatever else of the tick came before them, as
long as fewer than 2^32 - 1 ticks and lists have been counted. From then on the counters of the room
go on from zero, and the view refuses each report and, but for the ones that have that last number
again, each list. -/
theorem news_is_fresh_until_numbers_come_round (id : UInt32) (settings : Settings) (seed : UInt64)
    (p : UInt32) (a : Endpoint) (bs : List (Room.Act × UInt32))
    (hears : (Room.create id settings seed).HearsTicks p a (bs.map (·.1))) :
    let w := (fresh id settings seed p).run a bs
    let ticks := (Room.create id settings seed).tickCount (bs.map (·.1))
    let syncs := (Room.create id settings seed).syncCount (bs.map (·.1))
    w.room.sequence = .ofNat ticks ∧ w.room.syncs = .ofNat syncs ∧
    (w.room.playing = true → w.room.At p a → ∀ dt t,
      ∃ m, ⟨a, .player m⟩ ∈ (w.room.update dt t).offers ∧ m.player = p) ∧
    ∀ dt t now heard, (∀ q ∈ heard, ∃ o ∈ (w.room.update dt t).offers, o.packet = q) →
      let v := w.view.applyAll now heard
      ∀ o ∈ (w.room.update dt t).offers,
        (∀ m, o.packet = .player m → m.player = p →
          (ticks + 1 < UInt32.size → (∀ m', .player m' ∈ heard → m'.player ≠ p) →
            (v.applyReport m now).1 = true) ∧
          (UInt32.size ≤ ticks + 1 → v.applyReport m now = (false, v))) ∧
        ∀ header es, o.packet = .sync header es →
          (syncs + 1 < UInt32.size → v.assembly.Takes header es) ∧
          (UInt32.size ≤ syncs + 1 → (syncs + 2) % UInt32.size ≠ 0 →
            v.assembly.accept header es = (none, v.assembly)) := by
  intro w ticks syncs
  obtain ⟨hreports, hplayer⟩ := Stands.run (c := reports) ⟨rfl, rfl⟩ bs hears
  obtain ⟨hlists, -⟩ := Stands.run (c := lists) ⟨rfl, rfl⟩ bs hears
  rw [count_reports] at hreports
  rw [count_lists] at hlists
  refine ⟨hreports.current, hlists.current, fun hplay hat => Room.own_report_mem hplay hat, ?_⟩
  intro dt t now heard hheard v o ho
  refine ⟨fun m hm hown => ?_, fun header es hs => ?_⟩
  · exact report_amid (b := .update dt t) hreports hplayer now hheard ho hm hown
  · exact list_amid (b := .update dt t) hlists now hheard ho hs

end Watch

/-! ### A room that comes round -/

namespace Room

/-- Every tick is heard by the player and sends a list, since no time has to pass between lists. -/
structure Streams (r : Room) (p : UInt32) (a : Endpoint) : Prop where
  playing : r.playing = true
  known : r.At p a
  due : r.settings.syncSeconds ≤ r.syncTimer + 0
  again : r.settings.syncSeconds ≤ 0 + 0

variable {r : Room} {p : UInt32} {a : Endpoint}

lemma Streams.update (h : r.Streams p a) (t : UInt32) : (r.update 0 t).state.Streams p a ∧
    (r.update 0 t).state.sequence = r.sequence + 1 ∧ (r.update 0 t).state.syncs = r.syncs + 1 := by
  obtain ⟨-, hsettings, hplaying, hplayers⟩ := update_frame r 0 t
  have hspawned : ((r.ticked 0 t).spawnDue 0 t).state.SyncIsDue 0 ∧
      ((r.ticked 0 t).spawnDue 0 t).state.syncs = r.syncs := by
    rcases spawnDue_cases (r.ticked 0 t) 0 t with ⟨timer, hs⟩ | ⟨timer, g, e, hs⟩
    · rw [hs]
      exact ⟨h.due, rfl⟩
    · rw [hs]
      exact ⟨h.due, rfl⟩
  have hsynced : (r.update 0 t).state.syncTimer = 0 ∧ (r.update 0 t).state.syncs = r.syncs + 1 := by
    rw [update_playing 0 t h.playing, syncDue_due hspawned.1]
    exact ⟨rfl, congrArg (· + 1) hspawned.2⟩
  refine ⟨⟨hplaying.trans h.playing, (at_respawned hplayers).2 h.known, ?_, ?_⟩,
    sequence_update h.playing 0 t, hsynced.2⟩
  · rw [hsettings, hsynced.1]
    exact h.again
  · rw [hsettings]
    exact h.again

lemma Streams.run (h : r.Streams p a) (t : UInt32) (n : Nat) :
    r.HearsTicks p a (List.replicate n (.update 0 t)) ∧
      (r.after (List.replicate n (.update 0 t))).Streams p a ∧
      Counter.reports.count r (List.replicate n (.update 0 t)) = n ∧
      Counter.lists.count r (List.replicate n (.update 0 t)) = n := by
  induction n generalizing r with
  | zero => exact ⟨trivial, h, rfl, rfl⟩
  | succ n ih =>
    obtain ⟨hnext, hsequence, hsyncs⟩ := h.update t
    obtain ⟨hhears, hstreams, hreports, hlists⟩ := ih hnext
    have hsequence' : (r.update 0 t).state.sequence ≠ r.sequence := hsequence ▸ succ_ne _
    have hsyncs' : (r.update 0 t).state.syncs ≠ r.syncs := hsyncs ▸ succ_ne _
    rw [List.replicate_succ]
    refine ⟨⟨fun _ => h.known, hhears⟩, hstreams, ?_, ?_⟩
    · exact (congrArg₂ (· + ·) (if_neg hsequence') hreports).trans (Nat.add_comm 1 n)
    · exact (congrArg₂ (· + ·) (if_neg hsyncs') hlists).trans (Nat.add_comm 1 n)

end Room

namespace Watch

open Counter

def listener : Endpoint := ⟨.loopback, 6001, 0⟩

/-- A player comes, starts the game and is heard. -/
def debut : List Room.Act :=
  [.add 7 "ann", .start 7, .input ⟨7, 1, .empty⟩ listener 0]

/-- Then the game runs for so many ticks, each of which is heard at once. -/
def stream (ticks : Nat) : List (Room.Act × UInt32) :=
  (debut ++ List.replicate ticks (Room.Act.update 0 0)).map (·, 0)

lemma map_fst_stream (ticks : Nat) :
    (stream ticks).map (·.1) = debut ++ List.replicate ticks (Room.Act.update 0 0) := by
  rw [stream, List.map_map]
  exact List.map_id _

lemma streams_debut : ((Room.create 1 ⟨4, 0⟩ 0).after debut).Streams 7 listener where
  playing := by decide +kernel
  known := by decide +kernel
  due := by decide +kernel
  again := by decide +kernel

/-- The player hears every tick and every list, and the room goes on as before. -/
lemma stands_stream (ticks : Nat) :
    let w := (fresh 1 ⟨4, 0⟩ 0 7).run listener (stream ticks)
    (Room.create 1 ⟨4, 0⟩ 0).HearsTicks 7 listener ((stream ticks).map (·.1)) ∧
      w.room.Streams 7 listener ∧ w.view.player = 7 ∧ reports.Stands ticks w ∧
      lists.Stands ticks w := by
  obtain ⟨hears, hstreams, hreports, hlists⟩ := streams_debut.run 0 ticks
  have hears : (Room.create 1 ⟨4, 0⟩ 0).HearsTicks 7 listener ((stream ticks).map (·.1)) := by
    rw [map_fst_stream, Room.hearsTicks_append]
    exact ⟨by simp [debut, Room.HearsTicks, Room.Ticks], hears⟩
  obtain ⟨hr, hplayer⟩ := Stands.run (c := reports) ⟨rfl, rfl⟩ (stream ticks) hears
  obtain ⟨hl, -⟩ := Stands.run (c := lists) ⟨rfl, rfl⟩ (stream ticks) hears
  have hnone : reports.count (.create 1 ⟨4, 0⟩ 0) debut = 0 ∧
      lists.count (.create 1 ⟨4, 0⟩ 0) debut = 0 := by
    decide +kernel
  rw [map_fst_stream, count_append, hnone.1, hreports, Nat.zero_add] at hr
  rw [map_fst_stream, count_append, hnone.2, hlists, Nat.zero_add] at hl
  refine ⟨hears, ?_, hplayer, hr, hl⟩
  rw [room_run, map_fst_stream]
  change ((Room.create 1 ⟨4, 0⟩ 0).after _).Streams _ _
  rw [Room.after_append]
  exact hstreams

/-- The next tick reports on the ship and sends a list. -/
lemma next_stream (ticks : Nat) :
    let w := (fresh 1 ⟨4, 0⟩ 0 7).run listener (stream ticks)
    (∃ m, ⟨listener, .player m⟩ ∈ (w.room.update 0 0).offers ∧ m.player = 7 ∧
      m.sequence = .ofNat (ticks + 1)) ∧
    ∃ header es, ⟨listener, .sync header es⟩ ∈ (w.room.update 0 0).offers ∧
      header.sync = .ofNat (ticks + 1) := by
  intro w
  obtain ⟨-, hstreams, -, hreports, hlists⟩ := stands_stream ticks
  have hlisted : (w.room.update 0 0).state.syncs ≠ w.room.syncs := by
    rw [(hstreams.update 0).2.2]
    exact Room.succ_ne _
  obtain ⟨m, hm, hown⟩ := Room.own_report_mem hstreams.playing hstreams.known 0 0
  obtain ⟨header, es, hs⟩ := Room.list_mem hstreams.playing hstreams.known hlisted
  refine ⟨⟨m, hm, hown, ?_⟩, header, es, hs, ?_⟩
  · rw [(Room.report_step (b := .update 0 0) hm rfl).2, UInt32.ofNat_add]
    exact congrArg (· + 1) hreports.current
  · rw [(Room.list_step (b := .update 0 0) hs rfl).2.1, UInt32.ofNat_add]
    exact congrArg (· + 1) hlists.current

/-- The third tick and its list are news to a player who has heard two. -/
theorem third_tick_is_news :
    let w := (fresh 1 ⟨4, 0⟩ 0 7).run listener (stream 2)
    (Room.create 1 ⟨4, 0⟩ 0).HearsTicks 7 listener ((stream 2).map (·.1)) ∧
      (∃ m, ⟨listener, .player m⟩ ∈ (w.room.update 0 0).offers ∧ m.player = 7 ∧
        (w.view.applyReport m 0).1 = true) ∧
      ∃ header es, ⟨listener, .sync header es⟩ ∈ (w.room.update 0 0).offers ∧
        w.view.assembly.Takes header es := by
  intro w
  have hears := (stands_stream 2).1
  obtain ⟨⟨m, hm, hown, -⟩, header, es, hs, -⟩ := next_stream 2
  have hcounts : (Room.create 1 ⟨4, 0⟩ 0).tickCount ((stream 2).map (·.1)) = 2 ∧
      (Room.create 1 ⟨4, 0⟩ 0).syncCount ((stream 2).map (·.1)) = 2 := by
    decide +kernel
  obtain ⟨-, -, -, hnews⟩ :=
    news_is_fresh_until_numbers_come_round 1 ⟨4, 0⟩ 0 7 listener (stream 2) hears
  rw [hcounts.1, hcounts.2] at hnews
  have hnone : ∀ q ∈ ([] : List Packet), ∃ o ∈ (w.room.update 0 0).offers, o.packet = q := by simp
  refine ⟨hears, ⟨m, hm, hown, ?_⟩, header, es, hs, ?_⟩
  · exact ((hnews 0 0 0 [] hnone _ hm).1 m rfl hown).1 (by decide) (by simp)
  · exact ((hnews 0 0 0 [] hnone _ hs).2 header es rfl).1 (by decide)

/-- Once the room has come round, a player who has heard everything refuses what comes next. -/
lemma refused_stream {ticks : Nat} (hround : UInt32.size ≤ ticks + 1)
    (hlast : (ticks + 2) % UInt32.size ≠ 0) :
    let w := (fresh 1 ⟨4, 0⟩ 0 7).run listener (stream ticks)
    (∃ m, ⟨listener, .player m⟩ ∈ (w.room.update 0 0).offers ∧ m.player = 7 ∧
      m.sequence = .ofNat (ticks + 1) ∧ w.view.applyReport m 0 = (false, w.view)) ∧
    ∃ header es, ⟨listener, .sync header es⟩ ∈ (w.room.update 0 0).offers ∧
      header.sync = .ofNat (ticks + 1) ∧
      w.view.assembly.accept header es = (none, w.view.assembly) := by
  intro w
  obtain ⟨-, -, hplayer, hreports, hlists⟩ := stands_stream ticks
  obtain ⟨⟨m, hm, hown, hsequence⟩, header, es, hs, hsync⟩ := next_stream ticks
  have hnone : ∀ q ∈ ([] : List Packet),
      ∃ o ∈ (w.room.step (.update 0 0)).offers, o.packet = q := by simp
  refine ⟨⟨m, hm, hown, hsequence, ?_⟩, header, es, hs, hsync, ?_⟩
  · exact (report_amid (b := .update 0 0) hreports hplayer 0 hnone hm rfl hown).2 hround
  · exact (list_amid (b := .update 0 0) hlists 0 hnone hs rfl).2 hround hlast

/-- After 2^32 - 1 ticks, each heard and each with a list, the next report and the next list have
the number zero and are refused. -/
theorem tick_after_last_number_is_refused :
    let w := (fresh 1 ⟨4, 0⟩ 0 7).run listener (stream (UInt32.size - 1))
    (Room.create 1 ⟨4, 0⟩ 0).HearsTicks 7 listener ((stream (UInt32.size - 1)).map (·.1)) ∧
      (∃ m, ⟨listener, .player m⟩ ∈ (w.room.update 0 0).offers ∧ m.player = 7 ∧
        m.sequence = 0 ∧ w.view.applyReport m 0 = (false, w.view)) ∧
      ∃ header es, ⟨listener, .sync header es⟩ ∈ (w.room.update 0 0).offers ∧ header.sync = 0 ∧
        w.view.assembly.accept header es = (none, w.view.assembly) := by
  have hround : UInt32.size ≤ UInt32.size - 1 + 1 := by decide
  have hzero : UInt32.ofNat (UInt32.size - 1 + 1) = 0 := by decide
  obtain ⟨⟨m, hm, hown, hsequence, hreport⟩, header, es, hs, hsync, hlist⟩ :=
    refused_stream hround (by decide)
  exact ⟨(stands_stream _).1, ⟨m, hm, hown, hsequence.trans hzero, hreport⟩, header, es, hs,
    hsync.trans hzero, hlist⟩

end Watch

end CoopShooter
