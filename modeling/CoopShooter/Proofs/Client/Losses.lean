import Mathlib
import CoopShooter.Proofs.Client.Reconcile

/-!
What the window of the last reports holds, and what the share of missing ones is computed from.

Only a report with a new greatest number gets into the window, so that the numbers in it rise; and
times are compared on a clock that comes round, which does no harm as long as two reports that get
in are not half a turn apart. So the window holds all of them that are young enough, and its length
and its two ends tell how many numbers are missing.
-/

namespace CoopShooter

lemma dropWhile_eq_filter {α : Type} {p q : α → Bool} {l : List α}
    (hpq : ∀ a ∈ l, p a = !q a) (hmono : l.Pairwise fun a b => q a = true → q b = true) :
    l.dropWhile p = l.filter q := by
  induction l with
  | nil => rfl
  | cons a l ih =>
    rw [List.pairwise_cons] at hmono
    rw [List.forall_mem_cons] at hpq
    cases hq : q a with
    | false => rw [List.dropWhile_cons_of_pos (by simp [hpq.1, hq]),
        List.filter_cons_of_neg (by simp [hq]), ih hpq.2 hmono.2]
    | true =>
      have hall : l.filter q = l := List.filter_eq_self.2 fun b hb => hmono.1 b hb hq
      rw [List.dropWhile_cons_of_neg (by simp [hpq.1, hq]), List.filter_cons_of_pos hq, hall]

/-- Times are told apart on the clock that comes round, if they are less than a turn apart. -/
lemma toNat_elapsed {a b : ℕ} (hle : a ≤ b) (hlt : b < a + 2 ^ 32) :
    (UInt32.ofNat b - UInt32.ofNat a).toNat = b - a := by
  rw [UInt32.toNat_sub, UInt32.toNat_ofNat', UInt32.toNat_ofNat']
  omega

/-! ### What is computed -/

namespace LossWindow

/-- What the share of missing reports is computed from: of the numbers from the oldest to the
newest, so many were received, and all the others were not. The count of those that are expected is
kept in a word, which has no room for just one number. -/
structure Counts (w : LossWindow) (oldest newest : UInt32) : Prop where
  first : w.arrivals.head?.map (·.sequence) = some oldest
  last : w.arrivals.getLast?.map (·.sequence) = some newest
  ordered : oldest ≤ newest
  received_pos : 1 ≤ w.arrivals.length
  received_le : w.arrivals.length ≤ newest.toNat - oldest.toNat + 1
  missing : ((Finset.Icc oldest.toNat newest.toNat).filter fun k =>
      ∀ a ∈ w.arrivals, a.sequence.toNat ≠ k).card =
    newest.toNat - oldest.toNat + 1 - w.arrivals.length
  expected : w.expected.toNat = (newest.toNat - oldest.toNat + 1) % 2 ^ 32
  expected_fits : w.expected ≠ 0 ∧ w.arrivals.length ≤ w.expected.toNat ↔
    ¬ (oldest.toNat = 0 ∧ newest.toNat = 2 ^ 32 - 1)

variable {w : LossWindow}

/-- Rising numbers lie between the first and the last of them. -/
lemma between {as : List Arrival} {first last : Arrival}
    (hrise : as.Pairwise fun a b => a.sequence < b.sequence) (hfirst : as.head? = some first)
    (hlast : as.getLast? = some last) :
    ∀ a ∈ as, first.sequence.toNat ≤ a.sequence.toNat ∧ a.sequence.toNat ≤ last.sequence.toNat := by
  obtain ⟨bs, rfl⟩ := List.head?_eq_some_iff.1 hfirst
  obtain ⟨cs, hcs⟩ := List.getLast?_eq_some_iff.1 hlast
  intro a ha
  constructor
  · rcases List.mem_cons.1 ha with rfl | ha
    · exact le_rfl
    · exact (UInt32.lt_iff_toNat_lt.1 ((List.pairwise_cons.1 hrise).1 a ha)).le
  · rw [hcs] at ha hrise
    rcases List.mem_append.1 ha with ha | ha
    · exact (UInt32.lt_iff_toNat_lt.1
        ((List.pairwise_append.1 hrise).2.2 a ha last (List.mem_singleton_self last))).le
    · rw [List.mem_singleton.1 ha]

/-- **The numbers that are missing are counted** in a window whose numbers rise. -/
theorem counts_of_rising (hrise : w.arrivals.Pairwise fun a b => a.sequence < b.sequence)
    {first last : Arrival} (hfirst : w.arrivals.head? = some first)
    (hlast : w.arrivals.getLast? = some last) : w.Counts first.sequence last.sequence := by
  have hbetween := between hrise hfirst hlast
  have hordered : first.sequence ≤ last.sequence :=
    UInt32.le_iff_toNat_le.2 (hbetween first (List.mem_of_mem_head? hfirst)).2
  have hle := UInt32.le_iff_toNat_le.1 hordered
  have hpos : 0 < w.arrivals.length :=
    List.length_pos_iff.2 (List.ne_nil_of_mem (List.mem_of_mem_head? hfirst))
  -- the numbers received are as many as there are reports, and all lie within the span
  obtain ⟨seen, hseen⟩ : ∃ seen, seen = (w.arrivals.map (·.sequence.toNat)).toFinset := ⟨_, rfl⟩
  have hcard : seen.card = w.arrivals.length := by
    have hnodup : (w.arrivals.map (·.sequence.toNat)).Nodup :=
      List.pairwise_map.2 (hrise.imp fun h => (UInt32.lt_iff_toNat_lt.1 h).ne)
    rw [hseen, List.toFinset_card_of_nodup hnodup, List.length_map]
  have hsub : seen ⊆ Finset.Icc first.sequence.toNat last.sequence.toNat := by
    intro k hk
    rw [hseen, List.mem_toFinset, List.mem_map] at hk
    obtain ⟨a, ha, rfl⟩ := hk
    exact Finset.mem_Icc.2 (hbetween a ha)
  have hall : (Finset.Icc first.sequence.toNat last.sequence.toNat).card =
      last.sequence.toNat - first.sequence.toNat + 1 := by
    rw [Nat.card_Icc]
    omega
  have hreceived : w.arrivals.length ≤ last.sequence.toNat - first.sequence.toNat + 1 := by
    rw [← hcard, ← hall]
    exact Finset.card_le_card hsub
  have hexpected : w.expected.toNat =
      (last.sequence.toNat - first.sequence.toNat + 1) % 2 ^ 32 := by
    rw [LossWindow.expected, hfirst, hlast]
    change (last.sequence - first.sequence + 1).toNat = _
    rw [UInt32.toNat_add, UInt32.toNat_sub_of_le _ _ hordered]
    rfl
  refine ⟨by rw [hfirst]; rfl, by rw [hlast]; rfl, hordered, hpos, hreceived, ?_, hexpected, ?_⟩
  · have hmissing : ((Finset.Icc first.sequence.toNat last.sequence.toNat).filter fun k =>
        ∀ a ∈ w.arrivals, a.sequence.toNat ≠ k) =
        Finset.Icc first.sequence.toNat last.sequence.toNat \ seen := by
      rw [Finset.sdiff_eq_filter]
      refine Finset.filter_congr fun k _ => ?_
      simp [hseen]
    rw [hmissing, Finset.card_sdiff_of_subset hsub, hall, hcard]
  · have hlt := last.sequence.toNat_lt
    rw [ne_eq, ← UInt32.toNat_inj, hexpected]
    change ¬ _ = 0 ∧ _ ↔ _
    omega

end LossWindow

namespace View

/-! ### Reports in time -/

/-- A report and when it came, in milliseconds on a clock that does not come round. -/
structure TimedReport where
  report : PlayerReport
  ms : ℕ

/-- The report as the window keeps it. -/
def TimedReport.arrival (h : TimedReport) : Arrival := ⟨.ofNat h.ms, h.report.sequence⟩

/-- Takes a report at the time at which it came. -/
def heed (v : View) (h : TimedReport) : Bool × View :=
  v.applyReport h.report (.ofNat h.ms)

/-- A new view after some reports. -/
def heedAll (player : UInt32) (hs : List TimedReport) : View :=
  hs.foldl (fun v h => (v.heed h).2) { player := player }

/-- The reports that are news: the number of each is greater than those of all that were before. -/
def news (hs : List TimedReport) : List TimedReport :=
  hs.foldl (fun kept h =>
    if kept.all (·.report.sequence < h.report.sequence) then kept ++ [h] else kept) []

/-- The reports of the last five seconds. -/
def recent (ms : ℕ) (hs : List TimedReport) : List TimedReport :=
  hs.filter fun h => ms ≤ h.ms + 5000

/-- When the last report came, zero before the first. -/
def lastTime (hs : List TimedReport) : ℕ := (hs.getLast?.map (·.ms)).getD 0

/-- Reports on a player's own ship in the order of their times. Between two of them that are news
there is less than half a turn of the clock. -/
structure Timely (player : UInt32) (hs : List TimedReport) : Prop where
  own : ∀ h ∈ hs, h.report.player = player
  ordered : hs.Pairwise (·.ms ≤ ·.ms)
  close : (news hs).IsChain fun a b => b.ms < a.ms + 2 ^ 31

variable {player : UInt32} {hs : List TimedReport} {h : TimedReport}

lemma heedAll_snoc (player : UInt32) (hs : List TimedReport) (h : TimedReport) :
    heedAll player (hs ++ [h]) = ((heedAll player hs).heed h).2 := by
  simp [heedAll, List.foldl_append]

lemma news_snoc (hs : List TimedReport) (h : TimedReport) : news (hs ++ [h]) =
    if (news hs).all (·.report.sequence < h.report.sequence) then news hs ++ [h] else news hs := by
  simp [news, List.foldl_append]

lemma news_snoc_of_all (hall : ∀ g ∈ news hs, g.report.sequence < h.report.sequence) :
    news (hs ++ [h]) = news hs ++ [h] := by
  rw [news_snoc, if_pos (by simpa using hall)]

lemma news_sublist (hs : List TimedReport) : (news hs).Sublist hs := by
  induction hs using List.reverseRecOn with
  | nil => exact List.Sublist.slnil
  | append_singleton hs h ih =>
    rw [news_snoc]
    split_ifs
    · exact ih.append (List.Sublist.refl [h])
    · exact ih.trans (List.sublist_append_left hs [h])

lemma news_rising (hs : List TimedReport) :
    (news hs).Pairwise fun a b => a.report.sequence < b.report.sequence := by
  induction hs using List.reverseRecOn with
  | nil => exact List.Pairwise.nil
  | append_singleton hs h ih =>
    rw [news_snoc]
    split_ifs with hall
    · refine List.pairwise_append.2 ⟨ih, List.pairwise_singleton _ _, fun a ha b hb => ?_⟩
      rw [List.mem_singleton.1 hb]
      simpa using List.all_eq_true.1 hall a ha
    · exact ih

/-- Whatever came before, some news had a number as great. -/
lemma exists_news_ge (hs : List TimedReport) :
    ∀ g ∈ hs, ∃ n ∈ news hs, g.report.sequence ≤ n.report.sequence := by
  induction hs using List.reverseRecOn with
  | nil => simp
  | append_singleton hs h ih =>
    intro g hg
    rw [news_snoc]
    rcases List.mem_append.1 hg with hg | hg
    · obtain ⟨n, hn, hle⟩ := ih g hg
      refine ⟨n, ?_, hle⟩
      split_ifs
      · exact List.mem_append_left _ hn
      · exact hn
    · rw [List.mem_singleton.1 hg]
      split_ifs with hall
      · exact ⟨h, List.mem_append_right _ (List.mem_singleton_self h), UInt32.le_refl _⟩
      · simpa using hall

/-- To be news is to have the greatest number of all that came. -/
lemma all_news_iff : (∀ g ∈ news hs, g.report.sequence < h.report.sequence) ↔
    ∀ g ∈ hs, g.report.sequence < h.report.sequence := by
  constructor
  · intro hnews g hg
    obtain ⟨n, hn, hle⟩ := exists_news_ge hs g hg
    exact UInt32.lt_of_le_of_lt hle (hnews n hn)
  · exact fun hall g hg => hall g ((news_sublist hs).subset hg)

lemma Timely.init (ht : Timely player (hs ++ [h])) : Timely player hs := by
  refine ⟨fun g hg => ht.own g (List.mem_append_left _ hg),
    (List.pairwise_append.1 ht.ordered).1, ?_⟩
  have hclose := ht.close
  rw [news_snoc] at hclose
  split_ifs at hclose
  · exact (List.isChain_append.1 hclose).1
  · exact hclose

/-! ### The window -/

/-- The view has taken just what is news, and its window holds what of it is recent. -/
structure Windowed (player : UInt32) (hs : List TimedReport) (v : View) : Prop where
  player : v.player = player
  last : v.lastSequence = (news hs).getLast?.map (·.report.sequence)
  window : v.window.arrivals = (recent (lastTime (news hs)) (news hs)).map TimedReport.arrival

/-- What a view has taken last has the greatest number of all that is news. -/
lemma Windowed.taken_iff {v : View} (hv : Windowed player hs v) (hown : h.report.player = player) :
    (v.heed h).1 = true ↔ ∀ g ∈ news hs, g.report.sequence < h.report.sequence := by
  have hanswer : (v.heed h).1 = !v.lastSequence.any (h.report.sequence ≤ ·) := by
    rw [heed, applyReport, if_pos (hown.trans hv.player.symm)]
    cases v.lastSequence.any (h.report.sequence ≤ ·) <;> rfl
  have hrising := news_rising hs
  rw [hanswer, hv.last]
  rcases List.eq_nil_or_concat' (news hs) with hnil | ⟨ns, n, hns⟩
  · simp [hnil]
  · rw [hns, List.pairwise_append] at hrising
    rw [hns, List.getLast?_append, List.getLast?_singleton]
    simp only [Option.some_or, Option.map_some, Option.any_some, Bool.not_eq_true',
      decide_eq_false_iff_not, UInt32.not_le]
    constructor
    · intro hlt g hg
      rcases List.mem_append.1 hg with hg | hg
      · exact UInt32.lt_trans (hrising.2.2 g hg n (List.mem_singleton_self n)) hlt
      · rwa [List.mem_singleton.1 hg]
    · exact fun hall => hall n (List.mem_append_right _ (List.mem_singleton_self n))

/-- What is kept is what is recent, if nothing of it came more than a turn of the clock ago. -/
lemma expire_arrivals {ms : ℕ} (hordered : hs.Pairwise (·.ms ≤ ·.ms))
    (hnear : ∀ a ∈ hs, a.ms ≤ ms ∧ ms < a.ms + 2 ^ 32) :
    (LossWindow.expire ⟨hs.map TimedReport.arrival⟩ (.ofNat ms)).arrivals =
      (recent ms hs).map TimedReport.arrival := by
  have helapsed : ∀ a ∈ hs, decide (LossWindow.spanMs < UInt32.ofNat ms - a.arrival.timeMs) =
      !decide (ms ≤ a.ms + 5000) := by
    intro a ha
    have hspan : LossWindow.spanMs.toNat = 5000 := rfl
    rw [← decide_not, decide_eq_decide, UInt32.lt_iff_toNat_lt, TimedReport.arrival,
      toNat_elapsed (hnear a ha).1 (hnear a ha).2, hspan]
    omega
  have hyoung : ∀ a b : TimedReport, a.ms ≤ b.ms → decide (ms ≤ a.ms + 5000) = true →
      decide (ms ≤ b.ms + 5000) = true := by
    intro a b hab
    simp only [decide_eq_true_eq]
    omega
  have hexpire : (LossWindow.expire ⟨hs.map TimedReport.arrival⟩ (.ofNat ms)).arrivals =
      (hs.dropWhile fun a =>
        decide (LossWindow.spanMs < UInt32.ofNat ms - a.arrival.timeMs)).map TimedReport.arrival :=
    List.dropWhile_map
  rw [hexpire, dropWhile_eq_filter helapsed (hordered.imp (hyoung _ _)), recent]

/-- What is recent now was so before. -/
lemma recent_recent {before ms : ℕ} (h : before ≤ ms) (hs : List TimedReport) :
    recent ms (recent before hs) = recent ms hs := by
  rw [recent, recent, recent, List.filter_filter]
  refine List.filter_congr fun a _ => ?_
  rw [← Bool.decide_and, decide_eq_decide]
  omega

/-- A report that is news is put behind those that are still recent, and the others go. -/
lemma record_recent (ht : Timely player (hs ++ [h]))
    (hnews : ∀ g ∈ news hs, g.report.sequence < h.report.sequence) {w : LossWindow}
    (hw : w.arrivals = (recent (lastTime (news hs)) (news hs)).map TimedReport.arrival) :
    (w.record h.report.sequence (.ofNat h.ms)).arrivals =
      (recent h.ms (news hs ++ [h])).map TimedReport.arrival := by
  have hbefore : ∀ a ∈ news hs, a.ms ≤ h.ms := fun a ha =>
    (List.pairwise_append.1 ht.ordered).2.2 a ((news_sublist hs).subset ha) h
      (List.mem_singleton_self h)
  -- the news before this report came not long ago
  have hlast : lastTime (news hs) ≤ h.ms ∧
      (news hs ≠ [] → h.ms < lastTime (news hs) + 2 ^ 31) := by
    rcases List.eq_nil_or_concat' (news hs) with hnil | ⟨ns, n, hns⟩
    · exact ⟨by simp [lastTime, hnil], fun hne => absurd hnil hne⟩
    · have hclose := ht.close
      have htime : lastTime (news hs) = n.ms := by simp [lastTime, hns]
      rw [news_snoc_of_all hnews, hns, List.append_assoc, List.singleton_append,
        List.isChain_append_cons_cons] at hclose
      rw [htime]
      exact ⟨hbefore n (by simp [hns]), fun _ => hclose.2.1⟩
  obtain ⟨old, hold⟩ : ∃ old, old = recent (lastTime (news hs)) (news hs) := ⟨_, rfl⟩
  have hnear : ∀ a ∈ old ++ [h], a.ms ≤ h.ms ∧ h.ms < a.ms + 2 ^ 32 := by
    intro a ha
    rcases List.mem_append.1 ha with ha | ha
    · rw [hold] at ha
      obtain ⟨hmem, hrecent⟩ := List.mem_filter.1 ha
      have := hlast.2 (List.ne_nil_of_mem hmem)
      have := hbefore a hmem
      have := of_decide_eq_true hrecent
      omega
    · rw [List.mem_singleton.1 ha]
      omega
  have hordered : (old ++ [h]).Pairwise (·.ms ≤ ·.ms) := by
    refine ht.ordered.sublist (List.Sublist.append ?_ (List.Sublist.refl [h]))
    rw [hold]
    exact List.filter_sublist.trans (news_sublist hs)
  have hrecord : w.record h.report.sequence (.ofNat h.ms) =
      LossWindow.expire ⟨(old ++ [h]).map TimedReport.arrival⟩ (.ofNat h.ms) := by
    rw [LossWindow.record, hw, ← hold, List.map_append]
    rfl
  have hstill : recent h.ms old = recent h.ms (news hs) := hold ▸ recent_recent hlast.1 (news hs)
  rw [hrecord, expire_arrivals hordered hnear, recent, List.filter_append]
  change List.map _ (recent h.ms old ++ _) = _
  rw [hstill, recent, ← List.filter_append]
  rfl

lemma windowed_heedAll (ht : Timely player hs) : Windowed player hs (heedAll player hs) := by
  induction hs using List.reverseRecOn with
  | nil => exact ⟨rfl, rfl, rfl⟩
  | append_singleton hs h ih =>
    have hv := ih ht.init
    have hown : h.report.player = player := ht.own h (by simp)
    rw [heedAll_snoc]
    by_cases hnews : ∀ g ∈ news hs, g.report.sequence < h.report.sequence
    · have hfresh : ∀ s, (heedAll player hs).lastSequence = some s → s < h.report.sequence := by
        intro s hs'
        rw [hv.last, Option.map_eq_some_iff] at hs'
        obtain ⟨g, hg, rfl⟩ := hs'
        exact hnews g (List.mem_of_getLast? hg)
      rw [heed, applyReport_fresh (hown.trans hv.player.symm) hfresh]
      refine ⟨hv.player, ?_, ?_⟩
      · rw [news_snoc_of_all hnews, List.getLast?_append, List.getLast?_singleton]
        rfl
      · have htime : lastTime (news hs ++ [h]) = h.ms := by simp [lastTime]
        rw [news_snoc_of_all hnews, htime]
        exact record_recent ht hnews hv.window
    · have hsame : news (hs ++ [h]) = news hs := by
        rw [news_snoc, if_neg (by simpa using hnews)]
      have hdropped : ((heedAll player hs).heed h).1 = false := by
        rwa [← Bool.not_eq_true, hv.taken_iff hown]
      have hstays : ((heedAll player hs).heed h).2 = heedAll player hs := by
        rw [heed, applyReport, if_pos (hown.trans hv.player.symm)] at hdropped ⊢
        split_ifs at hdropped ⊢
        rfl
      rw [hstays]
      exact ⟨hv.player, by rw [hsame]; exact hv.last, by rw [hsame]; exact hv.window⟩

/-- **The window counts what it claims.** A report is taken just if its number is greater than
those of all reports before it. After each that is taken the window holds just those taken in the
last five seconds, oldest first, and their numbers rise. So its length and its two ends, from which
the share of missing reports is computed, tell how many numbers between them were not received; and
a word has room for the count of those expected, unless every number there is lies in the window's
span. -/
theorem loss_window_counts (player : UInt32) (hs : List TimedReport) (h : TimedReport)
    (ht : Timely player (hs ++ [h])) :
    (((heedAll player hs).heed h).1 = true ↔ ∀ g ∈ hs, g.report.sequence < h.report.sequence) ∧
    (((heedAll player hs).heed h).1 = true → ∃ oldest,
      (heedAll player (hs ++ [h])).window.arrivals =
        (recent h.ms (news (hs ++ [h]))).map TimedReport.arrival ∧
      (heedAll player (hs ++ [h])).window.arrivals.Pairwise (·.sequence < ·.sequence) ∧
      (heedAll player (hs ++ [h])).window.Counts oldest h.report.sequence) := by
  have hv := windowed_heedAll ht.init
  have hown : h.report.player = player := ht.own h (by simp)
  refine ⟨(hv.taken_iff hown).trans all_news_iff, fun htaken => ?_⟩
  have hnews := (hv.taken_iff hown).1 htaken
  have htime : lastTime (news hs ++ [h]) = h.ms := by simp [lastTime]
  have hwindow := (windowed_heedAll ht).window
  rw [news_snoc_of_all hnews, htime] at hwindow
  have hrise : (heedAll player (hs ++ [h])).window.arrivals.Pairwise
      fun a b => a.sequence < b.sequence := by
    rw [hwindow, List.pairwise_map]
    have hrising := news_rising (hs ++ [h])
    rw [news_snoc_of_all hnews] at hrising
    exact hrising.sublist List.filter_sublist
  have hlast : (heedAll player (hs ++ [h])).window.arrivals.getLast? = some h.arrival := by
    rw [hwindow, recent, List.filter_append, List.filter_singleton, List.map_append,
      List.getLast?_append]
    simp
  obtain ⟨first, hfirst⟩ : ∃ a, (heedAll player (hs ++ [h])).window.arrivals.head? = some a :=
    Option.isSome_iff_exists.1 (List.isSome_head?.2 fun hnil => by simp [hnil] at hlast)
  refine ⟨first.sequence, ?_, hrise, LossWindow.counts_of_rising hrise hfirst hlast⟩
  rw [hwindow, news_snoc_of_all hnews]

/-- A report on player 7. -/
def numbered (sequence : UInt32) (ms : ℕ) : TimedReport := ⟨⟨sequence, 7, 0, 0, 0, 0⟩, ms⟩

/-- Reports shortly before the clock comes round; the third is overtaken by the second. -/
def beforeTheTurn : List TimedReport :=
  [numbered 1 4294961000, numbered 3 4294966000, numbered 2 4294966500]

/-- Four milliseconds behind the turn the second report is still there, and two numbers are
missing. -/
theorem two_reports_are_missing :
    Timely 7 (beforeTheTurn ++ [numbered 6 4294967300]) ∧
      ((heedAll 7 beforeTheTurn).heed (numbered 6 4294967300)).1 = true ∧
      (heedAll 7 (beforeTheTurn ++ [numbered 6 4294967300])).window.arrivals =
        [⟨4294966000, 3⟩, ⟨4, 6⟩] ∧
      (heedAll 7 (beforeTheTurn ++ [numbered 6 4294967300])).window.Counts 3 6 := by
  have ht : Timely 7 (beforeTheTurn ++ [numbered 6 4294967300]) :=
    ⟨by decide, by decide, by decide⟩
  obtain ⟨hanswer, hafter⟩ := loss_window_counts 7 beforeTheTurn (numbered 6 4294967300) ht
  have htaken := hanswer.2 (by decide)
  obtain ⟨oldest, hrecent, -, hcounts⟩ := hafter htaken
  have hwindow := hrecent.trans (show _ = [⟨4294966000, 3⟩, ⟨4, 6⟩] by decide)
  obtain rfl : (3 : UInt32) = oldest := by simpa [hwindow] using hcounts.first
  exact ⟨ht, htaken, hwindow, hcounts⟩

end View

end CoopShooter
