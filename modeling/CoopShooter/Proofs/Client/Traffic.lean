import Mathlib
import CoopShooter.Proofs.Client.Malformed

/-!
What passes between a player's session and the server, in one sequence: the inputs that are queued
and the datagrams that arrive. The inputs that no report has counted can be told from it alone, and
so can what the view shows, once each event of a session is known to add to it just what it does.
-/

namespace CoopShooter

/-- An input that a session queues, or a datagram of its server that arrives. -/
inductive Traffic where
  | queued (m : InputReport)
  | arrived (p : Packet) (now : UInt32)

namespace Traffic

def input? : Traffic → Option InputReport
  | queued m => some m
  | arrived .. => none

/-- A report on the ship of the player. -/
def report? (player : UInt32) : Traffic → Option PlayerReport
  | arrived (.player m) _ => if m.player = player then some m else none
  | _ => none

/-- The inputs that were queued. -/
def inputs (ts : List Traffic) : List InputReport := ts.filterMap input?

/-- The reports on the player's ship that arrived. -/
def reports (player : UInt32) (ts : List Traffic) : List PlayerReport :=
  ts.filterMap (report? player)

/-- After this traffic the report is one on the own ship with a greater number than all before. -/
structure Accepted (player : UInt32) (before : List Traffic) (m : PlayerReport) : Prop where
  own : m.player = player
  newest : ∀ n ∈ reports player before, n.sequence < m.sequence

/-- A report that was accepted after the input was queued counts it. -/
def Acknowledged (player : UInt32) (ts : List Traffic) (i : InputReport) : Prop :=
  ∃ before m now behind, ts = before ++ arrived (.player m) now :: behind ∧
    Accepted player before m ∧ i ∈ inputs before ∧ i.tick ≤ m.processed

open Classical in
/-- The inputs that nothing has counted, in the order in which they were queued. The input with tick
zero is no move. -/
noncomputable def ledger (player : UInt32) (ts : List Traffic) : List PendingInput :=
  ((inputs ts).filter fun i => 0 < i.tick ∧ ¬ Acknowledged player ts i).map
    fun i => ⟨i.tick, i.inputs⟩

variable {player : UInt32} {ts : List Traffic} {p : Packet} {now : UInt32}

@[simp] lemma inputs_queued (ts : List Traffic) (m : InputReport) :
    inputs (ts ++ [queued m]) = inputs ts ++ [m] := by
  simp [inputs, input?]
@[simp] lemma inputs_arrived (ts : List Traffic) (p : Packet) (now : UInt32) :
    inputs (ts ++ [arrived p now]) = inputs ts := by
  simp [inputs, input?]
@[simp] lemma reports_queued (ts : List Traffic) (m : InputReport) :
    reports player (ts ++ [queued m]) = reports player ts := by
  simp [reports, report?]
lemma reports_arrived (ts : List Traffic) (p : Packet) (now : UInt32) :
    reports player (ts ++ [arrived p now]) =
      reports player ts ++ (report? player (arrived p now)).toList := by
  cases h : report? player (arrived p now) <;> simp [reports, h]

/-- A sequence is split at its last one, or in front of it. -/
lemma snoc_eq_split_iff {α : Type} {as before behind : List α} {a b : α} :
    as ++ [a] = before ++ b :: behind ↔
      (as = before ∧ a = b ∧ behind = []) ∨
        ∃ rest, as = before ++ b :: rest ∧ behind = rest ++ [a] := by
  rcases List.eq_nil_or_concat' behind with rfl | ⟨rest, c, rfl⟩
  · simp
  · have hassoc : before ++ b :: (rest ++ [c]) = (before ++ b :: rest) ++ [c] := by simp
    rw [hassoc, List.append_singleton_inj]
    constructor
    · rintro ⟨h, rfl⟩
      exact .inr ⟨rest, h, rfl⟩
    · rintro (⟨-, -, h⟩ | ⟨rest', h, hbehind⟩)
      · simp at h
      · obtain ⟨rfl, rfl⟩ := List.append_singleton_inj.1 hbehind
        exact ⟨h, rfl⟩

lemma acknowledged_queued {m i : InputReport} :
    Acknowledged player (ts ++ [queued m]) i ↔ Acknowledged player ts i := by
  constructor
  · rintro ⟨before, r, now, behind, hsplit, hr⟩
    rcases snoc_eq_split_iff.1 hsplit with ⟨-, h, -⟩ | ⟨rest, h, -⟩
    · cases h
    · exact ⟨before, r, now, rest, h, hr⟩
  · rintro ⟨before, r, now, behind, rfl, hr⟩
    exact ⟨before, r, now, behind ++ [queued m], by simp, hr⟩

lemma acknowledged_arrived {i : InputReport} :
    Acknowledged player (ts ++ [arrived p now]) i ↔ Acknowledged player ts i ∨
      ∃ m, p = .player m ∧ Accepted player ts m ∧ i ∈ inputs ts ∧ i.tick ≤ m.processed := by
  constructor
  · rintro ⟨before, r, now', behind, hsplit, hr⟩
    rcases snoc_eq_split_iff.1 hsplit with ⟨rfl, h, -⟩ | ⟨rest, h, -⟩
    · exact .inr ⟨r, (arrived.inj h).1, hr⟩
    · exact .inl ⟨before, r, now', rest, h, hr⟩
  · rintro (⟨before, r, now', behind, rfl, hr⟩ | ⟨m, rfl, hm⟩)
    · exact ⟨before, r, now', behind ++ [arrived p now], by simp, hr⟩
    · exact ⟨ts, m, now, [], rfl, hm⟩

/-- Nothing counts an input before it is queued. -/
lemma Acknowledged.mem {i : InputReport} (h : Acknowledged player ts i) : i ∈ inputs ts := by
  obtain ⟨before, m, now, behind, rfl, -, hi, -⟩ := h
  rw [inputs, List.filterMap_append]
  exact List.mem_append_left _ hi

open Classical in
lemma filter_acknowledged {ts us : List Traffic}
    (h : ∀ i, Acknowledged player us i ↔ Acknowledged player ts i) (is : List InputReport) :
    (is.filter fun i => 0 < i.tick ∧ ¬ Acknowledged player us i) =
      is.filter fun i => 0 < i.tick ∧ ¬ Acknowledged player ts i :=
  List.filter_congr fun i _ => by rw [decide_eq_decide, h i]

lemma ledger_queued {m : InputReport} (hpos : 0 < m.tick) (hnew : m ∉ inputs ts) :
    ledger player (ts ++ [queued m]) = ledger player ts ++ [⟨m.tick, m.inputs⟩] := by
  have hopen : ¬ Acknowledged player ts m := fun h => hnew h.mem
  rw [ledger, ledger, inputs_queued, filter_acknowledged fun i => acknowledged_queued]
  simp [List.filter_append, hpos, hopen]

/-- A report that is accepted takes out what it counts. -/
lemma ledger_accepted {m : PlayerReport} (h : Accepted player ts m) :
    ledger player (ts ++ [arrived (.player m) now]) =
      (ledger player ts).filter (m.processed < ·.tick) := by
  rw [ledger, ledger, inputs_arrived, List.filter_map, List.filter_filter]
  congr 1
  refine List.filter_congr fun i hi => ?_
  have hack : Acknowledged player (ts ++ [arrived (.player m) now]) i ↔
      Acknowledged player ts i ∨ i.tick ≤ m.processed := by
    rw [acknowledged_arrived]
    refine or_congr_right ⟨?_, fun hle => ⟨m, rfl, h, hi, hle⟩⟩
    rintro ⟨n, hn, -, -, hle⟩
    cases hn
    exact hle
  rw [Bool.eq_iff_iff]
  simp only [hack, not_or, UInt32.not_le, Function.comp_apply, Bool.and_eq_true, decide_eq_true_eq]
  tauto

/-- Nothing else that arrives does. -/
lemma ledger_arrived (h : ∀ m, p = .player m → ¬ Accepted player ts m) :
    ledger player (ts ++ [arrived p now]) = ledger player ts := by
  have hack : ∀ i, Acknowledged player (ts ++ [arrived p now]) i ↔ Acknowledged player ts i := by
    intro i
    rw [acknowledged_arrived]
    refine or_iff_left ?_
    rintro ⟨m, hm, haccepted, -⟩
    exact h m hm haccepted
  rw [ledger, ledger, inputs_arrived, filter_acknowledged hack]

end Traffic

/-! ### Events of a session -/

namespace Session

/-- What happens to a session: a frame, or a datagram that comes in. -/
inductive Event where
  | frame (keys : Held) (now : UInt32)
  | datagram (a : Inbound)

def Event.isFrame : Event → Bool
  | frame .. => true
  | datagram _ => false

/-- The session after an event, and what it has handed to the outbox. -/
def step (s : Session) : Event → Session × List PlayerPacket
  | .frame keys now => s.frame keys now
  | .datagram a => (s.receive a.bytes a.source a.now, [])

/-- What a datagram says, if it is one of the server. -/
def said? (server : Endpoint) (a : Inbound) : Option Packet :=
  if a.source = server then Packet.decode? (a.bytes.take maxDatagram) else none

/-- The inputs among datagrams to the server. -/
def inputsOf (ps : List PlayerPacket) : List InputReport :=
  ps.filterMap fun
    | .input m => some m
    | _ => none

/-- What an event adds to the traffic. -/
def passed (s : Session) (e : Event) : List Traffic :=
  match e with
  | .frame keys now => (inputsOf (s.frame keys now).2).map .queued
  | .datagram a => ((said? s.server a).map (.arrived · a.now)).toList

/-- What comes of events one after the other. -/
def collected {α : Type} (f : Session → Event → List α) (s : Session) : List Event → List α
  | [] => []
  | e :: es => f s e ++ collected f (s.step e).1 es

variable (server : Endpoint) (player : UInt32)

/-- A session that has just begun, after some events. -/
def after (es : List Event) : Session :=
  es.foldl (fun s e => (s.step e).1) (start server player).1

/-- All that it has handed to the outbox. -/
def queued (es : List Event) : List PlayerPacket :=
  (start server player).2 ++ collected (fun s e => (s.step e).2) (start server player).1 es

/-- All that has passed between the player and the server. -/
def traffic (es : List Event) : List Traffic :=
  (inputsOf (start server player).2).map .queued ++ collected passed (start server player).1 es

variable {server player} {s : Session}

lemma collected_append {α : Type} (f : Session → Event → List α) (s : Session)
    (es fs : List Event) :
    collected f s (es ++ fs) =
      collected f s es ++ collected f (es.foldl (fun s e => (s.step e).1) s) fs := by
  induction es generalizing s with
  | nil => rfl
  | cons e es ih =>
    rw [List.cons_append, collected, ih, collected, List.foldl_cons, List.append_assoc]

lemma after_append (es fs : List Event) : after server player (es ++ fs) =
    fs.foldl (fun s e => (s.step e).1) (after server player es) := by
  simp [after, List.foldl_append]

lemma after_snoc (es : List Event) (e : Event) :
    after server player (es ++ [e]) = ((after server player es).step e).1 :=
  after_append es [e]

lemma queued_snoc (es : List Event) (e : Event) : queued server player (es ++ [e]) =
    queued server player es ++ ((after server player es).step e).2 := by
  simp only [queued, collected_append, collected, List.append_assoc, List.append_nil]
  rfl

lemma traffic_snoc (es : List Event) (e : Event) : traffic server player (es ++ [e]) =
    traffic server player es ++ (after server player es).passed e := by
  simp only [traffic, collected_append, collected, List.append_assoc, List.append_nil]
  rfl

lemma inputsOf_append (ps qs : List PlayerPacket) :
    inputsOf (ps ++ qs) = inputsOf ps ++ inputsOf qs := by
  simp [inputsOf]

lemma inputsOf_ping (s : Session) (now : UInt32) : inputsOf (s.ping now).2 = [] := by
  unfold ping sending
  split_ifs <;> rfl

/-- What an event does: a frame of a game that goes on predicts the one input that it queues, a
datagram of the server is taken into the view, and nothing else touches either. -/
inductive Turn (s : Session) (e : Event) : Prop where
  | move (keys : Held) (now : UInt32) (inputs : InputFlags) (event : e = .frame keys now)
    (playing : s.view.status = .playing)
    (sent : inputsOf (s.step e).2 = [⟨s.player, s.sampler.nextTick, inputs⟩])
    (passed : s.passed e = [.queued ⟨s.player, s.sampler.nextTick, inputs⟩])
    (view : (s.step e).1.view = s.view.predict s.sampler.nextTick inputs)
    (tick : (s.step e).1.sampler.nextTick = s.sampler.nextTick + 1)
  | idle (keys : Held) (now : UInt32) (event : e = .frame keys now)
    (ended : s.view.status ≠ .playing) (sent : inputsOf (s.step e).2 = [])
    (passed : s.passed e = []) (view : (s.step e).1.view = s.view)
    (tick : (s.step e).1.sampler.nextTick = s.sampler.nextTick)
  | heard (a : Inbound) (p : Packet) (event : e = .datagram a) (said : said? s.server a = some p)
    (sent : inputsOf (s.step e).2 = []) (passed : s.passed e = [.arrived p a.now])
    (view : (s.step e).1.view = s.view.apply p a.now)
    (tick : (s.step e).1.sampler.nextTick = s.sampler.nextTick)
  | dropped (a : Inbound) (event : e = .datagram a) (said : said? s.server a = none)
    (sent : inputsOf (s.step e).2 = []) (passed : s.passed e = [])
    (view : (s.step e).1.view = s.view)
    (tick : (s.step e).1.sampler.nextTick = s.sampler.nextTick)

lemma ping_frame (s : Session) (now : UInt32) :
    (s.ping now).1.view = s.view ∧ (s.ping now).1.sampler = s.sampler := by
  unfold ping
  split_ifs <;> exact ⟨rfl, rfl⟩

lemma play_playing (hrun : s.running = true) (hplay : s.view.status = .playing) (keys : Held)
    (now : UInt32) :
    s.play keys now = ({ s with
        sampler := (s.sampler.sample keys now).2
        view := s.view.predict s.sampler.nextTick (s.sampler.sample keys now).1.2 },
      [.input ⟨s.player, s.sampler.nextTick, (s.sampler.sample keys now).1.2⟩]) := by
  unfold play
  rw [if_pos hplay]
  simp only [sending, if_pos hrun]
  rfl

/-- Every event of a session that exchanges datagrams is one of these. -/
theorem turn (hrun : s.running = true) (e : Event) : Turn s e := by
  cases e with
  | frame keys now =>
    by_cases hplay : s.view.status = .playing
    · obtain ⟨hview, hsampler⟩ := ping_frame (s.play keys now).1 now
      have hsent : inputsOf (s.frame keys now).2 =
          [⟨s.player, s.sampler.nextTick, (s.sampler.sample keys now).1.2⟩] := by
        rw [frame, inputsOf_append, inputsOf_ping, play_playing hrun hplay]
        rfl
      rw [play_playing hrun hplay] at hview hsampler
      refine .move keys now _ rfl hplay hsent (by rw [passed, hsent]; rfl) ?_ ?_
      · rw [step, frame, play_playing hrun hplay]
        exact hview
      · rw [step, frame, play_playing hrun hplay]
        exact congrArg Sampler.nextTick hsampler
    · obtain ⟨hview, hsampler⟩ := ping_frame s now
      have hstill : s.play keys now = (s, []) := if_neg hplay
      have hsent : inputsOf (s.frame keys now).2 = [] := by
        rw [frame, inputsOf_append, inputsOf_ping, hstill]
        rfl
      refine .idle keys now rfl hplay hsent (by rw [passed, hsent]; rfl) ?_ ?_
      · rw [step, frame, hstill]
        exact hview
      · rw [step, frame, hstill]
        exact congrArg Sampler.nextTick hsampler
  | datagram a =>
    have hreceive : (s.step (.datagram a)).1 = (said? s.server a).elim s
        fun p => { s with view := s.view.apply p a.now } := by
      simp only [step, receive, View.deliver, said?, and_iff_right hrun]
      split_ifs
      · cases Packet.decode? (a.bytes.take maxDatagram) <;> rfl
      · rfl
    cases hsaid : said? s.server a with
    | none =>
      rw [hsaid] at hreceive
      refine .dropped a rfl hsaid rfl (by rw [passed, hsaid]; rfl) ?_ ?_ <;> rw [hreceive] <;> rfl
    | some p =>
      rw [hsaid] at hreceive
      refine .heard a p rfl hsaid rfl (by rw [passed, hsaid]; rfl) ?_ ?_ <;> rw [hreceive] <;> rfl

/-- What a session is about stays the same. -/
structure Same (s t : Session) : Prop where
  player : t.player = s.player
  server : t.server = s.server
  running : t.running = s.running

lemma same_step (s : Session) (e : Event) : Same s (s.step e).1 := by
  cases e with
  | frame keys now =>
    simp only [step, frame, play, ping]
    split_ifs <;> exact ⟨rfl, rfl, rfl⟩
  | datagram a =>
    simp only [step, receive]
    split_ifs
    · cases Packet.decode? (a.bytes.take maxDatagram) <;> exact ⟨rfl, rfl, rfl⟩
    · exact ⟨rfl, rfl, rfl⟩

lemma same_after (es : List Event) : Same (start server player).1 (after server player es) := by
  induction es using List.reverseRecOn with
  | nil => exact ⟨rfl, rfl, rfl⟩
  | append_singleton es e ih =>
    rw [after_snoc]
    have hstep := same_step (after server player es) e
    exact ⟨hstep.player.trans ih.player, hstep.server.trans ih.server,
      hstep.running.trans ih.running⟩

lemma running_after (es : List Event) : (after server player es).running = true :=
  (same_after es).running

end Session

end CoopShooter
