/-!
How many of the server's reports are missing. The reports of the last five seconds are kept; those
missing are the sequence numbers between the oldest and the newest that did not arrive.
-/

namespace CoopShooter

/-- One report: when it came and its sequence number. -/
structure Arrival where
  timeMs : UInt32
  sequence : UInt32
  deriving DecidableEq, Repr

/-- The reports of the last while, oldest first. -/
structure LossWindow where
  arrivals : List Arrival := []
  deriving DecidableEq, Repr

namespace LossWindow

/-- How far the window reaches back, in milliseconds. -/
def spanMs : UInt32 := 5000

/-- Drops the oldest reports until one is young enough. -/
def expire (w : LossWindow) (now : UInt32) : LossWindow :=
  ⟨w.arrivals.dropWhile fun a => spanMs < now - a.timeMs⟩

/-- Takes in a report. -/
def record (w : LossWindow) (sequence now : UInt32) : LossWindow :=
  expire ⟨w.arrivals ++ [⟨now, sequence⟩]⟩ now

/-- How many reports there should be, from the oldest to the newest; the count wraps around. -/
def expected (w : LossWindow) : UInt32 :=
  match w.arrivals.head?, w.arrivals.getLast? with
  | some first, some last => last.sequence - first.sequence + 1
  | _, _ => 0

/-- The share of missing reports in percent, never below zero. -/
def percentage (w : LossWindow) : Float32 :=
  if w.arrivals.isEmpty then 0
  else
    let expected := w.expected.toFloat32
    let received := (UInt64.ofNat w.arrivals.length).toFloat32
    let share := (expected - received) / expected * 100
    if 0 < share then share else 0

end LossWindow

end CoopShooter
