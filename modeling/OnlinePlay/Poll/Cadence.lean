/-!
# Cadences

A timer that fires again and again. Each cycle is due one interval after the cycle before it really
fired, so that a stall is never made up for by a burst. A cycle that fires more than a tenth of an
interval after it was due is late, and skips the whole intervals that fit into its lateness.
Times are in nanoseconds.
-/

namespace OnlinePlay

/-- A timer with a fixed interval, and what became of its cycles so far. -/
structure Cadence where
  interval : Nat
  /-- When the next cycle is due. -/
  due : Nat
  cycles : Nat
  lateCycles : Nat
  skipped : Nat
  deriving DecidableEq

/-- What is known of a cycle that fired. -/
structure Cycle where
  number : Nat
  late : Bool
  skipped : Nat
  deriving DecidableEq

namespace Cadence

/-- A timer whose first cycle is due one interval and some extra delay from now. -/
def start (now interval delay : Nat) : Cadence := ⟨interval, now + interval + delay, 0, 0, 0⟩

/-- How late a cycle is that fires now. -/
def lateness (c : Cadence) (now : Nat) : Nat := now - c.due

/-- Whether a cycle that fires now is late. -/
def isLate (c : Cadence) (now : Nat) : Bool := c.interval / 10 < c.lateness now

/-- How many intervals a cycle skips that fires now. -/
def skips (c : Cadence) (now : Nat) : Nat :=
  if c.isLate now then c.lateness now / max c.interval 1 else 0

/-- Fires a cycle. -/
def fire (c : Cadence) (now : Nat) : Cycle × Cadence :=
  let late := c.isLate now
  let skipped := c.skips now
  (⟨c.cycles + 1, late, skipped⟩,
    { c with
      due := now + c.interval
      cycles := c.cycles + 1
      lateCycles := c.lateCycles + if late then 1 else 0
      skipped := c.skipped + skipped })

end Cadence

end OnlinePlay
