/-!
# Poll intervals

How often the roster is read and pending messages are drained. Times are in nanoseconds.
-/

namespace OnlinePlay

/-- The nanoseconds of a millisecond. -/
def millisecond : Nat := 1000000

/-- The intervals of the two poll cycles. -/
structure PollConfig where
  rosterInterval : Nat := 1000 * millisecond
  drainInterval : Nat := 500 * millisecond
  /-- The bound of the random delay before the first cycle. -/
  initialJitter : Nat := 20 * millisecond
  deriving DecidableEq

namespace PollConfig

/-- The shortest interval of a cycle. -/
def minInterval : Nat := 10 * millisecond

/-- Reads the roster every so many milliseconds, and drains messages twice as often. -/
def ofInterval (ms : Nat) : PollConfig :=
  { rosterInterval := ms * millisecond, drainInterval := ms / 2 * millisecond }

/-- Raises every interval that is too short. -/
def validated (c : PollConfig) : PollConfig :=
  { c with
    rosterInterval := max c.rosterInterval minInterval
    drainInterval := max c.drainInterval minInterval }

/-- How many cycles of two loops can be due while so much time passes. -/
def cyclesWithin (time : Nat) : Nat := 2 * (time / minInterval + 1)

/-- The same intervals without a random delay. -/
def withoutJitter (c : PollConfig) : PollConfig := { c with initialJitter := 0 }

end PollConfig

end OnlinePlay
