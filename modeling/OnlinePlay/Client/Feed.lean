import OnlinePlay.Event

/-!
# Event feeds

The events that a receiver has not read yet. A feed holds only so many; if more come, the oldest are
lost, and the receiver learns how many it has missed.
-/

namespace OnlinePlay

/-- The unread events of a receiver, oldest first, and how many were lost since it last read. -/
structure Feed where
  capacity : Nat
  unread : List SessionEvent
  missed : Nat
  deriving DecidableEq

namespace Feed

/-- How many events a feed usually holds. -/
def standardCapacity : Nat := 256

/-- An empty feed for at least so many events; its capacity is a power of two. -/
def withCapacity (n : Nat) : Feed := ⟨(max n 1).nextPowerOfTwo, [], 0⟩

/-- Takes in an event. -/
def publish (f : Feed) (e : SessionEvent) : Feed :=
  if f.unread.length < f.capacity then { f with unread := f.unread ++ [e] }
  else { f with unread := f.unread.drop 1 ++ [e], missed := f.missed + 1 }

/-- The receiver has read everything. -/
def clear (f : Feed) : Feed := { f with unread := [], missed := 0 }

end Feed

end OnlinePlay
