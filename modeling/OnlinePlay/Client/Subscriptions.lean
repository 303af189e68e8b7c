import OnlinePlay.Event

/-!
# Subscriptions

Who wants to be told about which topics. Subscriptions are numbered from one in the order in which
they are made, a number is never given twice, and an event is told in that order.
-/

namespace OnlinePlay

/-- A wish to be told about some topics. -/
structure Subscription where
  id : Nat
  topics : List Topic
  deriving DecidableEq

/-- The subscriptions that stand, oldest first, and the number of the next one. -/
structure Subscriptions where
  standing : List Subscription := []
  nextId : Nat := 1
  deriving DecidableEq

namespace Subscriptions

/-- Makes a subscription and returns its number. -/
def subscribe (s : Subscriptions) (topics : List Topic) : Nat × Subscriptions :=
  (s.nextId, ⟨s.standing ++ [⟨s.nextId, topics⟩], s.nextId + 1⟩)

/-- Whether a subscription stands. -/
def contains (s : Subscriptions) (id : Nat) : Bool := s.standing.any (·.id = id)

/-- Ends a subscription and returns whether it still stood. -/
def unsubscribe (s : Subscriptions) (id : Nat) : Bool × Subscriptions :=
  (s.contains id, { s with standing := s.standing.filter (·.id ≠ id) })

/-- The subscriptions to which an event is told, once each. -/
def listeners (s : Subscriptions) (e : SessionEvent) : List Nat :=
  (s.standing.filter (·.topics.contains e.topic)).map (·.id)

end Subscriptions

end OnlinePlay
