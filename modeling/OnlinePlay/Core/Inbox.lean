/-!
# Inboxes

A queue between senders and one receiver. Senders put items at the end; the receiver takes them
from the front, and may be gone, after which nothing is delivered any more.
-/

namespace OnlinePlay

/-- The items on their way to a receiver, oldest first, and whether the receiver is still there. -/
structure Inbox (α : Type) where
  items : List α
  isOpen : Bool

namespace Inbox

variable {α : Type}

/-- The inbox of a new receiver. -/
def empty : Inbox α := ⟨[], true⟩

/-- Puts an item at the end, if the receiver is there. -/
def send (q : Inbox α) (a : α) : Inbox α :=
  if q.isOpen then { q with items := q.items ++ [a] } else q

/-- Puts items at the end in their order, if the receiver is there. -/
def sendAll (q : Inbox α) (as : List α) : Inbox α := as.foldl send q

/-- The oldest item, and the inbox without it. -/
def take? (q : Inbox α) : Option (α × Inbox α) :=
  match q.items with
  | [] => none
  | a :: rest => some (a, { q with items := rest })

/-- The receiver takes everything. -/
def takeAll (q : Inbox α) : List α × Inbox α := (q.items, { q with items := [] })

/-- The receiver goes, and everything on its way to it is lost. -/
def close (_ : Inbox α) : Inbox α := ⟨[], false⟩

end Inbox

end OnlinePlay
