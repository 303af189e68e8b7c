import OnlinePlay.Chat.Message

/-!
# The chat log

The newest messages of a session, oldest first, at most `capacity` of them and no message twice.
The core sometimes delivers a line again; a line that is still in the log is not taken a second
time, while one that has been pushed out may come back.
-/

namespace OnlinePlay

/-- A bounded list of pairwise different messages, oldest first. -/
structure ChatLog where
  capacity : Nat
  messages : List ChatMessage
  deriving DecidableEq

namespace ChatLog

/-- How many messages a session keeps. -/
def standardCapacity : Nat := 100

/-- An empty log for at least one message. -/
def withCapacity (n : Nat) : ChatLog := ⟨max n 1, []⟩

/-- An empty log of the standard capacity. -/
def empty : ChatLog := withCapacity standardCapacity

/-- Whether a message would be taken: it is not in the log. -/
def accepts (log : ChatLog) (m : ChatMessage) : Bool :=
  !log.messages.contains m

/-- Takes a message in as the newest, at the cost of the oldest one in a full log. A message that
the log holds already changes nothing. -/
def push (log : ChatLog) (m : ChatMessage) : ChatLog :=
  if log.accepts m then
    let kept := if log.messages.length = log.capacity then log.messages.drop 1 else log.messages
    { log with messages := kept ++ [m] }
  else log

/-- The log without its messages. -/
def clear (log : ChatLog) : ChatLog := { log with messages := [] }

end ChatLog

end OnlinePlay
