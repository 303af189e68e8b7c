/-!
# Chat messages

A line of chat, and the clock text that it is stamped with.
-/

namespace OnlinePlay

/-- A line of chat as it is stored and shown. -/
structure ChatMessage where
  sender : String
  text : String
  timestamp : String
  deriving DecidableEq

/-- A number below one hundred, with two digits. -/
def twoDigits (n : Nat) : String :=
  if n < 10 then "0" ++ toString n else toString n

/-- The time of day, `HH:MM:SS`, of a count of seconds since midnight of some day. -/
def clockText (seconds : Int) : String :=
  let s := (seconds % 86400).toNat
  twoDigits (s / 3600) ++ ":" ++ twoDigits (s / 60 % 60) ++ ":" ++ twoDigits (s % 60)

end OnlinePlay
