/-!
# Games

What the core says about a game file.
-/

namespace OnlinePlay

/-- The verdict on a game file. -/
structure GameValidation where
  valid : Bool
  checksum : Option String
  gameId : Option String
  /-- Why the file was rejected. -/
  error : Option String
  deriving DecidableEq

namespace GameValidation

/-- A file that can be played. -/
def accepted (checksum gameId : String) : GameValidation := ⟨true, some checksum, some gameId, none⟩

/-- A file that cannot be played, and why. -/
def rejected (reason : String) : GameValidation := ⟨false, none, none, some reason⟩

/-- The verdict before any file was looked at. -/
def blank : GameValidation := ⟨false, none, none, none⟩

end GameValidation

end OnlinePlay
