import OnlinePlay.Wire.Reader

/-!
# Protocol errors

Why a payload could not be used. An error has a name by which programs tell it apart, the names of
nested errors being joined by points, and a text that is shown to people.
-/

namespace OnlinePlay

/-- The name of a flaw, for programs. -/
def Wire.Flaw.name : Wire.Flaw → String
  | truncated => "Eof"
  | malformed => "Syntax"
  | mismatched => "Data"

/-- The complaint about a flawed text. -/
def Wire.Flaw.text : Wire.Flaw → String
  | truncated => "the text ends too early"
  | malformed => "this is not JSON"
  | mismatched => "the value is not of the expected form"

/-- Why a payload could not be used. -/
inductive ProtocolError where
  | decode (flaw : Wire.Flaw)
  | encode (detail : String)
  | invalidMessage (detail : String)
  deriving DecidableEq

/-- The name of a protocol error, for programs. -/
def ProtocolError.name : ProtocolError → String
  | decode flaw => "Decode." ++ flaw.name
  | encode _ => "Encode"
  | invalidMessage _ => "InvalidMessage"

/-- The text that is shown for a protocol error; `describe` words the complaints of the reader. -/
def ProtocolError.message (describe : Wire.Flaw → String := Wire.Flaw.text) :
    ProtocolError → String
  | decode flaw => "decode failed: " ++ describe flaw
  | encode detail => "encode failed: " ++ detail
  | invalidMessage detail => "invalid message: " ++ detail

end OnlinePlay
