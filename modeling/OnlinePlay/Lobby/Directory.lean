import OnlinePlay.Lobby.Client

/-!
# A scripted directory

A directory that answers requests by a script: one reply after the other, the last one again and
again. It notes the requests that reach it. Requests take no time unless they are never answered;
then they fail when their time is over. A directory that is offline cannot be reached at all.
-/

namespace OnlinePlay

/-- What a scripted directory does with a request. -/
inductive DirectoryReply where
  | answers (status : Nat) (body : Wire.Bytes)
  /-- It closes the connection without an answer. -/
  | drops
  /-- It never answers. -/
  | hangs
  deriving DecidableEq

/-- A scripted directory. -/
structure Directory where
  script : List DirectoryReply := []
  isOnline : Bool := true
  /-- The requests that have reached the directory, oldest first. -/
  log : List DirectoryRequest := []

namespace Directory

/-- The reply to the next request. Without a script every connection is closed. -/
def reply (d : Directory) : DirectoryReply := d.script.head?.getD .drops

/-- What is left of the script after the next request. -/
def rest (d : Directory) : List DirectoryReply :=
  match d.script with
  | _ :: r :: rs => r :: rs
  | rs => rs

/-- What comes of a request that may take so long, how long it takes, and the directory after it. -/
def exchange (d : Directory) (request : Option DirectoryRequest) (timeout : Nat) :
    Exchange × Nat × Directory :=
  match request with
  | none => (.failed "the address is not valid", 0, d)
  | some r =>
    if !d.isOnline then (.failed "the directory cannot be reached", 0, d)
    else
      let d' := { d with script := d.rest, log := d.log ++ [r] }
      match d.reply with
      | .answers status body => (.answered status body, 0, d')
      | .drops => (.failed "the connection was closed", 0, d')
      | .hangs => (.failed "the request took too long", timeout, d')

/-- What comes of the request of a client for the sessions of a tag. -/
def ask (d : Directory) (config : LobbyConfig) (tag : String) : Exchange × Nat × Directory :=
  d.exchange (DirectoryRequest.forTag? config.directoryUrl tag) config.requestTimeout

end Directory

end OnlinePlay
