import OnlinePlay.Lobby.Error
import OnlinePlay.Lobby.Titles
import OnlinePlay.Text.Form
import OnlinePlay.Wire.Payload

/-!
# The lobby client

Which request asks the directory for the sessions of a protocol tag, and what its answer means:
the sessions with that tag (`sessions`), or the servers that can be joined (`servers`).
-/

namespace OnlinePlay

/-- How to reach the directory. Times are in nanoseconds. -/
structure LobbyConfig where
  directoryUrl : String := "https://lobby.dolphin-emu.org/v0/list"
  protocolTag : String := "MPN"
  connectTimeout : Nat := 10 * 1000000000
  readTimeout : Nat := 10 * 1000000000
  maxPlayers : UInt32 := 4
  refreshInterval : Nat := 5 * 1000000000
  deriving DecidableEq

/-- How long a request may take in all. -/
def LobbyConfig.requestTimeout (c : LobbyConfig) : Nat := c.connectTimeout + c.readTimeout

/-- A request to the directory. -/
structure DirectoryRequest where
  method : String
  /-- Path and query. -/
  target : String
  /-- The value of the header by which the directory knows emulator clients. -/
  clientMark : String
  deriving DecidableEq

/-- What came of a request. -/
inductive Exchange where
  | answered (status : Nat) (body : Wire.Bytes)
  | failed (detail : String)
  deriving DecidableEq

namespace DirectoryRequest

/-- The rest of a text after a part at its front. -/
def after? : List Char → List Char → Option (List Char)
  | [], text => some text
  | _ :: _, [] => none
  | p :: ps, c :: cs => if p = c then after? ps cs else none

/-- Path and query of an `http` or `https` URL, without its fragment. -/
def target? (url : String) : Option String :=
  let chars := url.toList
  match (after? "http://".toList chars).or (after? "https://".toList chars) with
  | none => none
  | some rest =>
    let inHost (c : Char) : Bool := c ≠ '/' && c ≠ '?' && c ≠ '#'
    let host := rest.takeWhile inHost
    let path := (rest.dropWhile inHost).takeWhile (· ≠ '#')
    if host.isEmpty then none
    else if path.head? = some '/' then some (String.ofList path)
    else some (String.ofList ('/' :: path))

/-- A target with one more pair in its query. -/
def withPair (target key value : String) : String :=
  let query := (target.toList.dropWhile (· ≠ '?'))
  let mark := match query with
    | [] => "?"
    | [_] => ""
    | _ => "&"
  target ++ mark ++ Text.formEncode key ++ "=" ++ Text.formEncode value

/-- The request for the sessions of a tag. -/
def forTag? (url tag : String) : Option DirectoryRequest :=
  (target? url).map fun target => ⟨"GET", withPair target "version" tag, "1"⟩

end DirectoryRequest

/-- The sessions of a tag in the body of an answer. -/
def LobbyListing.sessionsIn (body : Wire.Bytes) (tag : String) :
    Except DiscoveryError (List LobbySession) :=
  match (Payload.decode body : Except ProtocolError LobbyListing) with
  | .error e => .error (.parse e)
  | .ok listing =>
    if listing.isOk then .ok (listing.sessions.filter (·.version = tag))
    else .error (.badStatus ("status " ++ listing.status))

/-- The joinable form of a session. -/
def LobbySession.server (s : LobbySession) (library : Titles.Library) (maxPlayers : UInt32) :
    LobbyServer :=
  ⟨s.name, s.serverId, s.port, s.game, Titles.resolve library s.game, s.playerCount, maxPlayers,
    s.version⟩

/-- A client of the directory, with the games of the local player. -/
structure LobbyClient where
  config : LobbyConfig := {}
  library : Titles.Library := []

namespace LobbyClient

/-- The sessions of a tag, in the order of the listing, once the request has come to an end. -/
def sessions (tag : String) : Exchange → Except DiscoveryError (List LobbySession)
  | .failed detail => .error (.network detail)
  | .answered status body =>
    if status = 200 then LobbyListing.sessionsIn body tag
    else .error (.badStatus ("HTTP " ++ toString status))

/-- The servers with a tag that can be joined, once the request has come to an end. A session whose
game has started cannot be joined. -/
def servers (c : LobbyClient) (tag : String) (exchange : Exchange) :
    Except DiscoveryError (List LobbyServer) :=
  (sessions tag exchange).map fun listed =>
    (listed.filter (!·.inGame)).map (·.server c.library c.config.maxPlayers)

end LobbyClient

end OnlinePlay
