import OnlinePlay.Cli.Options
import OnlinePlay.Rehearsal.Browsing
import OnlinePlay.Rehearsal.Play

/-!
# Running the lobby browser

The program looks at the directory once, lists the sessions that pass the filters, and joins one of
them over a loopback core if the player wants to.
-/

namespace OnlinePlay.Cli

/-- What a run of the program comes to. -/
structure Result where
  exit : Nat
  stdout : List String := []
  stderr : List String := []
  deriving DecidableEq

/-- A text with blanks after it, at least `width` characters wide. -/
def padRight (width : Nat) (s : String) : String := s ++ "".pushn ' ' (width - s.length)

/-- A text with blanks before it, at least `width` characters wide. -/
def padLeft (width : Nat) (s : String) : String := "".pushn ' ' (width - s.length) ++ s

/-- The line of a session in the list. -/
def sessionLine (index : Nat) (s : LobbySession) : String :=
  "[" ++ padLeft 2 (toString index) ++ "] " ++ padRight 32 s.title ++ " " ++
    padRight 14 s.regionName ++ " " ++ padRight 10 s.methodName ++ " " ++ s.game ++
    (if s.hasPassword then " (password)" else "")

/-- The list of sessions, with their number above it. -/
def listLines (sessions : List LobbySession) : List String :=
  (toString sessions.length ++ " session(s)") ::
    sessions.zipIdx.map fun (s, index) => sessionLine index s

/-- The line that tells of an event, if it is worth one. -/
def eventLine? : SessionEvent → Option String
  | .statusChanged status role => some ("* " ++ status.name ++ " (" ++ role.name ++ ")")
  | .rosterUpdated roster => some ("* " ++ toString roster.playerCount ++ " player(s) in session")
  | .chat m => some ("[" ++ m.timestamp ++ "] <" ++ m.sender ++ "> " ++ m.text)
  | _ => none

/-- The line of chat with which the program greets a room. -/
def greeting : String := "hello from lobby-browser"

/-- How long the program stays in a room. -/
def stay : Nat := 2000 * millisecond

/-- Joins a server, greets the room, stays for a while and leaves again. -/
def join (username : String) (wall : Int) (server : LobbyServer) : Result :=
  let client : Client :=
    { settings := { username }, wall, pollConfig := PollConfig.withoutJitter {} }
  let play : Play := { client, core := { loopback := Loopback.attach {} } }
  let play := play.happen (.subscribe [.connection, .player, .chat])
  let (id, play) := play.call (.connect .caller server.address server.port)
  let lines (p : Play) : List String :=
    ("joining " ++ server.name ++ " (" ++ server.gameName ++ ")") ::
      p.delivered.filterMap fun
        | .event _ e => eventLine? e
        | .outcome .. => none
  match play.outcome? id with
  | some (some (.attempt (.ok _))) =>
    let (_, play) := play.call (.sendChat greeting)
    let (_, play) := (play.elapse stay).call .disconnect
    ⟨0, lines play, []⟩
  | some (some (.attempt (.error e))) => ⟨1, lines play, ["Error: " ++ e.message]⟩
  | _ => ⟨1, lines play, []⟩

/-- Goes on once the sessions are listed. -/
def follow (o : Options) (wall : Int) (config : LobbyConfig) (sessions : List LobbySession) :
    Result :=
  let list := listLines sessions
  match o.join with
  | none => ⟨0, list, []⟩
  | some index =>
    match sessions[index]? with
    | none => ⟨0, list, ["no session at index " ++ toString index]⟩
    | some s =>
      let joined := join o.username wall (s.server [] config.maxPlayers)
      { joined with stdout := list ++ joined.stdout }

/-- Looks at the directory and lists its sessions. -/
def browse (o : Options) (wall : Int) (directory : Directory) : Result × Directory :=
  let usual : LobbyConfig := {}
  let config := { usual with protocolTag := o.tag, directoryUrl := o.url.getD usual.directoryUrl }
  let filters : Filters := { region := o.region, hideInGame := !o.showInGame }
  let browsing : Browsing := ⟨.start { config } filters false 0, directory, [], 0⟩
  let (answer, browsing) := browsing.tell .refresh
  let result : Result := match answer with
    | some (.refreshed (.ok _)) => follow o wall config browsing.browser.shown
    | some (.refreshed (.error e)) => ⟨1, [], ["Error: " ++ e.message]⟩
    | _ => ⟨1, [], ["Error: " ++ LobbyError.message Wire.Flaw.text .browserUnavailable]⟩
  (result, browsing.directory)

/-- Runs the program on its arguments and on what the environment says of address and name. -/
def run (url username : Option String) (args : List String) (wall : Int) (directory : Directory) :
    Result × Directory :=
  match Options.read url username args with
  | .error .help => (⟨0, helpText, []⟩, directory)
  | .error .usage => (⟨2, [], usageText⟩, directory)
  | .ok o => browse o wall directory

end OnlinePlay.Cli
