import OnlinePlay.Client.State

/-!
# Errands

Everything a player may ask of a client apart from opening and closing sessions: to send a line of
chat, to throw players out, to show or hide the room, to check and start games, to look at the
directory.
-/

namespace OnlinePlay.Client

/-! ## Starting errands -/

/-- Ends an errand at once. -/
def refuse (c : Client) (e : PlayError) : Client × List Effect :=
  let (id, c) := c.takeCall
  (c, [.returns id (.errand (.error e))])

/-- Lets an errand wait for the answer to a request. -/
def ask (c : Client) (e : Errand) (request : CallId → Request) : Client × List Effect :=
  let (id, c) := c.takeCall
  (c.await id e, [.asks (request id)])

/-- Sends a line of chat. -/
def sendChat (c : Client) (text : String) : Client × List Effect :=
  if Text.isBlank text then c.refuse (.session .emptyMessage)
  else if c.isClosed then c.refuse .shutDown
  else if !c.isConnected then c.refuse (.session .notConnected)
  else c.ask (.chat text) (.sendMessage · text)

/-- Passes an order on to the core if the player hosts an open session, and does nothing if not. -/
def order (c : Client) (request : CallId → Request) : Client × List Effect :=
  if c.isConnectedHost then c.ask .order request
  else
    let (id, c) := c.takeCall
    (c, [.returns id (.errand (.ok false))])

/-- Throws a player out. -/
def kick (c : Client) (id : PlayerId) : Client × List Effect := c.order (.kick · id)

/-- Throws a player out for good. -/
def ban (c : Client) (id : PlayerId) : Client × List Effect := c.order (.ban · id)

/-- Shows or hides the room, now if it is open and in any case from the next time on. -/
def setVisibility (c : Client) (visibility : Visibility) : Client × List Effect :=
  let c := { c with settings := { c.settings with roomVisibility := visibility } }
  c.order (.setVisibility · visibility)

/-- Checks a game file. -/
def checkGame (c : Client) (path : String) : Client × List Effect :=
  c.ask .check (.checkGame · path)

/-- Checks a game file and starts the game. -/
def launchGame (c : Client) (path : String) : Client × List Effect :=
  if c.isConnected then c.ask (.checkToLaunch path) (.checkGame · path)
  else c.refuse (.session .notConnected)

/-- Looks for servers that can be joined. -/
def discover (c : Client) (reply : Reply) : Client × List Effect :=
  c.ask (.listing reply) .listServers

/-! ## Answers -/

/-- The core has carried out what it was told, or failed to. A line of chat that was sent goes on to
the intake, with the name of the player and the time of day. -/
def told? (c : Client) (id : CallId) (answer : Except NativeError Unit) :
    Option (Client × List Effect) :=
  let ended := c.endAwait id
  let result (r : Except PlayError Bool) : Option (Client × List Effect) :=
    some (ended, [.returns id (.errand r)])
  match c.errands.lookup id, answer with
  | some (.chat _), .error e | some .order, .error e => result (.error (.native e))
  | some .order, .ok () => result (.ok true)
  | some (.chat text), .ok () =>
    if c.intake.phase = .stopped then result (.error .shutDown)
    else
      let message : ChatMessage := ⟨c.settings.username, text, clockText c.wall⟩
      let lines := c.intake.lines ++ [(id, message)]
      some ({ ended with intake := { c.intake with lines } }, [])
  | _, _ => none

/-- The core has checked a game file. -/
def checked? (c : Client) (id : CallId) (answer : Except NativeError (Option (String × String))) :
    Option (Client × List Effect) :=
  let verdict := GameValidation.ofCheck answer
  let ended := c.endAwait id
  match c.errands.lookup id with
  | some .check => some (ended, [.returns id (.verdict verdict)])
  | some (.checkToLaunch path) =>
    if verdict.valid then some (ended.await id .launch, [.asks (.launchGame id path)])
    else some (ended, [.returns id (.errand (.error (.invalidGame (verdict.error.getD ""))))])
  | _ => none

/-- The core has started a game, or refused to. -/
def launched? (c : Client) (id : CallId) (answer : Except NativeError Bool) :
    Option (Client × List Effect) :=
  let result : Except PlayError Bool :=
    match answer with
    | .ok true => .ok true
    | .ok false => .error (.invalidGame "core refused to launch")
    | .error e => .error (.native e)
  match c.errands.lookup id with
  | some .launch => some (c.endAwait id, [.returns id (.errand result)])
  | _ => none

/-- The directory has answered, or could not be reached. -/
def listed? (c : Client) (id : CallId) (exchange : Exchange) : Option (Client × List Effect) :=
  match c.errands.lookup id with
  | some (.listing reply) =>
    let servers := c.lobby.servers c.lobby.config.protocolTag exchange
    some (c.endAwait id, [reply.effect id (.servers servers)])
  | _ => none

end OnlinePlay.Client
