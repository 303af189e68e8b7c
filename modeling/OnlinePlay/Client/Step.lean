import OnlinePlay.Client.Errands
import OnlinePlay.Client.Lifecycle
import OnlinePlay.Client.Polling

/-!
# Steps of a client

What may happen to a client next, and what it then does. Calls of the player, callbacks and answers
of the core may come at any moment; the client itself gives the lifecycle turn on, takes things in
and wakes its loops. Each step is done as a whole before the next one starts.
-/

namespace OnlinePlay

/-- Something that may happen to a client next. -/
inductive Happening where
  | connect (reply : Reply) (address : String) (port : UInt16)
  | host (reply : Reply) (port : UInt16) (draws : List (Fin 16))
  | disconnect
  | shutDown
  | sendChat (text : String)
  | kick (id : PlayerId)
  | ban (id : PlayerId)
  | setVisibility (visibility : Visibility)
  | checkGame (path : String)
  | launchGame (path : String)
  | discover (reply : Reply)
  | editSettings (edit : Settings → Settings)
  | subscribe (topics : List Topic)
  | unsubscribe (id : Nat)
  /-- The first of the lifecycle line gets the turn. -/
  | turn
  | opened (answer : Except NativeError Bool) (delay : Chore → Nat)
  | closed (answer : Except NativeError Unit)
  | told (call : CallId) (answer : Except NativeError Unit)
  | checked (call : CallId) (answer : Except NativeError (Option (String × String)))
  | launched (call : CallId) (answer : Except NativeError Bool)
  | listed (call : CallId) (exchange : Exchange)
  /-- The core raises a callback. -/
  | raised (event : NativeEvent)
  /-- The intake takes the next thing. -/
  | takeIn
  | confirmed (answer : Except NativeError Unit)
  /-- A loop of the poller notices the status. -/
  | notice (chore : Chore)
  /-- A loop of the poller wakes up. -/
  | poll (chore : Chore)
  | rosterRead (run : Nat) (answer : Except NativeError (Nat × List Player))
  | drained (run : Nat) (answer : Except NativeError Unit)
  /-- Some time passes. -/
  | elapse (time : Nat)
  /-- The clock on the wall is set. -/
  | setWall (seconds : Int)

namespace Client

/-- What a client does when something happens, and nothing if it cannot happen now. -/
def step? (c : Client) : Happening → Option (Client × List Effect)
  | .connect reply address port => some (c.connect reply address port)
  | .host reply port draws => c.host? reply port draws
  | .disconnect => some (c.close .caller false)
  | .shutDown => some (c.shutDown .caller)
  | .sendChat text => some (c.sendChat text)
  | .kick id => some (c.kick id)
  | .ban id => some (c.ban id)
  | .setVisibility visibility => some (c.setVisibility visibility)
  | .checkGame path => some (c.checkGame path)
  | .launchGame path => some (c.launchGame path)
  | .discover reply => some (c.discover reply)
  | .editSettings edit => some ({ c with settings := edit c.settings }, [])
  | .subscribe topics => some ({ c with subscriptions := (c.subscriptions.subscribe topics).2 }, [])
  | .unsubscribe id => some ({ c with subscriptions := (c.subscriptions.unsubscribe id).2 }, [])
  | .turn => c.turn?
  | .opened answer delay => c.opened? answer delay
  | .closed _ => c.closed?
  | .told call answer => c.told? call answer
  | .checked call answer => c.checked? call answer
  | .launched call answer => c.launched? call answer
  | .listed call exchange => c.listed? call exchange
  | .raised event => some ({ c with intake := c.intake.raise event }, [])
  | .takeIn => c.takeIn?
  | .confirmed answer => c.confirmed? answer
  | .notice chore => some (c.noticeStatus chore, [])
  | .poll chore => c.poll? chore
  | .rosterRead run answer => some (c.rosterRead run answer, [])
  | .drained run _ => some (c.drained run, [])
  | .elapse time => some ({ c with now := c.now + time }, [])
  | .setWall seconds => some ({ c with wall := seconds }, [])

end Client

/-- A client gets from one state to another by what happens, with these effects. -/
inductive Client.Run : Client → List Happening → List Effect → Client → Prop where
  | nil (c : Client) : Run c [] [] c
  | cons {c d e : Client} {h : Happening} {hs : List Happening} {first rest : List Effect} :
    c.step? h = some (d, first) → Run d hs rest e → Run c (h :: hs) (first ++ rest) e

end OnlinePlay
