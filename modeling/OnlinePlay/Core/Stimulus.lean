import OnlinePlay.Core.Loopback

/-!
# Stimuli

What may happen to a loopback core from outside: its owner changes how it answers, peers come, go
and speak, callbacks are raised. A stimulus that raises callbacks tells of each whether anyone
heard it.
-/

namespace OnlinePlay

/-- Something that happens to a loopback core from outside. -/
inductive Stimulus where
  | setAccept (value : Bool)
  | setAvailable (value : Bool)
  | setFailReads (value : Bool)
  | addGame (path : String) (file : GameFile)
  | setPlayers (players : List Player)
  | playerJoined (id : PlayerId) (nickname : String)
  | playerLeft (id : PlayerId)
  | raise (events : List NativeEvent)
  | queue (event : NativeEvent)

namespace Loopback

/-- What a stimulus makes of a core. -/
def react (c : Loopback) : Stimulus → Loopback
  | .setAccept accept => { c with accept }
  | .setAvailable available => { c with available }
  | .setFailReads failReads => { c with failReads }
  | .addGame path file => c.addGame path file
  | .setPlayers players => { c with players }
  | .playerJoined id nickname => c.playerJoined id nickname
  | .playerLeft id => c.playerLeft id
  | .raise events => events.foldl emit c
  | .queue event => c.queue event

/-- The callbacks that a stimulus raises at once: for each, whether it is heard. -/
def hears (c : Loopback) : Stimulus → List Bool
  | .playerJoined .. | .playerLeft _ => [c.isHeard]
  | .raise events => events.map fun _ => c.isHeard
  | _ => []

end Loopback

end OnlinePlay
