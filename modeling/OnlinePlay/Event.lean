import OnlinePlay.Chat.Message
import OnlinePlay.Connection
import OnlinePlay.Player

/-!
# Events

What a session tells its observers (`SessionEvent`), and what the native core tells a session
(`NativeEvent`).
-/

namespace OnlinePlay

/-- The players of a session at one moment. The revision grows with every change of the roster. -/
structure RosterSnapshot where
  revision : Nat
  playerCount : Nat
  players : List Player
  deriving DecidableEq

/-- What an observer may ask to be told about. -/
inductive Topic where
  | connection
  | player
  | chat
  deriving DecidableEq

namespace Topic

/-- The name of a topic. -/
def name : Topic → String
  | connection => "Connection"
  | player => "Player"
  | chat => "Chat"

/-- Every topic. -/
def all : List Topic := [connection, player, chat]

end Topic

/-- Something that happened to a session. -/
inductive SessionEvent where
  | statusChanged (status : Status) (role : Role)
  | connectionFailed (reason : String)
  | gameStarted
  | nativeDisconnected
  | playerJoined (player : Player)
  | playerLeft (id : PlayerId)
  | rosterUpdated (roster : RosterSnapshot)
  | chat (message : ChatMessage)
  deriving DecidableEq

namespace SessionEvent

/-- The name of an event. -/
def name : SessionEvent → String
  | statusChanged .. => "StatusChanged"
  | connectionFailed _ => "ConnectionFailed"
  | gameStarted => "GameStarted"
  | nativeDisconnected => "NativeDisconnected"
  | playerJoined _ => "PlayerJoined"
  | playerLeft _ => "PlayerLeft"
  | rosterUpdated _ => "RosterUpdated"
  | chat _ => "Chat"

/-- The topic under which an event is told. -/
def topic : SessionEvent → Topic
  | statusChanged .. | connectionFailed _ | gameStarted | nativeDisconnected => .connection
  | playerJoined _ | playerLeft _ | rosterUpdated _ => .player
  | chat _ => .chat

end SessionEvent

/-- A callback of the native core. -/
inductive NativeEvent where
  | connected
  | connectionFailed (reason : String)
  | disconnected
  | connectionLost
  | playerJoined (id : PlayerId) (nickname : String)
  | playerLeft (id : PlayerId)
  | messageReceived (sender : String) (text : String)
  | hostGameStarted
  deriving DecidableEq

/-- The name of a callback. -/
def NativeEvent.name : NativeEvent → String
  | connected => "Connected"
  | connectionFailed _ => "ConnectionFailed"
  | disconnected => "Disconnected"
  | connectionLost => "ConnectionLost"
  | playerJoined .. => "PlayerJoined"
  | playerLeft _ => "PlayerLeft"
  | messageReceived .. => "MessageReceived"
  | hostGameStarted => "HostGameStarted"

end OnlinePlay
