import OnlinePlay.Event
import OnlinePlay.Game
import OnlinePlay.Lobby.Listing
import OnlinePlay.Session.Settings
import OnlinePlay.Wire.Error
import OnlinePlay.Wire.Record

/-!
# Payloads

The formats of everything that goes over the wire.
-/

namespace OnlinePlay

open Wire (Format Members)

/-- A type whose values go over the wire. -/
class Payload (α : Type) where
  /-- How its values are written and read. -/
  format : Format α

/-- The text of a value. -/
def Payload.encode {α : Type} [Payload α] (a : α) : Wire.Bytes := (format : Format α).write a

/-- The value of a text. -/
def Payload.decode {α : Type} [Payload α] (text : Wire.Bytes) : Except ProtocolError α :=
  ((format : Format α).decode text).mapError .decode

/-- A number. -/
def PlayerId.format : Format PlayerId := Format.word32.via (⟨·⟩) (·.number)

/-- All members are required. -/
def Player.members : Members (PlayerId × String × Bool × Unit) :=
  .cons "id" PlayerId.format .refused <|
    .cons "nickname" .text .refused <|
    .cons "connected" .flag .refused .none

/-- A record of these members. -/
def Player.format : Format Player :=
  (Format.record members).via
    (fun (id, nickname, connected, ()) => ⟨id, nickname, connected⟩)
    (fun p => (p.id, p.nickname, p.connected, ()))

/-- All members are required. -/
def ChatMessage.members : Members (String × String × String × Unit) :=
  .cons "sender" .text .refused <|
    .cons "text" .text .refused <|
    .cons "timestamp" .text .refused .none

/-- A record of these members. -/
def ChatMessage.format : Format ChatMessage :=
  (Format.record members).via
    (fun (sender, text, timestamp, ()) => ⟨sender, text, timestamp⟩)
    (fun m => (m.sender, m.text, m.timestamp, ()))

/-- All members are required. -/
def RosterSnapshot.members : Members (Nat × Nat × List Player × Unit) :=
  .cons "revision" (.natural UInt64.size) .refused <|
    .cons "player_count" (.natural UInt64.size) .refused <|
    .cons "players" (.list Player.format) .refused .none

/-- A record of these members. -/
def RosterSnapshot.format : Format RosterSnapshot :=
  (Format.record members).via
    (fun (revision, playerCount, players, ()) => ⟨revision, playerCount, players⟩)
    (fun s => (s.revision, s.playerCount, s.players, ()))

/-- By name. -/
def Status.format : Format Status := .choice Status.all Status.name

/-- By name. -/
def Role.format : Format Role := .choice Role.all Role.name

/-- By name. -/
def Visibility.format : Format Visibility := .choice Visibility.all Visibility.name

/-- By name. -/
def Link.format : Format Link := .choice Link.all Link.name

/-- An entry of an older directory may lack the last four members. -/
def LobbySession.members :
    Members (String × String × UInt16 × String × UInt32 × Bool × String × String × String × Bool ×
      Unit) :=
  .cons "server_id" .text .refused <|
    .cons "name" .text .refused <|
    .cons "port" .word16 .refused <|
    .cons "game" .text .refused <|
    .cons "player_count" .word32 .refused <|
    .cons "in_game" .flag .refused <|
    .cons "version" .text (.means "") <|
    .cons "region" .text (.means "") <|
    .cons "method" .text (.means "") <|
    .cons "password" .flag (.means false) .none

/-- A record of these members. -/
def LobbySession.format : Format LobbySession :=
  (Format.record members).via
    (fun
      (serverId, name, port, game, playerCount, inGame, version, region, method, hasPassword, ()) =>
      ⟨serverId, name, port, game, playerCount, inGame, version, region, method, hasPassword⟩)
    (fun s =>
      (s.serverId, s.name, s.port, s.game, s.playerCount, s.inGame, s.version, s.region, s.method,
        s.hasPassword, ()))

/-- A directory without sessions may leave the list out. -/
def LobbyListing.members : Members (String × List LobbySession × Unit) :=
  .cons "status" .text .refused <|
    .cons "sessions" (.list LobbySession.format) (.means []) .none

/-- A record of these members. -/
def LobbyListing.format : Format LobbyListing :=
  (Format.record members).via
    (fun (status, sessions, ()) => ⟨status, sessions⟩)
    (fun l => (l.status, l.sessions, ()))

/-- All members are required. -/
def LobbyServer.members :
    Members (String × String × UInt16 × String × String × UInt32 × UInt32 × String × Unit) :=
  .cons "name" .text .refused <|
    .cons "address" .text .refused <|
    .cons "port" .word16 .refused <|
    .cons "game_id" .text .refused <|
    .cons "game_name" .text .refused <|
    .cons "player_count" .word32 .refused <|
    .cons "max_players" .word32 .refused <|
    .cons "protocol_version" .text .refused .none

/-- A record of these members. -/
def LobbyServer.format : Format LobbyServer :=
  (Format.record members).via
    (fun (name, address, port, gameId, gameName, playerCount, maxPlayers, protocolVersion, ()) =>
      ⟨name, address, port, gameId, gameName, playerCount, maxPlayers, protocolVersion⟩)
    (fun s =>
      (s.name, s.address, s.port, s.gameId, s.gameName, s.playerCount, s.maxPlayers,
        s.protocolVersion, ()))

/-- Every member that is missing has the value of the settings that nobody has touched. -/
def Settings.members : Members (String × String × UInt16 × Visibility × Link × String × Unit) :=
  let untouched : Settings := {}
  .cons "username" .text (.means untouched.username) <|
    .cons "server_address" .text (.means untouched.serverAddress) <|
    .cons "server_port" .word16 (.means untouched.serverPort) <|
    .cons "room_visibility" Visibility.format (.means untouched.roomVisibility) <|
    .cons "connection_type" Link.format (.means untouched.connectionType) <|
    .cons "server_name" .text (.means untouched.serverName) .none

/-- A record of these members. -/
def Settings.format : Format Settings :=
  (Format.record members).via
    (fun (username, serverAddress, serverPort, roomVisibility, connectionType, serverName, ()) =>
      ⟨username, serverAddress, serverPort, roomVisibility, connectionType, serverName⟩)
    (fun s =>
      (s.username, s.serverAddress, s.serverPort, s.roomVisibility, s.connectionType, s.serverName,
        ()))

/-- An object may leave out what is not known of the file. -/
def GameValidation.members :
    Members (Bool × Option String × Option String × Option String × Unit) :=
  .cons "valid" .flag .refused <|
    .cons "checksum" (.optional .text) (.meansInObject none) <|
    .cons "game_id" (.optional .text) (.meansInObject none) <|
    .cons "error" (.optional .text) (.meansInObject none) .none

/-- A record of these members. -/
def GameValidation.format : Format GameValidation :=
  (Format.record members).via
    (fun (valid, checksum, gameId, error, ()) => ⟨valid, checksum, gameId, error⟩)
    (fun v => (v.valid, v.checksum, v.gameId, v.error, ()))

instance : Payload PlayerId := ⟨PlayerId.format⟩
instance : Payload Player := ⟨Player.format⟩
instance : Payload ChatMessage := ⟨ChatMessage.format⟩
instance : Payload RosterSnapshot := ⟨RosterSnapshot.format⟩
instance : Payload Status := ⟨Status.format⟩
instance : Payload Role := ⟨Role.format⟩
instance : Payload Visibility := ⟨Visibility.format⟩
instance : Payload Link := ⟨Link.format⟩
instance : Payload LobbySession := ⟨LobbySession.format⟩
instance : Payload LobbyListing := ⟨LobbyListing.format⟩
instance : Payload LobbyServer := ⟨LobbyServer.format⟩
instance : Payload Settings := ⟨Settings.format⟩
instance : Payload GameValidation := ⟨GameValidation.format⟩

end OnlinePlay
