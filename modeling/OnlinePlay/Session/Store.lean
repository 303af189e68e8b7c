import OnlinePlay.Chat.Log
import OnlinePlay.Event
import OnlinePlay.Roster
import OnlinePlay.Session.Error
import OnlinePlay.Session.HostCode

/-!
# The session store

The state of one client's session: where the connection stands, who is in the room, what was said.

A session goes from `disconnected` through `connecting` to `connected`, from there perhaps to
`lost`, and by a reset back to `disconnected`. Every attempt and every reset opens a new
generation, so that whoever acts for an older one can be told apart. `connecting` belongs to the
attempt whose generation is current: only that attempt ends it, and a link lost meanwhile is noted
for it.

Each change of the roster opens a new revision. An operation that may change nothing returns an
`Option`, with `none` for "nothing to do".
-/

namespace OnlinePlay

/-- The newest status that was announced, and how often one was. -/
structure StatusWatch where
  value : Status
  version : Nat
  deriving DecidableEq

/-- The state of one client's session. -/
structure Store where
  status : Status := .disconnected
  role : Role := .none
  roster : Roster := .empty
  /-- The count that the core reported last; it may differ from the length of the roster. -/
  playerCount : Nat := 0
  revision : Nat := 0
  chat : ChatLog := .empty
  hostCode : Option HostCode := none
  /-- The code of an attempt that has not ended yet. -/
  pendingCode : Option HostCode := none
  /-- The newest code of all, kept for as long as the store lives. -/
  lastCode : Option HostCode := none
  /-- The core lost the link before the attempt ended. -/
  lostWhileConnecting : Bool := false
  generation : Nat := 0
  watch : StatusWatch := ⟨.disconnected, 0⟩
  deriving DecidableEq

namespace Store

/-- The store of a client that has just started. -/
def initial : Store := {}

/-! ## Status and role -/

/-- Sets the status, and announces it if it is another one than before. -/
def setStatus (s : Store) (status : Status) : Store :=
  if s.status = status then s
  else { s with status, watch := ⟨status, s.watch.version + 1⟩ }

/-- Sets the role. -/
def setRole (s : Store) (role : Role) : Store := { s with role }

/-! ## Attempts -/

/-- Opens an attempt and returns its generation. Only a disconnected session can be opened. -/
def begin (s : Store) : Except SessionError (Nat × Store) :=
  if s.status = .disconnected then
    let generation := s.generation + 1
    .ok (generation, { s with generation, lostWhileConnecting := false }.setStatus .connecting)
  else .error (.busy s.status)

/-- Whether the attempt of a generation is under way. -/
def isAttempt (s : Store) (generation : Nat) : Bool :=
  s.generation = generation && s.status = .connecting

/-- Ends the attempt of a generation well. There is nothing to end if that attempt is not under
way, or if the link was lost meanwhile. The code issued for the attempt is shown from now on if
the client hosts, and forgotten if not. -/
def finish? (s : Store) (generation : Nat) (role : Role) : Option Store :=
  if s.isAttempt generation && !s.lostWhileConnecting then
    let hostCode := if role = .host then s.pendingCode else s.hostCode
    some ({ s with role, hostCode, pendingCode := none }.setStatus .connected)
  else none

/-- Ends the attempt of a generation in failure. Roster and chat stay as they are. -/
def abort? (s : Store) (generation : Nat) : Option Store :=
  if s.isAttempt generation then
    some ({ s with role := .none, hostCode := none, pendingCode := none,
                   lostWhileConnecting := false }.setStatus .disconnected)
  else none

/-- Takes note that the core lost the link, and says whether an open session was lost by it. An
attempt under way is left to its owner, who will find the note. -/
def markLost (s : Store) : Bool × Store :=
  match s.status with
  | .disconnected | .lost => (false, s)
  | .connecting => (false, { s with lostWhileConnecting := true })
  | .connected => (true, s.setStatus .lost)

/-- Back to the beginning, in a new generation and with a new revision of the roster. -/
def reset (s : Store) : Store :=
  { s with
    generation := s.generation + 1
    role := .none
    roster := .empty
    playerCount := 0
    revision := s.revision + 1
    chat := s.chat.clear
    hostCode := none
    pendingCode := none
    lostWhileConnecting := false }.setStatus .disconnected

/-- Whether a generation is that of the session that is open or being opened. -/
def isCurrent (s : Store) (generation : Nat) : Bool :=
  s.generation = generation && s.status ≠ .disconnected

/-! ## Roster -/

/-- The roster as observers get it. -/
def snapshot (s : Store) : RosterSnapshot :=
  ⟨s.revision, s.playerCount, s.roster.players⟩

/-- A new revision with another roster and count. -/
def revise (s : Store) (roster : Roster) (playerCount : Nat) : Store :=
  { s with roster, playerCount, revision := s.revision + 1 }

/-- Enters a player. Nothing changes if the player is entered already. -/
def upsert? (s : Store) (p : Player) : Option Store :=
  if s.roster.changedBy p then
    let roster := s.roster.upsert p
    some (s.revise roster roster.size)
  else none

/-- Takes a player out. Nothing changes if the player is not entered. -/
def remove? (s : Store) (id : PlayerId) : Option Store :=
  if s.roster.contains id then
    let roster := s.roster.remove id
    some (s.revise roster roster.size)
  else none

/-- Enters a whole new list of players. -/
def replace (s : Store) (ps : List Player) : Store :=
  let roster := Roster.replace ps
  s.revise roster roster.size

/-- Takes over what the core reports. Nothing changes if count and list are known already. -/
def refresh? (s : Store) (playerCount : Nat) (ps : List Player) : Option Store :=
  if s.playerCount = playerCount && s.roster.isList ps then none
  else some (s.revise (Roster.replace ps) playerCount)

/-! ## Chat and host code -/

/-- Takes a message into the chat. Nothing changes if the chat holds it already. -/
def appendChat? (s : Store) (m : ChatMessage) : Option Store :=
  if s.chat.accepts m then some { s with chat := s.chat.push m } else none

/-- Issues a code that is not the one issued before. It is shown once the attempt has ended well.
Without enough draws there is no code. -/
def issueCode? (s : Store) (draws : List (Fin 16)) : Option (HostCode × Store) :=
  (HostCode.fresh? s.lastCode draws).map fun code =>
    (code, { s with pendingCode := some code, lastCode := some code })

end Store

end OnlinePlay
