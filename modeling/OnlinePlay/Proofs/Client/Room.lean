import OnlinePlay.Proofs.Chat.Log
import OnlinePlay.Proofs.Client.Inbound
import OnlinePlay.Proofs.Roster

/-!
# The room

The part of a session that others fill: its players, their count and what was said. While an
attempt is under way, `Room.hear` is all that a callback does (`room_hear`), and a room is replayed
from the callbacks that were heard in it.

`isEmpty_replay_iff` says when nothing is left of them in a room that was empty: nobody has said
anything, and everyone who joined has left again.
-/

namespace OnlinePlay

/-- Players, their count and chat. -/
structure Room where
  roster : Roster
  playerCount : Nat
  chat : ChatLog
  deriving DecidableEq

/-- A callback and the time of day at which it is taken in. -/
structure Hearing where
  clock : String
  event : NativeEvent

/-- The room of a session. -/
def Store.room (s : Store) : Room := ⟨s.roster, s.playerCount, s.chat⟩

namespace Room

/-- Nobody is there and nothing was said. -/
structure IsEmpty (r : Room) : Prop where
  players : r.roster.players = []
  count : r.playerCount = 0
  messages : r.chat.messages = []

/-- A player comes in. -/
def enter (r : Room) (p : Player) : Room :=
  if r.roster.changedBy p then
    { r with roster := r.roster.upsert p, playerCount := (r.roster.upsert p).size }
  else r

/-- A player goes. -/
def lose (r : Room) (id : PlayerId) : Room :=
  if r.roster.contains id then
    { r with roster := r.roster.remove id, playerCount := (r.roster.remove id).size }
  else r

/-- Something is said. -/
def say (r : Room) (m : ChatMessage) : Room := { r with chat := r.chat.push m }

/-- A callback is heard. -/
def hear (r : Room) (h : Hearing) : Room :=
  match h.event with
  | .playerJoined id nickname => r.enter (.joined id nickname)
  | .playerLeft id => r.lose id
  | .messageReceived sender text => r.say ⟨sender, text, h.clock⟩
  | _ => r

/-- Callbacks are heard one after the other. -/
def replay (r : Room) (hs : List Hearing) : Room := hs.foldl hear r

@[simp]
lemma replay_nil (r : Room) : r.replay [] = r := rfl

lemma replay_append (r : Room) (hs ks : List Hearing) :
    r.replay (hs ++ ks) = (r.replay hs).replay ks := List.foldl_append

@[simp]
lemma replay_snoc (r : Room) (hs : List Hearing) (h : Hearing) :
    r.replay (hs ++ [h]) = (r.replay hs).hear h := by
  simp [replay]

end Room

/-! ## The room of a store -/

namespace Store

lemma room_upsert (s : Store) (p : Player) : ((s.upsert? p).getD s).room = s.room.enter p := by
  by_cases changed : s.roster.changedBy p
  · simp [upsert?, Room.enter, room, changed, revise]
  · simp [upsert?, Room.enter, room, changed]

lemma room_remove (s : Store) (id : PlayerId) : ((s.remove? id).getD s).room = s.room.lose id := by
  by_cases present : s.roster.contains id
  · simp [remove?, Room.lose, room, present, revise]
  · simp [remove?, Room.lose, room, present]

lemma room_appendChat (s : Store) (m : ChatMessage) :
    ((s.appendChat? m).getD s).room = s.room.say m := by
  simp only [appendChat?, Room.say, room]
  split
  case isTrue => rfl
  case isFalse known => simp [ChatLog.push, known]

lemma room_markLost (s : Store) : s.markLost.2.room = s.room := by
  rcases s.markLost_cases with ⟨-, e⟩ | ⟨-, e⟩ | ⟨-, e⟩ <;> rw [e] <;> rfl

/-- While an attempt is under way, callbacks change the room and nothing else does. -/
lemma room_hear {s : Store} (underway : s.status = .connecting) (clock : String) (x : Inbound) :
    (s.hear clock x).room =
      match x with
      | .callback e => s.room.hear ⟨clock, e⟩
      | _ => s.room := by
  cases x with
  | stop id => rfl
  | line id m => simp [hear, underway]
  | callback e =>
    cases e with
    | connectionLost => exact s.room_markLost
    | playerJoined id nickname =>
      simp only [hear, hearCallback, underway, reduceCtorEq, if_false]
      exact s.room_upsert _
    | playerLeft id =>
      simp only [hear, hearCallback, underway, reduceCtorEq, if_false]
      exact s.room_remove id
    | messageReceived sender text =>
      simp only [hear, hearCallback, underway, reduceCtorEq, if_false]
      exact s.room_appendChat _
    | connected | connectionFailed | disconnected | hostGameStarted => rfl
  | report r => simp [hear, underway]

end Store

/-! ## Who is in the room -/

namespace Room

/-- The ids of the players in a room. -/
def ids (r : Room) : List PlayerId := r.roster.players.map (·.id)

lemma mem_enter {r : Room} {p : Player} {id : PlayerId} :
    id ∈ (r.enter p).ids ↔ id = p.id ∨ id ∈ r.ids := by
  rw [enter]
  split
  case isTrue => exact Roster.mem_place
  case isFalse known =>
    -- Who changes nothing is in the room already.
    have found : r.roster.get? p.id = some p := by
      by_contra other
      exact known (decide_eq_true other)
    have member : p.id ∈ r.ids := List.mem_map_of_mem (List.mem_of_find?_eq_some found)
    constructor
    · exact .inr
    · rintro (rfl | member)
      · assumption
      · exact member

lemma mem_lose {r : Room} {id gone : PlayerId} :
    id ∈ (r.lose gone).ids ↔ id ∈ r.ids ∧ id ≠ gone := by
  rw [lose]
  split
  case isTrue =>
    simp only [ids, Roster.remove, List.mem_map, List.mem_filter, decide_not, Bool.not_eq_true',
      decide_eq_false_iff_not]
    constructor
    · rintro ⟨p, ⟨member, other⟩, rfl⟩
      exact ⟨⟨p, member, rfl⟩, other⟩
    · rintro ⟨⟨p, member, rfl⟩, other⟩
      exact ⟨p, ⟨member, other⟩, rfl⟩
  case isFalse absent =>
    refine ⟨fun member => ⟨member, ?_⟩, And.left⟩
    rintro rfl
    obtain ⟨p, member, same⟩ := List.mem_map.1 member
    apply absent
    exact List.any_eq_true.2 ⟨p, member, by simpa using same⟩

/-! ## What changes nothing -/

/-- Who comes in changes the room, unless they are there under the same name. -/
lemma enter_eq_iff {r : Room} {p : Player} : r.enter p = r ↔ r.roster.get? p.id = some p := by
  rw [enter]
  split
  case isTrue changed =>
    have other : r.roster.get? p.id ≠ some p := of_decide_eq_true changed
    refine iff_of_false (fun same => ?_) other
    exact Roster.changedBy_iff.1 changed (congrArg (·.roster.players) same)
  case isFalse known => simpa [Roster.changedBy] using known

/-- Who goes changes the room, unless they were not there. -/
lemma lose_eq_iff {r : Room} {id : PlayerId} : r.lose id = r ↔ r.roster.contains id = false := by
  rw [lose]
  split
  case isTrue present =>
    refine iff_of_false (fun same => ?_) (by simp [present])
    exact Roster.contains_iff.1 present (congrArg (·.roster.players) same)
  case isFalse absent => simp [absent]

/-- What is said changes the room, unless it was said before. -/
lemma say_eq_iff {r : Room} {m : ChatMessage} : r.say m = r ↔ m ∈ r.chat.messages := by
  have chat : r.say m = r ↔ r.chat.push m = r.chat := by
    refine ⟨congrArg Room.chat, fun same => ?_⟩
    rw [say, same]
  rw [chat, ChatLog.push_eq_self_iff, ChatLog.accepts_iff, not_not]

/-! ## How many there are -/

/-- The count that callbacks keep is the number of players. -/
lemma counted_hear {r : Room} (counted : r.playerCount = r.roster.size) (h : Hearing) :
    (r.hear h).playerCount = (r.hear h).roster.size := by
  rw [hear]
  split
  · rw [enter]
    split
    · rfl
    · exact counted
  · rw [lose]
    split
    · rfl
    · exact counted
  · exact counted
  · exact counted

lemma counted_replay {r : Room} (bare : r.IsEmpty) (hs : List Hearing) :
    (r.replay hs).playerCount = (r.replay hs).roster.size := by
  induction hs using List.reverseRecOn with
  | nil =>
    rw [replay_nil, bare.count, Roster.size, bare.players]
    rfl
  | append_singleton hs h ih =>
    rw [replay_snoc]
    exact counted_hear ih h

/-! ## Who stays -/

/-- Somebody has joined and not left again. -/
def Stays (id : PlayerId) (hs : List Hearing) : Prop :=
  ∃ older newer clock nickname, hs = older ++ ⟨clock, .playerJoined id nickname⟩ :: newer ∧
    ∀ h ∈ newer, h.event ≠ .playerLeft id

lemma stays_snoc {id : PlayerId} {hs : List Hearing} {h : Hearing} :
    Stays id (hs ++ [h]) ↔
      (∃ nickname, h.event = .playerJoined id nickname) ∨
        Stays id hs ∧ h.event ≠ .playerLeft id := by
  constructor
  · rintro ⟨older, newer, clock, nickname, e, remains⟩
    -- The last callback is the one by which the player joined, or comes after it.
    rcases List.eq_nil_or_concat newer with rfl | ⟨newer, last, rfl⟩
    · obtain ⟨-, same⟩ := List.append_inj' e rfl
      rw [List.singleton_inj] at same
      exact .inl ⟨nickname, by rw [same]⟩
    · rw [List.concat_eq_append] at e remains
      rw [← List.cons_append, ← List.append_assoc] at e
      obtain ⟨same, last_same⟩ := List.append_inj' e rfl
      rw [List.singleton_inj] at last_same
      subst last_same
      refine .inr ⟨⟨older, newer, clock, nickname, same, fun h member => ?_⟩, ?_⟩
      · exact remains h (List.mem_append_left _ member)
      · exact remains _ (List.mem_append_right _ (.head _))
  · rintro (⟨nickname, joined⟩ | ⟨⟨older, newer, clock, nickname, rfl, remains⟩, last⟩)
    · refine ⟨hs, [], h.clock, nickname, ?_, nofun⟩
      rw [← joined]
    · refine ⟨older, newer ++ [h], clock, nickname, by simp, fun other member => ?_⟩
      rcases List.mem_append.1 member with member | member
      · exact remains other member
      · rwa [List.mem_singleton.1 member]

/-- In a room that was empty are those who stay. -/
lemma mem_replay {r : Room} (bare : r.IsEmpty) {id : PlayerId} {hs : List Hearing} :
    id ∈ (r.replay hs).ids ↔ Stays id hs := by
  induction hs using List.reverseRecOn with
  | nil => simp [Stays, ids, bare.players]
  | append_singleton hs h ih =>
    rw [replay_snoc, stays_snoc, ← ih, hear]
    cases h.event with
    | playerJoined joined nickname =>
      rw [mem_enter]
      simp [Player.joined, eq_comm]
    | playerLeft left =>
      rw [mem_lose]
      simp [eq_comm]
    | messageReceived => simp [say, ids]
    | connected | connectionFailed | disconnected | connectionLost | hostGameStarted => simp

/-! ## What is said -/

@[simp]
lemma chat_enter (r : Room) (p : Player) : (r.enter p).chat = r.chat := by
  rw [enter]
  split <;> rfl

@[simp]
lemma chat_lose (r : Room) (id : PlayerId) : (r.lose id).chat = r.chat := by
  rw [lose]
  split <;> rfl

/-- Whether somebody has said something. -/
def IsMessage (h : Hearing) : Prop := ∃ sender text, h.event = .messageReceived sender text

lemma messages_replay {r : Room} (bare : r.IsEmpty) (hs : List Hearing) :
    (r.replay hs).chat.messages = [] ↔ ∀ h ∈ hs, ¬ IsMessage h := by
  induction hs using List.reverseRecOn with
  | nil => simp [bare.messages]
  | append_singleton hs h ih =>
    rw [replay_snoc, List.forall_mem_append, List.forall_mem_singleton, ← ih, hear]
    cases e : h.event with
    | messageReceived sender text =>
      have filled := List.ne_nil_of_mem ((r.replay hs).chat.mem_push_self ⟨sender, text, h.clock⟩)
      simp [say, filled, IsMessage, e]
    | playerJoined | playerLeft | connected | connectionFailed | disconnected | connectionLost
    | hostGameStarted => simp [IsMessage, e]

lemma capacity_hear (r : Room) (h : Hearing) : (r.hear h).chat.capacity = r.chat.capacity := by
  rw [hear]
  split
  · rw [chat_enter]
  · rw [chat_lose]
  · simp only [say, ChatLog.push]
    split <;> rfl
  · rfl

lemma capacity_replay (r : Room) (hs : List Hearing) :
    (r.replay hs).chat.capacity = r.chat.capacity := by
  induction hs using List.reverseRecOn with
  | nil => rfl
  | append_singleton hs h ih => rw [replay_snoc, capacity_hear, ih]

/-! ## When nothing is left -/

/-- Callbacks of which nothing is left: nobody says anything, and whoever joins leaves again. -/
structure Cancel (hs : List Hearing) : Prop where
  silent : ∀ h ∈ hs, ∀ sender text, h.event ≠ .messageReceived sender text
  gone : ∀ older newer clock id nickname,
    hs = older ++ ⟨clock, .playerJoined id nickname⟩ :: newer →
      ∃ h ∈ newer, h.event = .playerLeft id

lemma isEmpty_iff {r : Room} (counted : r.playerCount = r.roster.size) :
    r.IsEmpty ↔ (∀ id, id ∉ r.ids) ∧ r.chat.messages = [] := by
  constructor
  · rintro ⟨players, -, messages⟩
    refine ⟨fun id => ?_, messages⟩
    rw [ids, players]
    exact List.not_mem_nil
  · rintro ⟨nobody, silent⟩
    have players : r.roster.players = [] := by
      have none := List.eq_nil_iff_forall_not_mem.2 nobody
      exact List.map_eq_nil_iff.1 none
    refine ⟨players, ?_, silent⟩
    rw [counted, Roster.size, players]
    rfl

/-- What was heard in a room that was empty has left it empty exactly if it cancels. -/
theorem isEmpty_replay_iff {r : Room} (bare : r.IsEmpty) {hs : List Hearing} :
    (r.replay hs).IsEmpty ↔ Cancel hs := by
  rw [isEmpty_iff (counted_replay bare hs), messages_replay bare]
  constructor
  · rintro ⟨nobody, silent⟩
    refine ⟨fun h member sender text e => silent h member ⟨sender, text, e⟩, ?_⟩
    intro older newer clock id nickname e
    by_contra remains
    refine nobody id ((mem_replay bare).2 ⟨older, newer, clock, nickname, e, ?_⟩)
    exact fun h later left => remains ⟨h, later, left⟩
  · rintro ⟨silent, gone⟩
    refine ⟨fun id member => ?_, fun h member ⟨sender, text, e⟩ => silent h member sender text e⟩
    obtain ⟨older, newer, clock, nickname, e, remains⟩ := (mem_replay bare).1 member
    obtain ⟨h, later, left⟩ := gone older newer clock id nickname e
    exact remains h later left

/-- Two empty rooms differ in the capacity of the log at most. -/
lemma IsEmpty.eq {r s : Room} (bare : r.IsEmpty) (bare' : s.IsEmpty)
    (capacity : s.chat.capacity = r.chat.capacity) : s = r := by
  obtain ⟨⟨players⟩, count, ⟨most, messages⟩⟩ := r
  obtain ⟨⟨players'⟩, count', ⟨most', messages'⟩⟩ := s
  obtain ⟨rfl, rfl, rfl⟩ : players = [] ∧ count = 0 ∧ messages = [] := ⟨bare.1, bare.2, bare.3⟩
  obtain ⟨rfl, rfl, rfl⟩ : players' = [] ∧ count' = 0 ∧ messages' = [] :=
    ⟨bare'.1, bare'.2, bare'.3⟩
  obtain rfl : most' = most := capacity
  rfl

/-- What cancels changes nothing in a room that was empty. -/
lemma replay_of_cancel {r : Room} (bare : r.IsEmpty) {hs : List Hearing} (cancel : Cancel hs) :
    r.replay hs = r :=
  bare.eq ((isEmpty_replay_iff bare).2 cancel) (capacity_replay r hs)

end Room

end OnlinePlay
