import OnlinePlay.Proofs.Client.History
import OnlinePlay.Proofs.Client.Room
import OnlinePlay.Proofs.Client.Shift

/-!
# What a failed attempt leaves behind

An attempt that fails gives the store back as disconnected, and leaves players and chat alone. But
callbacks are taken in while it is under way, and what they have entered stays: a room after a
failure is the room before the attempt, with the callbacks replayed that were heard in between
(`Past.room_failure`).

A history spares the room (`SparesRoom`) if no failed attempt changes it, and no session is ever
disconnected or new with anything in it. That is so exactly if what was heard during each of its
failed attempts cancels, and a single player who joins at the wrong moment is enough to break it.
-/

namespace OnlinePlay

namespace Moment

/-- An attempt begins. -/
def Begins (m : Moment) : Prop :=
  m.before.store.status = .disconnected ∧ m.after.store.status = .connecting

/-- An attempt fails, and not because the session was reset. -/
def Fails (m : Moment) : Prop :=
  m.before.store.status = .connecting ∧ m.after.store.status = .disconnected ∧
    m.after.store.generation = m.before.store.generation

/-- The callback that is taken in at a moment while an attempt is under way. -/
def hearing? (m : Moment) : Option Hearing :=
  match m.happening, m.before.store.status, m.before.intake.next? with
  | .takeIn, .connecting, some (.callback e, _) => some ⟨clockText m.before.wall, e⟩
  | _, _, _ => none

end Moment

/-- The callbacks that were taken in while an attempt was under way. -/
def hearings (ms : List Moment) : List Hearing := ms.filterMap (·.hearing?)

lemma hearings_snoc (ms : List Moment) (m : Moment) :
    hearings (ms ++ [m]) = hearings ms ++ m.hearing?.toList := by
  cases h : m.hearing? <;> simp [hearings, h]

/-- An attempt begins at one moment of a history and fails at another, with these in between. -/
def FailedAttempt (ms : List Moment) (first : Moment) (between : List Moment) (last : Moment) :
    Prop :=
  (∃ older newer, ms = older ++ first :: (between ++ last :: newer)) ∧
    first.Begins ∧ last.Fails ∧ last.before.store.generation = first.after.store.generation

/-- No failed attempt changes players or chat, nothing is in the room of a disconnected session, and
nothing is in the room when an attempt begins. -/
structure SparesRoom (ms : List Moment) : Prop where
  failed : ∀ first between last, FailedAttempt ms first between last →
    last.after.store.room = first.before.store.room
  idle : ∀ m ∈ ms, m.after.store.status = .disconnected → m.after.store.room.IsEmpty
  begun : ∀ m ∈ ms, m.Begins → m.after.store.room.IsEmpty

namespace Client

/-! ## One step -/

lemma room_opens {s t : Store} {goal : Goal} (opens : s.Opens goal t) : t.room = s.room := by
  obtain ⟨-, rfl⟩ := opens.inv
  rfl

lemma room_abort {s t : Store} {g : Nat} (h : s.abort? g = some t) : t.room = s.room := by
  obtain ⟨-, -, rfl⟩ := Store.abort_inv h
  rfl

lemma isEmpty_reset (s : Store) : s.reset.room.IsEmpty := by
  rw [Store.reset_eq]
  exact ⟨rfl, rfl, rfl⟩

/-- Nothing but a callback is heard. -/
lemma hearing_none {c d : Client} {h : Happening} {es : List Effect} (other : h ≠ .takeIn) :
    Moment.hearing? ⟨c, h, es, d⟩ = none := by
  rw [Moment.hearing?]
  split
  case h_1 takes _ _ => exact absurd takes other
  case h_2 => rfl

/-- What is heard at a moment, if anything, is what the intake takes in. -/
lemma room_hearing {c d : Client} {es : List Effect} {x : Inbound} {i : Intake}
    (underway : c.store.status = .connecting) (next : c.intake.next? = some (x, i)) :
    (c.store.hear (clockText c.wall) x).room =
      c.store.room.replay (Moment.hearing? ⟨c, .takeIn, es, d⟩).toList := by
  rw [Store.room_hear underway, Moment.hearing?]
  cases x <;> simp [underway, next, Room.replay]

/-- How a session comes to be connecting: an attempt begins, or one is under way already and what
is heard changes the room. -/
lemma room_connecting {c d : Client} {h : Happening} {es : List Effect}
    (step : c.step? h = some (d, es)) (underway : d.store.status = .connecting) :
    (Moment.Begins ⟨c, h, es, d⟩ ∧ d.store.room = c.store.room ∧
        d.store.generation = c.store.generation + 1) ∨
      (c.store.status = .connecting ∧ d.store.generation = c.store.generation ∧
        d.store.room = c.store.room.replay (Moment.hearing? ⟨c, h, es, d⟩).toList) := by
  have moves := moves_of_step step
  generalize after : d.store = s at moves
  rw [after] at underway
  cases moves with
  | stays _ other => exact .inr ⟨underway, rfl, by rw [hearing_none other]; rfl⟩
  | opens _ opens =>
    refine .inl ⟨⟨opens.inv.1, by rw [after]; exact underway⟩, room_opens opens, ?_⟩
    rw [opens.inv.2]
  | resets => simp [Store.reset_eq] at underway
  | finishes finished =>
    obtain ⟨-, -, -, e⟩ := Store.finish_inv finished
    simp [e] at underway
  | aborts _ _ aborted =>
    obtain ⟨-, -, e⟩ := Store.abort_inv aborted
    simp [e] at underway
  | @hears x _ _ next =>
    obtain ⟨generation, same | ⟨-, isLost⟩⟩ := c.store.hear_status (clockText c.wall) x
    · rw [same] at underway
      exact .inr ⟨underway, generation, room_hearing underway next⟩
    · simp [isLost] at underway

/-- How a session comes to be disconnected: it was before, it is reset, or an attempt fails. -/
lemma room_disconnected {c d : Client} {h : Happening} {es : List Effect}
    (step : c.step? h = some (d, es)) (idle : d.store.status = .disconnected) :
    (c.store.status = .disconnected ∧ d.store.room = c.store.room) ∨
      (d.store.room.IsEmpty ∧ d.store.generation = c.store.generation + 1) ∨
      (Moment.Fails ⟨c, h, es, d⟩ ∧ d.store.room = c.store.room) := by
  have moves := moves_of_step step
  generalize after : d.store = s at moves
  rw [after] at idle
  cases moves with
  | stays => exact .inl ⟨idle, rfl⟩
  | opens _ opens => simp [opens.inv.2] at idle
  | resets => exact .inr (.inl ⟨isEmpty_reset _, by rw [Store.reset_eq]⟩)
  | finishes finished =>
    obtain ⟨-, -, -, e⟩ := Store.finish_inv finished
    simp [e] at idle
  | aborts _ _ aborted =>
    obtain ⟨-, underway, e⟩ := Store.abort_inv aborted
    refine .inr (.inr ⟨⟨underway, ?_, ?_⟩, room_abort aborted⟩)
    · rw [after]
      exact idle
    · rw [after, e]
  | @hears x =>
    obtain ⟨-, same | ⟨-, isLost⟩⟩ := c.store.hear_status (clockText c.wall) x
    · rw [same] at idle
      exact .inl ⟨idle, by rw [Store.hear_idle idle]⟩
    · simp [isLost] at idle

/-! ## Whole attempts -/

lemma History.generation_le {c d : Client} {ms : List Moment} (history : History c ms d) :
    c.store.generation ≤ d.store.generation := by
  induction history with
  | nil => exact Nat.le_refl _
  | snoc _ step ih => exact Nat.le_trans ih (moves_of_step step).status.1

/-- While an attempt is under way, the room is what was heard since it began. -/
lemma Past.room_attempt {c : Client} {older between : List Moment} {first : Moment}
    (past : Past (older ++ first :: between) c) (begins : first.Begins)
    (underway : c.store.status = .connecting)
    (generation : c.store.generation = first.after.store.generation) :
    c.store.room = first.before.store.room.replay (hearings between) := by
  induction between using List.reverseRecOn generalizing c with
  | nil =>
    obtain ⟨-, step, rfl⟩ := past.last
    rcases room_connecting step underway with ⟨-, room, -⟩ | ⟨already, -⟩
    · exact room
    · simp [begins.1] at already
  | append_singleton between m ih =>
    rw [← List.cons_append, ← List.append_assoc] at past
    obtain ⟨before, step, rfl⟩ := past.last
    rcases room_connecting step underway with ⟨-, -, next⟩ | ⟨already, same, room⟩
    · -- Nothing else has begun since, or the generation would be another one.
      obtain ⟨-, -, since⟩ := before.moment
      have := since.generation_le
      omega
    · rw [room, ih before already (same ▸ generation), hearings_snoc, Room.replay_append]

/-- After a failed attempt the room is what was heard since it began. -/
lemma Past.room_failure {c : Client} {ms : List Moment} {first : Moment} {between : List Moment}
    {last : Moment} (past : Past ms c) (failed : FailedAttempt ms first between last) :
    last.after.store.room = first.before.store.room.replay (hearings between) := by
  obtain ⟨⟨older, newer, rfl⟩, begins, ⟨underway, idle, same⟩, generation⟩ := failed
  rw [← List.cons_append, ← List.append_assoc] at past
  obtain ⟨past, step, -⟩ := past.moment
  rw [← past.room_attempt begins underway generation]
  rcases room_disconnected step idle with ⟨already, -⟩ | ⟨-, next⟩ | ⟨-, room⟩
  · simp [underway] at already
  · omega
  · exact room

/-! ## Histories that spare the room -/

/-- Of every failed attempt in a history nothing is left. -/
def FailuresCancel (ms : List Moment) : Prop :=
  ∀ first between last, FailedAttempt ms first between last → Room.Cancel (hearings between)

lemma FailuresCancel.older {ms ns : List Moment} (cancel : FailuresCancel (ms ++ ns)) :
    FailuresCancel ms := by
  rintro first between last ⟨⟨older, newer, e⟩, rest⟩
  refine cancel first between last ⟨⟨older, newer ++ ns, ?_⟩, rest⟩
  simp [e]

/-- What holds of the room as long as nothing is left of failed attempts: it is empty while nobody
has a session, and was empty when the attempt began that is under way. -/
structure Spared (ms : List Moment) (c : Client) : Prop where
  idle : c.store.status = .disconnected → c.store.room.IsEmpty
  underway : c.store.status = .connecting → ∃ older first between,
    ms = older ++ first :: between ∧ first.Begins ∧ first.before.store.room.IsEmpty ∧
      c.store.generation = first.after.store.generation

lemma Past.spared {ms : List Moment} {c : Client} (past : Past ms c) :
    FailuresCancel ms → Spared ms c := by
  refine past.induct (motive := fun ms c => FailuresCancel ms → Spared ms c) ?start ?step
  case start =>
    intro settings pollConfig lobby now wall _
    exact ⟨fun _ => ⟨rfl, rfl, rfl⟩, nofun⟩
  case step =>
    intro ms c h es d past ih step cancel
    obtain ⟨emptied, began⟩ := ih cancel.older
    constructor
    · intro idle
      rcases room_disconnected step idle with ⟨already, room⟩ | ⟨bare, -⟩ | ⟨fails, room⟩
      · rw [room]
        exact emptied already
      · exact bare
      · -- The attempt began in an empty room, and nothing is left of what was heard since.
        obtain ⟨older, first, between, e, begins, bare, generation⟩ := began fails.1
        have failed : FailedAttempt (ms ++ [⟨c, h, es, d⟩]) first between ⟨c, h, es, d⟩ :=
          ⟨⟨older, [], by simp [e]⟩, begins, fails, generation⟩
        rw [(past.snoc step).room_failure failed]
        exact (Room.isEmpty_replay_iff bare).2 (cancel _ _ _ failed)
    · intro underway
      rcases room_connecting step underway with ⟨begins, -⟩ | ⟨already, same, -⟩
      · exact ⟨ms, _, [], rfl, begins, emptied begins.1, rfl⟩
      · obtain ⟨older, first, between, e, begins, bare, generation⟩ := began already
        refine ⟨older, first, between ++ [⟨c, h, es, d⟩], ?_, begins, bare, same.trans generation⟩
        simp [e]

/-- An attempt that begins leaves the room as it is. -/
lemma Past.room_begins {c : Client} {older newer : List Moment} {m : Moment}
    (past : Past (older ++ m :: newer) c) (begins : m.Begins) :
    m.after.store.room = m.before.store.room := by
  obtain ⟨-, step, -⟩ := past.moment
  rcases room_connecting step begins.2 with ⟨-, room, -⟩ | ⟨already, -⟩
  · exact room
  · simp [begins.1] at already

/-- A history spares the room exactly if, during each of its failed attempts, nothing was said and
everyone who joined left again. -/
theorem Past.sparesRoom_iff {ms : List Moment} {c : Client} (past : Past ms c) :
    SparesRoom ms ↔ FailuresCancel ms := by
  constructor
  · rintro ⟨same, -, bare⟩ first between last failed
    obtain ⟨⟨older, newer, rfl⟩, begins, -⟩ := id failed
    have start := bare first (by simp) begins
    rw [past.room_begins begins] at start
    rw [← Room.isEmpty_replay_iff start, ← past.room_failure failed, same _ _ _ failed]
    exact start
  · intro cancel
    refine ⟨?_, ?_, ?_⟩
    · intro first between last failed
      obtain ⟨⟨older, newer, rfl⟩, begins, -⟩ := id failed
      have bare := (past.moment.1.spared cancel.older).idle begins.1
      rw [past.room_failure failed]
      exact Room.replay_of_cancel bare (cancel _ _ _ failed)
    · intro m member idle
      obtain ⟨older, newer, rfl⟩ := List.append_of_mem member
      obtain ⟨before, step, -⟩ := past.moment
      rw [← List.singleton_append, ← List.append_assoc] at cancel
      exact ((before.snoc step).spared cancel.older).idle idle
    · intro m member begins
      obtain ⟨older, newer, rfl⟩ := List.append_of_mem member
      rw [past.room_begins begins]
      exact (past.moment.1.spared cancel.older).idle begins.1

/-! ## A stray player -/

/-- A player joins while the core makes up its mind, and then it refuses. -/
def strayJoin : List Happening :=
  [.connect .caller "10.0.0.1" 27015, .turn, .raised (.playerJoined ⟨7⟩ "X"), .takeIn,
    .opened (.ok false) fun _ => 0]

lemma past_strayJoin : ∃ ms c, Past ms c ∧ ms.map (·.happening) = strayJoin ∧
    c.store.status = .disconnected ∧ c.store.roster = ⟨[⟨⟨7⟩, "X", true⟩]⟩ ∧
    ¬ SparesRoom ms := by
  have lived : (start {} {} {} 0 0).live? strayJoin = some (_, _) := rfl
  refine ⟨_, _, .of_live lived, rfl, rfl, rfl, fun spares => ?_⟩
  have bare := spares.idle _ (List.mem_of_getLast? rfl) rfl
  exact absurd bare.players (List.cons_ne_nil _ _)

/-- A refused attempt can leave a player in the room of a disconnected session. -/
theorem stray_player_stays : ∃ ms c, Past ms c ∧ ms.map (·.happening) = strayJoin ∧
    c.store.status = .disconnected ∧ c.store.roster = ⟨[⟨⟨7⟩, "X", true⟩]⟩ ∧
    ¬ SparesRoom ms :=
  past_strayJoin

/-- What was heard during that attempt does not cancel. -/
theorem stray_player_heard : ∃ ms c, Past ms c ∧ ms.map (·.happening) = strayJoin ∧
    ¬ FailuresCancel ms := by
  obtain ⟨ms, c, past, lived, -, -, broken⟩ := past_strayJoin
  exact ⟨ms, c, past, lived, fun cancel => broken ((Past.sparesRoom_iff past).2 cancel)⟩

end Client

end OnlinePlay
