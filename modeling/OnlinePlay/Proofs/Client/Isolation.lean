import OnlinePlay.Proofs.Client.Failure
import OnlinePlay.Proofs.Client.Passage

/-!
# Sessions and messages of other sessions

Messages do not name the generation in which they set out, and the intake looks at the status
alone. A message that is late for its own session (`Stray`) can therefore change the next one: it
is dropped exactly if the store happens to ignore it (`Store.Ignores`). And what was heard during an
attempt that failed is still in the room when the next attempt begins, unless it cancels.

`Past.keepsApart_iff` says that these are the only two ways in which sessions mix. The first is
closed to a client that takes in everything before an attempt begins (`Past.keepsApart_of_quiet`).
-/

namespace OnlinePlay

/-- What a player sees of a session, and what decides how its attempt ends. -/
structure Scene where
  room : Room
  status : Status
  lost : Bool
  deriving DecidableEq

namespace Store

/-- The scene of a store. -/
def scene (s : Store) : Scene := ⟨s.room, s.status, s.lostWhileConnecting⟩

/-- A store has no use for a message. -/
def Ignores (s : Store) (clock : String) : Inbound → Prop
  | .line _ m => s.status = .connected → m ∈ s.chat.messages
  | .callback (.playerJoined id nickname) =>
    s.status = .disconnected ∨ s.roster.get? id = some (.joined id nickname)
  | .callback (.playerLeft id) => s.status = .disconnected ∨ s.roster.contains id = false
  | .callback (.messageReceived sender text) =>
    s.status = .disconnected ∨ ⟨sender, text, clock⟩ ∈ s.chat.messages
  | .callback .connectionLost =>
    s.status = .disconnected ∨ s.status = .lost ∨
      s.status = .connecting ∧ s.lostWhileConnecting = true
  | _ => True

/-- Within the same session, the scene is the same exactly if the room is. -/
lemma SameSession.scene_iff {s t : Store} (same : s.SameSession t) :
    t.scene = s.scene ↔ t.room = s.room := by
  obtain ⟨roster, playerCount, revision, chat, rfl⟩ := same
  simp [scene]

lemma scene_markLost_iff (s : Store) (clock : String) :
    s.markLost.2.scene = s.scene ↔ s.Ignores clock (.callback .connectionLost) := by
  rw [Ignores]
  rcases s.markLost_cases with ⟨isOpen, e⟩ | ⟨underway, e⟩ | ⟨away, e⟩
  · simp [e, scene, isOpen]
  · simp [e, scene, underway, room]
  · rcases away with away | away <;> simp [e, away]

/-- A message leaves the scene as it is exactly if the store has no use for it. -/
lemma scene_hear_iff (s : Store) (clock : String) {x : Inbound} (message : ∀ r, x ≠ .report r) :
    (s.hear clock x).scene = s.scene ↔ s.Ignores clock x := by
  cases x with
  | stop id => simp [hear, Ignores]
  | line id m =>
    simp only [hear, Ignores]
    by_cases isOpen : s.status = .connected
    · rw [if_pos isOpen, (s.sameSession_appendChat m).scene_iff, s.room_appendChat,
        Room.say_eq_iff]
      simp [isOpen, room]
    · simp [isOpen]
  | callback e =>
    cases e with
    | connectionLost => exact s.scene_markLost_iff clock
    | playerJoined id nickname =>
      simp only [hear, hearCallback, Ignores]
      by_cases idle : s.status = .disconnected
      · simp [idle]
      · rw [if_neg idle, (s.sameSession_upsert _).scene_iff, s.room_upsert, Room.enter_eq_iff]
        simp [idle, room, Player.joined]
    | playerLeft id =>
      simp only [hear, hearCallback, Ignores]
      by_cases idle : s.status = .disconnected
      · simp [idle]
      · rw [if_neg idle, (s.sameSession_remove id).scene_iff, s.room_remove, Room.lose_eq_iff]
        simp [idle, room]
    | messageReceived sender text =>
      simp only [hear, hearCallback, Ignores]
      by_cases idle : s.status = .disconnected
      · simp [idle]
      · rw [if_neg idle, (s.sameSession_appendChat _).scene_iff, s.room_appendChat,
          Room.say_eq_iff]
        simp [idle, room]
    | connected | connectionFailed | disconnected | hostGameStarted =>
      simp [hear, hearCallback, Ignores]
  | report r => exact absurd rfl (message r)

/-- A store without a session has no use for any message. -/
lemma ignores_idle {s : Store} (idle : s.status = .disconnected) (clock : String)
    (x : Inbound) : s.Ignores clock x := by
  cases x with
  | line id m => simp [Ignores, idle]
  | callback e => cases e <;> simp [Ignores, idle]
  | stop | report => trivial

end Store

/-- A message is taken in at a moment that set out in another generation. -/
def Stray (older : List Moment) (m : Moment) (x : Inbound) : Prop :=
  m.happening = .takeIn ∧ (∃ i, m.before.intake.next? = some (x, i)) ∧
    ∃ g, origin older x = some g ∧ g ≠ m.before.store.generation

/-- The callbacks that were taken in during attempts since the session was last reset. -/
def heard (ms : List Moment) : List Hearing :=
  ms.foldl
    (fun heard m => if m.before.resets m.happening then [] else heard ++ m.hearing?.toList) []

/-- No message changes a session of another generation: neither does one that comes too late, nor
does an attempt begin with what was heard before it. -/
structure KeepsApart (ms : List Moment) : Prop where
  dropped : ∀ older m newer x, ms = older ++ m :: newer → Stray older m x →
    m.after.store.scene = m.before.store.scene
  fresh : ∀ m ∈ ms, m.Begins → m.after.store.room.IsEmpty

lemma heard_snoc (ms : List Moment) (m : Moment) :
    heard (ms ++ [m]) =
      if m.before.resets m.happening then [] else heard ms ++ m.hearing?.toList := by
  simp [heard]

namespace Client

/-! ## What the room is made of -/

/-- Outside an open session the room is what was heard since the last reset. -/
lemma Past.room_heard {ms : List Moment} {c : Client} (past : Past ms c) :
    c.store.status = .disconnected ∨ c.store.status = .connecting →
      ∃ r : Room, r.IsEmpty ∧ c.store.room = r.replay (heard ms) := by
  refine past.induct (motive := fun ms c =>
    c.store.status = .disconnected ∨ c.store.status = .connecting →
      ∃ r : Room, r.IsEmpty ∧ c.store.room = r.replay (heard ms)) ?start ?step
  case start =>
    intro settings pollConfig lobby now wall _
    exact ⟨_, ⟨rfl, rfl, rfl⟩, rfl⟩
  case step =>
    intro ms c h es d _ ih step away
    have moves := moves_of_step step
    generalize after : d.store = s at moves away
    rw [heard_snoc]
    cases moves with
    | stays fresh other =>
      obtain ⟨r, bare, room⟩ := ih away
      exact ⟨r, bare, by simp [fresh, hearing_none other, room]⟩
    | opens opening opens =>
      obtain ⟨fresh, other⟩ := c.resets_opening opening
      obtain ⟨r, bare, room⟩ := ih (.inl opens.inv.1)
      exact ⟨r, bare, by simp [fresh, hearing_none other, room_opens opens, room]⟩
    | resets resets => exact ⟨_, isEmpty_reset c.store, by simp [resets]⟩
    | finishes finished =>
      obtain ⟨-, -, -, e⟩ := Store.finish_inv finished
      simp [e] at away
    | aborts fresh other aborted =>
      obtain ⟨-, underway, -⟩ := Store.abort_inv aborted
      obtain ⟨r, bare, room⟩ := ih (.inr underway)
      exact ⟨r, bare, by simp [fresh, hearing_none other, room_abort aborted, room]⟩
    | @hears x i _ next =>
      obtain ⟨-, same | ⟨-, isLost⟩⟩ := c.store.hear_status (clockText c.wall) x
      · rw [same] at away
        obtain ⟨r, bare, room⟩ := ih away
        refine ⟨r, bare, ?_⟩
        -- A disconnected session hears nothing, a connecting one enters it in the room.
        rcases away with idle | underway
        · rw [Store.hear_idle idle, room]
          simp [resets, Moment.hearing?, idle]
        · have now := @room_hearing c d es x i underway next
          rw [now, room, ← Room.replay_append]
          simp [resets]
      · simp [isLost] at away

/-! ## How sessions mix -/

/-- What a stray message does is what the store makes of it. -/
lemma Stray.after {c : Client} {older newer : List Moment} {m : Moment} {x : Inbound}
    (past : Past (older ++ m :: newer) c) (stray : Stray older m x) :
    m.after.store = m.before.store.hear (clockText m.before.wall) x ∧
      ∀ r, x ≠ .report r := by
  obtain ⟨-, step, -⟩ := past.moment
  obtain ⟨takes, ⟨i, next⟩, g, set_out, -⟩ := stray
  rw [takes] at step
  obtain ⟨y, j, -, next', received⟩ := takeIn_inv step
  obtain ⟨rfl, rfl⟩ : y = x ∧ j = i := by simpa [next] using next'.symm
  refine ⟨(receive_inv received).1, fun r report => ?_⟩
  rw [report] at set_out
  cases set_out

/-- A stray message is dropped exactly if the store has no use for it. -/
lemma Past.stray_iff {c : Client} {older newer : List Moment} {m : Moment} {x : Inbound}
    (past : Past (older ++ m :: newer) c) (stray : Stray older m x) :
    m.after.store.scene = m.before.store.scene ↔
      m.before.store.Ignores (clockText m.before.wall) x := by
  obtain ⟨after, message⟩ := Stray.after past stray
  rw [after]
  exact m.before.store.scene_hear_iff _ message

/-- An attempt begins with an empty room exactly if everything that was heard before it cancels. -/
lemma Past.begins_iff {c : Client} {older newer : List Moment} {m : Moment}
    (past : Past (older ++ m :: newer) c) (begins : m.Begins) :
    m.after.store.room.IsEmpty ↔ Room.Cancel (heard older) := by
  obtain ⟨r, bare, room⟩ := past.moment.1.room_heard (.inl begins.1)
  rw [past.room_begins begins, room]
  exact Room.isEmpty_replay_iff bare

/-- Sessions are kept apart exactly if the store has no use for any message that comes too late, and
everything that was heard when an attempt begins cancels. -/
theorem Past.keepsApart_iff {ms : List Moment} {c : Client} (past : Past ms c) :
    KeepsApart ms ↔
      (∀ older m newer x, ms = older ++ m :: newer → Stray older m x →
        m.before.store.Ignores (clockText m.before.wall) x) ∧
      ∀ older m newer, ms = older ++ m :: newer → m.Begins → Room.Cancel (heard older) := by
  constructor
  · rintro ⟨dropped, fresh⟩
    constructor
    · rintro older m newer x rfl stray
      exact (past.stray_iff stray).1 (dropped older m newer x rfl stray)
    · rintro older m newer rfl begins
      exact (past.begins_iff begins).1 (fresh m (by simp) begins)
  · rintro ⟨ignored, cancel⟩
    constructor
    · rintro older m newer x rfl stray
      exact (past.stray_iff stray).2 (ignored older m newer x rfl stray)
    · intro m member begins
      obtain ⟨older, newer, rfl⟩ := List.append_of_mem member
      exact (past.begins_iff begins).2 (cancel older m newer rfl begins)

/-! ### A player of another session -/

/-- The player who joined during a refused attempt is there when the next attempt begins. -/
def strayJoinAgain : List Happening := strayJoin ++ [.connect .caller "10.0.0.1" 27015]

/-- A player joins just before the session is closed, and is taken in during the next attempt. -/
def lateJoin : List Happening :=
  [.connect .caller "10.0.0.1" 27015, .turn, .opened (.ok true) fun _ => 0,
    .raised (.playerJoined ⟨7⟩ "X"), .disconnect, .connect .caller "10.0.0.2" 27015, .takeIn]

lemma past_strayJoinAgain : ∃ ms c, Past ms c ∧ ms.map (·.happening) = strayJoinAgain ∧
    c.store.generation = 2 ∧ c.store.roster = ⟨[⟨⟨7⟩, "X", true⟩]⟩ ∧ ¬ KeepsApart ms := by
  have lived : (start {} {} {} 0 0).live? strayJoinAgain = some (_, _) := rfl
  refine ⟨_, _, .of_live lived, rfl, rfl, rfl, fun apart => ?_⟩
  have bare := apart.fresh _ (List.mem_of_getLast? rfl) ⟨rfl, rfl⟩
  exact absurd bare.players (List.cons_ne_nil _ _)

lemma past_lateJoin : ∃ ms c, Past ms c ∧ ms.map (·.happening) = lateJoin ∧
    c.store.generation = 3 ∧ c.store.roster = ⟨[⟨⟨7⟩, "X", true⟩]⟩ ∧ ¬ KeepsApart ms := by
  have lived : (start {} {} {} 0 0).live? lateJoin = some (_, _) := rfl
  refine ⟨_, _, .of_live lived, rfl, rfl, rfl, fun apart => ?_⟩
  have same := apart.dropped [_, _, _, _, _, _] _ [] (.callback (.playerJoined ⟨7⟩ "X")) rfl
    ⟨rfl, ⟨_, rfl⟩, 1, rfl, by decide⟩
  have nobody := congrArg (·.room.roster.players) same
  exact absurd nobody (List.cons_ne_nil _ _)

/-- A player who joined in an older generation can be in the room of the next session. -/
theorem player_of_another_session :
    (∃ ms c, Past ms c ∧ ms.map (·.happening) = strayJoinAgain ∧
      c.store.generation = 2 ∧ c.store.roster = ⟨[⟨⟨7⟩, "X", true⟩]⟩ ∧ ¬ KeepsApart ms) ∧
    ∃ ms c, Past ms c ∧ ms.map (·.happening) = lateJoin ∧
      c.store.generation = 3 ∧ c.store.roster = ⟨[⟨⟨7⟩, "X", true⟩]⟩ ∧ ¬ KeepsApart ms :=
  ⟨past_strayJoinAgain, past_lateJoin⟩

/-- That player either came too late or did not leave in time. -/
theorem player_came_late : ∃ ms c, Past ms c ∧ ms.map (·.happening) = lateJoin ∧
    ¬ ((∀ older m newer x, ms = older ++ m :: newer → Stray older m x →
        m.before.store.Ignores (clockText m.before.wall) x) ∧
      ∀ older m newer, ms = older ++ m :: newer → m.Begins → Room.Cancel (heard older)) := by
  obtain ⟨ms, c, past, lived, -, -, mixed⟩ := past_lateJoin
  exact ⟨ms, c, past, lived, fun kept => mixed ((Past.keepsApart_iff past).2 kept)⟩

/-! ## Clients that have taken everything in -/

/-- No message is on its way. -/
def Quiet (c : Client) : Prop := c.intake.callbacks = [] ∧ ∀ id, ¬ c.Says id

/-- Every message that is on its way set out in the generation of the session. -/
structure Timely (ms : List Moment) (c : Client) : Prop where
  callbacks : ∀ p ∈ stamps ms, p.2 = c.store.generation
  lines : ∀ id, c.Says id → sentIn ms id = some c.store.generation

/-- How a client comes to have a session: an attempt begins, or there was one already and it is the
same. -/
lemma away_of_step {c d : Client} {h : Happening} {es : List Effect}
    (step : c.step? h = some (d, es)) (away : d.store.status ≠ .disconnected) :
    (Moment.Begins ⟨c, h, es, d⟩ ∧ h.isOpening) ∨
      (c.store.status ≠ .disconnected ∧ d.store.generation = c.store.generation) := by
  have moves := moves_of_step step
  generalize after : d.store = s at moves
  rw [after] at away
  cases moves with
  | stays => exact .inr ⟨away, rfl⟩
  | opens opening opens =>
    obtain ⟨idle, e⟩ := opens.inv
    exact .inl ⟨⟨idle, by simp [after, e]⟩, opening⟩
  | resets => simp [Store.reset_eq] at away
  | finishes finished =>
    obtain ⟨-, underway, -, e⟩ := Store.finish_inv finished
    exact .inr ⟨by simp [underway], by rw [e]⟩
  | aborts _ _ aborted =>
    obtain ⟨-, -, e⟩ := Store.abort_inv aborted
    simp [e] at away
  | @hears x =>
    obtain ⟨generation, same | ⟨isOpen, -⟩⟩ := c.store.hear_status (clockText c.wall) x
    · exact .inr ⟨same ▸ away, generation⟩
    · exact .inr ⟨by simp [isOpen], generation⟩

lemma Past.timely {ms : List Moment} {c : Client} (past : Past ms c) :
    (∀ m ∈ ms, m.Begins → m.before.Quiet) → c.store.status ≠ .disconnected → Timely ms c := by
  refine past.induct (motive := fun ms c => (∀ m ∈ ms, m.Begins → m.before.Quiet) →
    c.store.status ≠ .disconnected → Timely ms c) ?start ?step
  case start =>
    intro settings pollConfig lobby now wall _ away
    exact absurd rfl away
  case step =>
    intro ms c h es d past ih step quiet away
    have earlier : ∀ m ∈ ms, m.Begins → m.before.Quiet := fun m member =>
      quiet m (List.mem_append_left _ member)
    have passes := passes_of_step step
    rcases away_of_step step away with ⟨begins, opening⟩ | ⟨already, generation⟩
    · -- The generation is new, but nothing is on its way that could be older.
      obtain ⟨none_waits, nobody⟩ := quiet ⟨c, h, es, d⟩ (by simp) begins
      have none_stamped := past.stamped.callbacks
      rw [none_waits, List.map_eq_nil_iff] at none_stamped
      constructor
      · intro p member
        rw [stamps_snoc, none_stamped, stamp_opening opening] at member
        cases member
      · intro id spoken
        rcases passes.lines spoken with before | ⟨text, rfl, -⟩
        · exact absurd before (nobody id)
        · cases opening
    · -- The generation stays, and what sets out now sets out in it.
      obtain ⟨callbacks, lines⟩ := ih earlier already
      rw [← generation] at callbacks lines
      constructor
      · intro p member
        rw [stamps_snoc] at member
        rcases mem_stamp member with member | now
        · exact callbacks p member
        · exact now.trans generation.symm
      · intro id spoken
        rw [sentIn_snoc, generation]
        split
        case isTrue => rfl
        case isFalse unsent =>
          rcases passes.lines spoken with before | ⟨text, rfl, number⟩
          · rw [lines id before, generation]
          · simp [Moment.sends, number] at unsent

/-- If no message is on its way when an attempt begins, every stray message is ignored. -/
lemma Past.ignores_of_quiet {c : Client} {older newer : List Moment} {m : Moment} {x : Inbound}
    (past : Past (older ++ m :: newer) c)
    (quiet : ∀ n ∈ older, n.Begins → n.before.Quiet) (stray : Stray older m x) :
    m.before.store.Ignores (clockText m.before.wall) x := by
  by_cases idle : m.before.store.status = .disconnected
  · exact Store.ignores_idle idle _ _
  -- While there is a session, nothing that waits is stray.
  exfalso
  obtain ⟨before, -, -⟩ := past.moment
  obtain ⟨callbacks, lines⟩ := before.timely quiet idle
  obtain ⟨-, ⟨i, next⟩, g, set_out, other⟩ := stray
  cases x with
  | stop | report => cases set_out
  | line id message =>
    have spoken : m.before.Says id := .inl ⟨message, by rw [(next_inv next).1]; exact .head _⟩
    have same := (lines id spoken).symm.trans set_out
    exact other (Option.some.inj same).symm
  | callback e =>
    obtain ⟨p, first, rfl⟩ := Option.map_eq_some_iff.1 set_out
    exact other (callbacks p (List.mem_of_mem_head? first))

/-- Sessions are kept apart by a client in which, whenever an attempt begins, no message is on its
way and what was heard cancels. -/
theorem Past.keepsApart_of_quiet {ms : List Moment} {c : Client} (past : Past ms c)
    (quiet : ∀ m ∈ ms, m.Begins → m.before.Quiet)
    (cancel : ∀ older m newer, ms = older ++ m :: newer → m.Begins → Room.Cancel (heard older)) :
    KeepsApart ms := by
  constructor
  · rintro older m newer x rfl stray
    rw [past.stray_iff stray]
    exact past.ignores_of_quiet (fun n member => quiet n (List.mem_append_left _ member)) stray
  · intro m member begins
    obtain ⟨older, newer, rfl⟩ := List.append_of_mem member
    exact (past.begins_iff begins).2 (cancel older m newer rfl begins)

end Client

end OnlinePlay
