import OnlinePlay.Proofs.Client.Failure
import OnlinePlay.Proofs.Client.News
import OnlinePlay.Proofs.Store.Operation

/-!
# News of the roster

The events that carry a snapshot of the roster, taken by themselves. A step tells of the roster
exactly if it makes another one of it, under a later revision (`Store.TellsRoster`), with a single
exception: a session that is reset while it is disconnected says nothing, although the reset clears
the roster. So the revisions that are told increase, and an observer who keeps the newest snapshot
holds the roster itself, as long as no disconnected session is reset with players in it.

A run does nothing to its store but the operations of `Store.Operation`, so that what holds of every
sequence of them holds of its store.
-/

namespace OnlinePlay

/-- The snapshot that an event carries, if it carries one. -/
def SessionEvent.roster? : SessionEvent → Option RosterSnapshot
  | .rosterUpdated r => some r
  | _ => none

/-- The snapshots that are published at a moment. -/
def Moment.rosters (m : Moment) : List RosterSnapshot := m.news.filterMap SessionEvent.roster?

/-- The snapshots that were published, in this order. -/
def rosterNews (ms : List Moment) : List RosterSnapshot := ms.flatMap (·.rosters)

lemma rosterNews_snoc (ms : List Moment) (m : Moment) :
    rosterNews (ms ++ [m]) = rosterNews ms ++ m.rosters := by
  simp [rosterNews]

/-- The players and the count of the newest snapshot that was published. -/
def heldRoster (ms : List Moment) : List Player × Nat :=
  (rosterNews ms).getLast?.elim ([], 0) fun r => (r.players, r.playerCount)

/-- After every moment an observer who keeps the newest snapshot holds the players and the count of
the store. -/
def FollowsRoster (ms : List Moment) : Prop :=
  ∀ older m newer, ms = older ++ m :: newer →
    heldRoster (older ++ [m]) = (m.after.store.roster.players, m.after.store.playerCount)

namespace Store

/-- What is told of the roster between two stores: nothing if it has stayed, and the new one if it
has a later revision. -/
inductive TellsRoster (s : Store) : List RosterSnapshot → Store → Prop where
  | same {t : Store} : t.snapshot = s.snapshot → TellsRoster s [] t
  | next {t : Store} : s.revision < t.revision → TellsRoster s [t.snapshot] t

lemma TellsRoster.inv {s t : Store} {rs : List RosterSnapshot} (told : s.TellsRoster rs t) :
    (rs = [] ∧ t.snapshot = s.snapshot) ∨ (rs = [t.snapshot] ∧ s.revision < t.revision) := by
  cases told with
  | same same => exact .inl ⟨rfl, same⟩
  | next later => exact .inr ⟨rfl, later⟩

lemma revision_revise (s : Store) (roster : Roster) (playerCount : Nat) :
    s.revision < (s.revise roster playerCount).revision := Nat.lt_succ_self _

lemma Hears.roster {s t : Store} {ns : List SessionEvent} (hears : s.Hears ns t) :
    s.TellsRoster (ns.filterMap SessionEvent.roster?) t := by
  cases hears with
  | ignores | failed | ended | notes | loses => exact .same rfl
  | enters _ entered =>
    obtain ⟨-, rfl⟩ := upsert_inv entered
    exact .next (s.revision_revise _ _)
  | leaves _ removed =>
    obtain ⟨-, rfl⟩ := remove_inv removed
    exact .next (s.revision_revise _ _)
  | refreshes _ refreshed =>
    obtain ⟨-, rfl⟩ := refresh_inv refreshed
    exact .next (s.revision_revise _ _)
  | speaks _ appended =>
    obtain ⟨-, rfl⟩ := appendChat_inv appended
    exact .same rfl

/-! ## Operations -/

lemma Opens.operations {s t : Store} {goal : Goal} (opens : s.Opens goal t) :
    ∃ ops, t = s.performAll ops := by
  cases opens with
  | join begun => exact ⟨[.begin], by simp [perform, begun]⟩
  | @host _ draws _ _ _ _ begun issued =>
    exact ⟨[.begin, .issueCode draws], by simp [perform, begun, issued]⟩

lemma hearCallback_operations (s : Store) (clock : String) (e : NativeEvent) :
    ∃ ops, s.hearCallback clock e = s.performAll ops := by
  -- A disconnected session does nothing of what the callback stands for.
  have engaged (op : Operation) :
      ∃ ops, (if s.status = .disconnected then s else s.perform op) = s.performAll ops := by
    split
    · exact ⟨[], rfl⟩
    · exact ⟨[op], rfl⟩
  cases e with
  | connected | connectionFailed | disconnected | hostGameStarted => exact ⟨[], rfl⟩
  | connectionLost => exact ⟨[.markLost], rfl⟩
  | playerJoined id nickname => exact engaged (.upsert (.joined id nickname))
  | playerLeft id => exact engaged (.remove id)
  | messageReceived sender text => exact engaged (.appendChat ⟨sender, text, clock⟩)

lemma hear_operations (s : Store) (clock : String) (x : Inbound) :
    ∃ ops, s.hear clock x = s.performAll ops := by
  cases x with
  | stop id => exact ⟨[], rfl⟩
  | line id m =>
    simp only [hear]
    split
    · exact ⟨[.appendChat m], rfl⟩
    · exact ⟨[], rfl⟩
  | callback e => exact s.hearCallback_operations clock e
  | report r =>
    simp only [hear]
    split
    · exact ⟨[.refresh r.playerCount r.players], rfl⟩
    · exact ⟨[], rfl⟩

end Store

namespace Client

open Store

/-! ## One step -/

lemma Tells.operations {c : Client} {h : Happening} {ns : List SessionEvent} {s : Store}
    (tells : c.Tells h ns s) : ∃ ops, s = c.store.performAll ops := by
  cases tells with
  | stays => exact ⟨[], rfl⟩
  | opens _ opens => exact opens.operations
  | resets => exact ⟨[.reset], rfl⟩
  | @finishes g role _ _ finished => exact ⟨[.finish g role], by simp [perform, finished]⟩
  | @aborts _ g _ _ _ _ aborted => exact ⟨[.abort g], by simp [perform, aborted]⟩
  | hears => exact c.store.hear_operations _ _

/-- Closing that finds no session clears the room without a word. -/
def resetsUnsaid (c : Client) (h : Happening) : Prop :=
  c.resets h ∧ c.store.status = .disconnected

lemma Tells.unsaid {c : Client} {h : Happening} {ns : List SessionEvent} {s : Store}
    (tells : c.Tells h ns s) (unsaid : c.resetsUnsaid h) : ns = [] ∧ s = c.store.reset := by
  obtain ⟨closes, idle⟩ := unsaid
  cases tells with
  | stays fresh | aborts fresh => simp [fresh] at closes
  | opens opening => simp [(c.resets_opening opening).1] at closes
  | resets _ news =>
    rw [if_pos idle] at news
    exact ⟨news, rfl⟩
  | finishes | hears => cases closes

/-- Everything else tells of the roster exactly if it makes another one of it. -/
lemma Tells.roster {c : Client} {h : Happening} {ns : List SessionEvent} {s : Store}
    (tells : c.Tells h ns s) (said : ¬ c.resetsUnsaid h) :
    c.store.TellsRoster (ns.filterMap SessionEvent.roster?) s := by
  cases tells with
  | stays _ _ news => rcases news with rfl | rfl <;> exact .same rfl
  | opens _ opens =>
    obtain ⟨-, e⟩ := opens.inv
    apply TellsRoster.same
    rw [e]
    rfl
  | resets closes news =>
    have engaged : c.store.status ≠ .disconnected := fun idle => said ⟨closes, idle⟩
    rw [if_neg engaged] at news
    subst news
    apply TellsRoster.next
    rw [reset_eq]
    exact Nat.lt_succ_self _
  | finishes finished =>
    obtain ⟨-, -, -, e⟩ := finish_inv finished
    apply TellsRoster.same
    rw [e]
    rfl
  | aborts _ _ aborted =>
    obtain ⟨-, -, e⟩ := abort_inv aborted
    apply TellsRoster.same
    rw [e]
    rfl
  | hears => exact (c.store.hears_tell _ _).roster

lemma rosters_said {c d : Client} {h : Happening} {es : List Effect}
    (step : c.step? h = some (d, es)) (said : ¬ c.resetsUnsaid h) :
    c.store.TellsRoster (Moment.rosters ⟨c, h, es, d⟩) d.store :=
  (tells_of_step step).roster said

lemma rosters_unsaid {c d : Client} {h : Happening} {es : List Effect}
    (step : c.step? h = some (d, es)) (unsaid : c.resetsUnsaid h) :
    Moment.rosters ⟨c, h, es, d⟩ = [] ∧ d.store = c.store.reset := by
  obtain ⟨silent, store⟩ := (tells_of_step step).unsaid unsaid
  refine ⟨?_, store⟩
  rw [Moment.rosters, Moment.news, silent]
  rfl

/-! ## Revisions -/

lemma Past.operations {ms : List Moment} {c : Client} (past : Past ms c) :
    ∃ ops, c.store = Store.initial.performAll ops := by
  refine past.induct (motive := fun _ c => ∃ ops, c.store = Store.initial.performAll ops)
    ?start ?step
  case start =>
    intro settings pollConfig lobby now wall
    exact ⟨[], rfl⟩
  case step =>
    intro ms c h es d _ done step
    obtain ⟨ops, before⟩ := done
    obtain ⟨more, after⟩ := (tells_of_step step).operations
    refine ⟨ops ++ more, ?_⟩
    rw [performAll_append, ← before]
    exact after

/-- What is told at a moment is the snapshot that the store then has, under a revision that it did
not have before. -/
lemma rosters_of_step {c d : Client} {h : Happening} {es : List Effect}
    (step : c.step? h = some (d, es)) :
    c.store.revision ≤ d.store.revision ∧
      (Moment.rosters ⟨c, h, es, d⟩ = [] ∨
        Moment.rosters ⟨c, h, es, d⟩ = [d.store.snapshot] ∧
          c.store.revision < d.store.revision) := by
  by_cases unsaid : c.resetsUnsaid h
  · obtain ⟨silent, store⟩ := rosters_unsaid step unsaid
    rw [store, reset_eq]
    exact ⟨Nat.le_succ _, .inl silent⟩
  · rcases (rosters_said step unsaid).inv with ⟨silent, same⟩ | ⟨told, later⟩
    · have revision := congrArg RosterSnapshot.revision same
      exact ⟨Nat.le_of_eq revision.symm, .inl silent⟩
    · exact ⟨Nat.le_of_lt later, .inr ⟨told, later⟩⟩

/-- Revisions that were told increase, up to that of the store. -/
structure Dated (rs : List RosterSnapshot) (s : Store) : Prop where
  increasing : rs.Pairwise (·.revision < ·.revision)
  bounded : ∀ r ∈ rs, r.revision ≤ s.revision

lemma Dated.later {rs : List RosterSnapshot} {s t : Store} (dated : Dated rs s)
    (le : s.revision ≤ t.revision) : Dated rs t :=
  ⟨dated.increasing, fun r member => Nat.le_trans (dated.bounded r member) le⟩

lemma Dated.snoc {rs : List RosterSnapshot} {s t : Store} (dated : Dated rs s)
    (lt : s.revision < t.revision) : Dated (rs ++ [t.snapshot]) t := by
  obtain ⟨increasing, bounded⟩ := dated
  have later (r : RosterSnapshot) (member : r ∈ rs) : r.revision < t.revision :=
    Nat.lt_of_le_of_lt (bounded r member) lt
  constructor
  · rw [List.pairwise_append]
    refine ⟨increasing, List.pairwise_singleton _ _, fun r member last isLast => ?_⟩
    rw [List.mem_singleton.1 isLast]
    exact later r member
  · intro r member
    rcases List.mem_append.1 member with member | isLast
    · exact Nat.le_of_lt (later r member)
    · exact Nat.le_of_eq (congrArg RosterSnapshot.revision (List.mem_singleton.1 isLast))

lemma Past.dated {ms : List Moment} {c : Client} (past : Past ms c) :
    Dated (rosterNews ms) c.store := by
  refine past.induct (motive := fun ms c => Dated (rosterNews ms) c.store) ?start ?step
  case start =>
    intro settings pollConfig lobby now wall
    exact ⟨.nil, nofun⟩
  case step =>
    intro ms c h es d _ dated step
    rw [rosterNews_snoc]
    obtain ⟨le, silent | ⟨told, later⟩⟩ := rosters_of_step step
    · rw [silent, List.append_nil]
      exact dated.later le
    · rw [told]
      exact dated.snoc later

/-- A revision belongs to one roster, whatever is done to a store, and a client does nothing else
to its own. The snapshots that it publishes have increasing revisions, and each is the one that the
store has when it is published. -/
theorem Past.revisions_identify {ms : List Moment} {c : Client} (past : Past ms c) :
    (∀ (s : Store) (ops : List Store.Operation),
      s.revision ≤ (s.performAll ops).revision ∧
        (s.revision = (s.performAll ops).revision → s.snapshot = (s.performAll ops).snapshot)) ∧
    (∃ ops, c.store = Store.initial.performAll ops) ∧
    (rosterNews ms).Pairwise (·.revision < ·.revision) ∧
    ∀ m ∈ ms, ∀ r ∈ m.rosters, r = m.after.store.snapshot := by
  refine ⟨fun s ops => ?_, past.operations, past.dated.increasing, fun m member r published => ?_⟩
  · have dates := s.dates_performAll ops
    exact ⟨dates.le, dates.same⟩
  · obtain ⟨older, newer, rfl⟩ := List.append_of_mem member
    obtain ⟨-, step, -⟩ := past.moment
    have moment : m = ⟨m.before, m.happening, m.effects, m.after⟩ := rfl
    rw [moment] at published
    rcases (rosters_of_step step).2 with silent | ⟨told, -⟩
    · rw [silent] at published
      cases published
    · rw [told] at published
      exact List.mem_singleton.1 published

/-- A player comes and goes, another comes, and the session is closed. -/
theorem revisions_of_visits :
    ∃ ms c, Past ms c ∧
      rosterNews ms =
        [⟨1, 1, [⟨⟨7⟩, "X", true⟩]⟩, ⟨2, 0, []⟩, ⟨3, 1, [⟨⟨8⟩, "Y", true⟩]⟩, ⟨4, 0, []⟩] ∧
      (rosterNews ms).Pairwise (·.revision < ·.revision) := by
  have lived : (start {} {} {} 0 0).live?
      [.connect .caller "10.0.0.1" 27015, .turn, .opened (.ok true) fun _ => 0,
        .raised (.playerJoined ⟨7⟩ "X"), .takeIn, .raised (.playerLeft ⟨7⟩), .takeIn,
        .raised (.playerJoined ⟨8⟩ "Y"), .takeIn, .disconnect] = some (_, _) := rfl
  have past := Past.of_live lived
  exact ⟨_, _, past, rfl, (Past.revisions_identify past).2.2.1⟩

/-! ## The newest snapshot -/

lemma heldRoster_silent {ms : List Moment} {m : Moment} (silent : m.rosters = []) :
    heldRoster (ms ++ [m]) = heldRoster ms := by
  rw [heldRoster, rosterNews_snoc, silent, List.append_nil]
  rfl

lemma heldRoster_told {ms : List Moment} {m : Moment} {r : RosterSnapshot}
    (told : m.rosters = [r]) : heldRoster (ms ++ [m]) = (r.players, r.playerCount) := by
  rw [heldRoster, rosterNews_snoc, told, List.getLast?_concat]
  rfl

lemma followsRoster_snoc {ms : List Moment} {m : Moment} :
    FollowsRoster (ms ++ [m]) ↔
      FollowsRoster ms ∧
        heldRoster (ms ++ [m]) = (m.after.store.roster.players, m.after.store.playerCount) := by
  constructor
  · intro follows
    refine ⟨fun older m' newer e => ?_, follows ms m [] rfl⟩
    exact follows older m' (newer ++ [m]) (by simp [e])
  · rintro ⟨follows, last⟩ older m' newer e
    induction newer using List.reverseRecOn with
    | nil =>
      obtain ⟨rfl, same⟩ := List.append_inj' e rfl
      obtain rfl := List.singleton_inj.1 same
      exact last
    | append_singleton newer last' =>
      rw [← List.cons_append, ← List.append_assoc] at e
      obtain ⟨rfl, -⟩ := List.append_inj' e rfl
      exact follows older m' newer rfl

lemma Past.held {ms : List Moment} {c : Client} (past : Past ms c) (follows : FollowsRoster ms) :
    heldRoster ms = (c.store.roster.players, c.store.playerCount) := by
  induction ms using List.reverseRecOn with
  | nil =>
    obtain ⟨settings, pollConfig, lobby, now, wall, history⟩ := past
    obtain rfl := history.of_nil
    rfl
  | append_singleton ms m =>
    obtain ⟨-, -, rfl⟩ := past.last
    exact (followsRoster_snoc.1 follows).2

/-- An observer who has held the roster so far goes on to do so, unless players are cleared without
a word. -/
lemma held_step {ms : List Moment} {c d : Client} {h : Happening} {es : List Effect}
    (held : heldRoster ms = (c.store.roster.players, c.store.playerCount))
    (step : c.step? h = some (d, es)) :
    heldRoster (ms ++ [⟨c, h, es, d⟩]) = (d.store.roster.players, d.store.playerCount) ↔
      (c.resetsUnsaid h → c.store.roster.players = [] ∧ c.store.playerCount = 0) := by
  by_cases unsaid : c.resetsUnsaid h
  · -- The observer still holds the roster that the reset has cleared.
    obtain ⟨silent, store⟩ := rosters_unsaid step unsaid
    have cleared : d.store.roster.players = [] ∧ d.store.playerCount = 0 := by
      rw [store, reset_eq]
      exact ⟨rfl, rfl⟩
    rw [heldRoster_silent silent, held, cleared.1, cleared.2, Prod.mk.injEq]
    simp [unsaid]
  · simp only [unsaid, false_implies, iff_true]
    rcases (rosters_said step unsaid).inv with ⟨silent, same⟩ | ⟨told, -⟩
    · have players := congrArg RosterSnapshot.players same
      have count := congrArg RosterSnapshot.playerCount same
      rw [heldRoster_silent silent, held]
      exact Prod.ext players.symm count.symm
    · exact heldRoster_told told

/-- An observer who keeps the newest snapshot holds the roster of the store, in every state, exactly
if no disconnected session is reset with anyone in it; and none is if nothing is left of any failed
attempt. -/
theorem Past.followsRoster_iff {ms : List Moment} {c : Client} (past : Past ms c) :
    (FollowsRoster ms ↔
      ∀ m ∈ ms, m.before.resets m.happening → m.before.store.status = .disconnected →
        m.before.store.roster.players = [] ∧ m.before.store.playerCount = 0) ∧
    (FailuresCancel ms → FollowsRoster ms) := by
  have exactly : FollowsRoster ms ↔
      ∀ m ∈ ms, m.before.resets m.happening → m.before.store.status = .disconnected →
        m.before.store.roster.players = [] ∧ m.before.store.playerCount = 0 := by
    -- Both sides speak of every moment, so that only the last one is new.
    induction ms using List.reverseRecOn generalizing c with
    | nil => simp [FollowsRoster]
    | append_singleton ms m ih =>
      obtain ⟨before, step, rfl⟩ := past.last
      rw [followsRoster_snoc, List.forall_mem_append, List.forall_mem_singleton, ih before]
      refine and_congr_right fun follows => ?_
      have held := before.held ((ih before).2 follows)
      rw [← and_imp]
      exact held_step held step
  refine ⟨exactly, fun cancel => exactly.2 fun m member _ idle => ?_⟩
  -- Where nothing is left of failed attempts, nobody is in the room of a disconnected session.
  obtain ⟨older, newer, rfl⟩ := List.append_of_mem member
  obtain ⟨before, -, -⟩ := past.moment
  have bare := (before.spared cancel.older).idle idle
  exact ⟨bare.players, bare.count⟩

/-- A player comes in during a session, and the session is closed twice. -/
theorem roster_followed_of_visit :
    ∃ ms c, Past ms c ∧ rosterNews ms = [⟨1, 1, [⟨⟨7⟩, "X", true⟩]⟩, ⟨2, 0, []⟩] ∧
      FollowsRoster ms := by
  have lived : (start {} {} {} 0 0).live?
      [.connect .caller "10.0.0.1" 27015, .turn, .opened (.ok true) fun _ => 0,
        .raised (.playerJoined ⟨7⟩ "X"), .takeIn, .disconnect, .disconnect] = some (_, _) := rfl
  have past := Past.of_live lived
  exact ⟨_, _, past, rfl, (Past.followsRoster_iff past).1.2 (by decide)⟩

/-- A player who joined before the core refused is still listed by an observer when the room has
been cleared. -/
theorem stray_player_held :
    ∃ ms c, Past ms c ∧ c.store.roster.players = [] ∧ c.store.playerCount = 0 ∧
      heldRoster ms = ([⟨⟨7⟩, "X", true⟩], 1) ∧ ¬ FollowsRoster ms := by
  have lived : (start {} {} {} 0 0).live?
      [.connect .caller "10.0.0.1" 27015, .turn, .raised (.playerJoined ⟨7⟩ "X"), .takeIn,
        .opened (.ok false) fun _ => 0, .disconnect] = some (_, _) := rfl
  have past := Past.of_live lived
  refine ⟨_, _, past, rfl, rfl, rfl, fun follows => ?_⟩
  have held := past.held follows
  have listed : ([⟨⟨7⟩, "X", true⟩], 1) = (([], 0) : List Player × Nat) := held
  cases listed

end Client

end OnlinePlay
