import OnlinePlay.Proofs.Client.Passage
import OnlinePlay.Proofs.Client.Requests

/-!
# Games that are started

A game is started by a call that has looked whether the session is open and then let the core check
the file (`Client.Launching`). In a history, every request to start a game goes back to the moment
of such a call (`Past.launches`). The session is not looked at again once the core has answered, so
that it may have been closed meanwhile (`launches_after_close`).
-/

namespace OnlinePlay.Client

variable {c d : Client} {h : Happening} {es : List Effect} {id : CallId} {path : String}

/-- The core checks a file for a call that wants to start the game. -/
def Checks (c : Client) (id : CallId) (path : String) : Prop :=
  (id, Errand.checkToLaunch path) ∈ c.errands

/-- A step has the core check no file for a call that wants to start the game, and starts none. -/
structure NoLaunch (c : Client) (es : List Effect) (d : Client) : Prop where
  checks : ∀ id path, d.Checks id path → c.Checks id path
  launches : ∀ id path, .launchGame id path ∉ es.filterMap Effect.request?

/-- How a step has to do with games that are started. -/
inductive Launching (c : Client) : Happening → List Effect → Client → Prop where
  /-- The session is open, and the core is asked to check the file. -/
  | checks {path : String} {d : Client} :
    c.store.status = .connected →
    d.errands = c.errands ++ [(c.nextCall, .checkToLaunch path)] →
    Launching c (.launchGame path) [.asks (.checkGame c.nextCall path)] d
  /-- The core has found the file good. -/
  | starts {id : CallId} {path checksum gameId : String} {d : Client} :
    c.Checks id path →
    (∀ call file, d.Checks call file → c.Checks call file) →
    Launching c (.checked id (.ok (some (checksum, gameId)))) [.asks (.launchGame id path)] d
  | beside {h : Happening} {es : List Effect} {d : Client} :
    c.NoLaunch es d →
    Launching c h es d

/-! ## Steps that start nothing -/

lemma NoLaunch.of_errands (same : d.errands = c.errands)
    (quiet : es.filterMap Effect.request? = []) : c.NoLaunch es d := by
  refine ⟨fun id path checks => ?_, by simp [quiet]⟩
  rwa [Checks, same] at checks

lemma noLaunch_refuse (c : Client) (e : PlayError) : c.NoLaunch (c.refuse e).2 (c.refuse e).1 :=
  .of_errands rfl rfl

/-- Another errand is begun. -/
lemma noLaunch_ask (c : Client) {e : Errand} {request : CallId → Request}
    (other : ∀ path, e ≠ .checkToLaunch path)
    (apart : ∀ call id path, request call ≠ .launchGame id path) :
    c.NoLaunch (c.ask e request).2 (c.ask e request).1 := by
  refine ⟨fun id path checks => ?_, fun id path asked => ?_⟩
  · rcases List.mem_append.1 checks with before | now
    · exact before
    · cases List.mem_singleton.1 now
      exact absurd rfl (other path)
  · exact apart _ _ _ (List.mem_singleton.1 asked).symm

lemma noLaunch_order (c : Client) {request : CallId → Request}
    (apart : ∀ call id path, request call ≠ .launchGame id path) :
    c.NoLaunch (c.order request).2 (c.order request).1 := by
  rw [order]
  split
  · exact c.noLaunch_ask (by simp) apart
  · exact .of_errands rfl rfl

lemma noLaunch_sendChat (c : Client) (text : String) :
    c.NoLaunch (c.sendChat text).2 (c.sendChat text).1 := by
  rw [sendChat]
  repeat' split
  · exact c.noLaunch_refuse _
  · exact c.noLaunch_refuse _
  · exact c.noLaunch_refuse _
  · exact c.noLaunch_ask (by simp) (by simp)

lemma noLaunch_setVisibility (c : Client) (visibility : Visibility) :
    c.NoLaunch (c.setVisibility visibility).2 (c.setVisibility visibility).1 := by
  let shown := { c with settings := { c.settings with roomVisibility := visibility } }
  have order := @noLaunch_order shown (.setVisibility · visibility) (by simp)
  exact ⟨order.checks, order.launches⟩

/-- An errand ends. -/
lemma NoLaunch.endAwait (ended : d.errands = (c.endAwait id).errands)
    (quiet : es.filterMap Effect.request? = []) : c.NoLaunch es d := by
  refine ⟨fun call path checks => ?_, by simp [quiet]⟩
  rw [Checks, ended] at checks
  exact (List.mem_filter.1 checks).1

/-- What opens and closes sessions, or is taken in, has no part in errands. -/
lemma Shift.errands (shift : c.Shift h es d) (concerns : h.concernsSession) :
    d.errands = c.errands := by
  cases shift with
  | aside aside => simp [aside] at concerns
  | rejected | passedOver | repeated | undone | asked => rfl
  | begun _ _ _ client | succeeded _ _ _ _ client => rw [client]
  | reset _ closed => exact (close_waits closed).2
  | refused _ _ _ _ failed | takenBack _ _ _ _ failed =>
    obtain ⟨rfl, -⟩ := fail_inv failed
    rfl
  | ended _ _ _ ended =>
    obtain ⟨⟨stopper, rfl⟩, -⟩ := endClose_inv ended
    rfl
  | took _ _ received =>
    have same := receive_errands received
    exact same

lemma Shift.noLaunch (shift : c.Shift h es d) (concerns : h.concernsSession) :
    c.NoLaunch es d := by
  refine ⟨fun id path checks => ?_, fun id path asked => ?_⟩
  · rwa [Checks, shift.errands concerns] at checks
  · rcases shift.requests_inv asked with
      ⟨aside, -⟩ | ⟨⟨_, _, aim, _⟩, rest, -, launch, -⟩ | ⟨launch, -⟩ | ⟨launch, -⟩
    · simp [aside] at concerns
    · obtain ⟨_, _ | _⟩ | _ := aim <;> cases launch
    · cases launch
    · cases launch

/-! ## One step -/

lemma launching_launchGame (c : Client) (path : String) :
    c.Launching (.launchGame path) (c.launchGame path).2 (c.launchGame path).1 := by
  rw [launchGame]
  split
  case isTrue isOpen =>
    have isOpen : c.store.status = .connected := by simpa [isConnected] using isOpen
    exact .checks isOpen rfl
  case isFalse => exact .beside (c.noLaunch_refuse _)

lemma launching_checked {answer : Except NativeError (Option (String × String))}
    (step : c.checked? id answer = some (d, es)) : c.Launching (.checked id answer) es d := by
  simp only [checked?] at step
  split at step
  case h_1 =>
    cases step
    exact .beside (.endAwait rfl rfl)
  case h_2 path found =>
    split at step
    case isTrue good =>
      cases step
      obtain ⟨checksum, gameId, rfl⟩ :
          ∃ checksum gameId, answer = .ok (some (checksum, gameId)) := by
        rcases answer with _ | _ | ⟨checksum, gameId⟩
        · cases good
        · cases good
        · exact ⟨checksum, gameId, rfl⟩
      refine .starts ?_ fun call file checks => ?_
      · obtain ⟨_, _, errands, -⟩ := List.lookup_eq_some_iff.1 found
        rw [Checks, errands]
        exact List.mem_append_right _ (.head _)
      · rcases List.mem_append.1 checks with before | now
        · exact (List.mem_filter.1 before).1
        · cases List.mem_singleton.1 now
    case isFalse =>
      cases step
      exact .beside (.endAwait rfl rfl)
  case h_3 => cases step

/-- A step starts a game once the core has found its file good, or lets the core check a file for
this while the session is open, or has nothing to do with it. -/
lemma launching_of_step (step : c.step? h = some (d, es)) : c.Launching h es d := by
  cases concerns : h.concernsSession with
  | true => exact .beside ((shift_of_step step).noLaunch concerns)
  | false =>
    cases h with
    | connect | host | disconnect | shutDown | turn | opened | closed | takeIn => cases concerns
    | launchGame file =>
      obtain ⟨rfl, rfl⟩ := outcome_eq step
      exact c.launching_launchGame file
    | checked call answer => exact launching_checked step
    | sendChat text =>
      obtain ⟨rfl, rfl⟩ := outcome_eq step
      exact .beside (c.noLaunch_sendChat text)
    | kick player | ban player =>
      obtain ⟨rfl, rfl⟩ := outcome_eq step
      exact .beside (c.noLaunch_order (by simp))
    | setVisibility visibility =>
      obtain ⟨rfl, rfl⟩ := outcome_eq step
      exact .beside (c.noLaunch_setVisibility visibility)
    | checkGame file | discover reply =>
      obtain ⟨rfl, rfl⟩ := outcome_eq step
      exact .beside (c.noLaunch_ask (by simp) (by simp))
    | told call answer =>
      obtain ⟨rfl, r, rfl⟩ | ⟨rfl, text, m, -, rfl⟩ := told_inv step
      · exact .beside (.endAwait rfl rfl)
      · exact .beside (.endAwait rfl rfl)
    | launched call answer =>
      obtain ⟨rfl, r, rfl⟩ := launched_inv step
      exact .beside (.endAwait rfl rfl)
    | listed call exchange =>
      obtain ⟨rfl, reply, result, rfl⟩ := listed_inv step
      exact .beside (.endAwait rfl (by simp))
    | confirmed answer =>
      obtain ⟨⟨phase, rfl⟩, rfl | rfl⟩ := confirmed_inv step
      · exact .beside (.of_errands rfl rfl)
      · exact .beside (.of_errands rfl (by simp))
    | poll chore =>
      obtain ⟨⟨poller, rfl⟩, run, rfl | rfl⟩ := poll_inv step
      · exact .beside ⟨fun _ _ checks => checks, by simp [Effect.request?]⟩
      · exact .beside ⟨fun _ _ checks => checks, by simp [Effect.request?]⟩
    | editSettings | subscribe | unsubscribe | raised | notice | rosterRead | drained | elapse
    | setWall =>
      cases step
      exact .beside (.of_errands rfl rfl)

/-! ## Histories -/

/-- A call has wanted to start a game: the session was open, and the core was asked to check the
file. -/
structure WantsGame (m : Moment) (id : CallId) (path : String) : Prop where
  wants : m.happening = .launchGame path
  call : m.before.nextCall = id
  isOpen : m.before.store.status = .connected
  asks : m.effects = [.asks (.checkGame id path)]

/-- The call for which the core checks a file was made while the session was open. -/
lemma Past.checks {ms : List Moment} (past : Past ms c) (checks : c.Checks id path) :
    ∃ older first newer, ms = older ++ first :: newer ∧ WantsGame first id path := by
  induction ms using List.reverseRecOn generalizing c with
  | nil =>
    obtain ⟨_, _, _, _, _, history⟩ := past
    rw [history.of_nil] at checks
    cases checks
  | append_singleton ms m ih =>
    obtain ⟨before, step, rfl⟩ := past.last
    have earlier (checks : m.before.Checks id path) :
        ∃ older first newer, ms ++ [m] = older ++ first :: newer ∧ WantsGame first id path := by
      obtain ⟨older, first, newer, rfl, wants⟩ := ih before checks
      exact ⟨older, first, newer ++ [m], by simp, wants⟩
    have launching := launching_of_step step
    obtain ⟨before, h, es, after⟩ := m
    dsimp only at launching
    cases launching with
    | checks isOpen errands =>
      rw [Checks, errands, List.mem_append, List.mem_singleton] at checks
      rcases checks with checks | now
      · exact earlier checks
      · cases now
        exact ⟨ms, _, [], rfl, rfl, rfl, isOpen, rfl⟩
    | starts _ kept => exact earlier (kept id path checks)
    | beside other => exact earlier (other.checks id path checks)

/-- A game is started by a call that was made while the session was open, once the core has found
its file good for this same call. -/
theorem Past.launches {older newer : List Moment} {m : Moment} (past : Past (older ++ m :: newer) c)
    (launches : .launchGame id path ∈ m.requests) :
    (∃ checksum gameId, m.happening = .checked id (.ok (some (checksum, gameId)))) ∧
      ∃ earlier first between, older = earlier ++ first :: between ∧ WantsGame first id path := by
  obtain ⟨before, step, -⟩ := past.moment
  have launching := launching_of_step step
  obtain ⟨now, h, es, d⟩ := m
  dsimp only at launching
  cases launching with
  | checks => cases List.mem_singleton.1 launches
  | starts checks =>
    cases List.mem_singleton.1 launches
    exact ⟨⟨_, _, rfl⟩, before.checks checks⟩
  | beside other => exact absurd launches (other.launches id path)

/-- The session is closed while the core checks the file, and the game is started all the same. -/
theorem launches_after_close :
    ∃ ms m c, Past (ms ++ [m]) c ∧ m.before.store.status = .disconnected ∧
      .launchGame 1 "game.iso" ∈ m.requests := by
  have lived : (start {} {} {} 0 0).live?
      [.connect .caller "10.0.0.1" 27015, .turn, .opened (.ok true) fun _ => 0,
        .launchGame "game.iso", .disconnect, .checked 1 (.ok (some ("c0ffee", "GAME01")))] =
        some (_, _) := rfl
  have past := Past.of_live lived
  exact ⟨[_, _, _, _, _], _, _, past, rfl, .head _⟩

end OnlinePlay.Client
