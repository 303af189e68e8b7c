import OnlinePlay.Proofs.Client.Failure
import OnlinePlay.Proofs.Client.News
import OnlinePlay.Proofs.Client.Turns

/-!
# How an attempt is settled

The result that an attempt is given, and the news that go with it. `Client.Settles` is the table:
the attempt that still owns the store succeeds or fails before everybody; any other ends in silence,
and is told that it was cancelled unless the core itself has said no. `Shift.waits_or_judges` says
that results are given in no other way, and to nobody but the first of the line.

Whoever wants a session to be opened either begins an attempt, or is turned away at once
(`Shift.opening`).
-/

namespace OnlinePlay

/-- The result of an attempt: the code of a session that is hosted, or what went wrong. -/
abbrev AttemptResult := Except ConnectionError (Option HostCode)

/-- The result that an effect gives to an attempt, if it gives one. -/
def Effect.verdict? : Effect → Option (CallId × AttemptResult)
  | .returns id (.attempt r) | .dispatches (.outcome id (.attempt r)) => some (id, r)
  | _ => none

/-- Whether the core says no to an attempt. -/
def Happening.refuses : Happening → Bool
  | opened (.ok false) _ | opened (.error _) _ => true
  | _ => false

/-- The results that are given at a moment. -/
def Moment.verdicts (m : Moment) : List (CallId × AttemptResult) :=
  m.effects.filterMap Effect.verdict?

namespace Client

/-! ## Verdicts -/

@[simp]
lemma verdict_attempt (r : Reply) (id : CallId) (result : AttemptResult) :
    (r.effect id (.attempt result)).verdict? = some (id, result) := by
  cases r <;> rfl

@[simp]
lemma verdicts_publish (c : Client) (e : SessionEvent) :
    (c.publish e).filterMap Effect.verdict? = [] := by
  simp [publish, Effect.verdict?]

@[simp]
lemma verdicts_announce (c : Client) : c.announce.filterMap Effect.verdict? = [] :=
  c.verdicts_publish _

lemma deed_of_verdict {e : Effect} {id : CallId} {r : AttemptResult}
    (given : e.verdict? = some (id, r)) : e.deed? = some (.ends id) := by
  rw [Effect.verdict?.eq_def] at given
  split at given
  case h_1 | h_2 =>
    cases given
    rfl
  case h_3 => cases given

lemma verdicts_quiet {es : List Effect} (quiet : es.filterMap Effect.deed? = []) :
    es.filterMap Effect.verdict? = [] := by
  rw [List.filterMap_eq_nil_iff] at quiet ⊢
  intro e member
  cases given : e.verdict? with
  | none => rfl
  | some p =>
    have ends := deed_of_verdict given
    rw [quiet e member] at ends
    cases ends

lemma verdicts_fail {c d : Client} {call : LifecycleCall} {g : Nat} {e : ConnectionError}
    {es : List Effect} (h : c.fail call g e = (d, es)) :
    es.filterMap Effect.verdict? = [(call.id, .error e)] := by
  rw [fail_eq] at h
  cases h
  simp [c.filterMap_publishAll c.verdicts_publish, LifecycleCall.effect]

/-! ## How an attempt is settled -/

/-- The ways in which the first of the line gets its result as the attempt of a generation, with the
news of it. -/
inductive Settles (c : Client) (g : Nat) :
    Happening → AttemptResult → List SessionEvent → Prop where
  | succeeds {h : Happening} {code : Option HostCode} :
    c.store.isAttempt g →
    Settles c g h (.ok code) [.statusChanged .connected (if code.isSome then .host else .guest)]
  | fails {h : Happening} {e : ConnectionError} :
    c.store.isAttempt g →
    e ≠ .cancelled →
    Settles c g h (.error e)
      [.statusChanged .disconnected .none, .connectionFailed e.message]
  | cancelled {h : Happening} :
    c.store.isAttempt g = false →
    h.refuses = false →
    Settles c g h (.error .cancelled) []
  | refused {h : Happening} {e : ConnectionError} :
    c.store.isAttempt g = false →
    h.refuses →
    e ≠ .cancelled →
    Settles c g h (.error e) []

lemma news_failed {c d : Client} {call : LifecycleCall} {rest : List LifecycleCall} {g : Nat}
    {e : ConnectionError} {es : List Effect}
    (failed : { c with line := rest }.fail call g e = (d, es)) :
    es.filterMap Effect.news? =
      if c.store.isAttempt g then
        [.statusChanged .disconnected .none, .connectionFailed e.message]
      else [] := by
  have news := news_fail failed
  dsimp only at news
  rw [news]
  by_cases owned : c.store.isAttempt g
  · cases aborted : c.store.abort? g with
    | none => exact absurd (Store.isAttempt_iff.1 owned) (Store.abort_eq_none_iff.1 aborted)
    | some s =>
      obtain ⟨-, -, rfl⟩ := Store.abort_inv aborted
      rw [if_pos owned]
      rfl
  · have lost : c.store.abort? g = none := by
      rw [Store.abort_eq_none_iff, ← Store.isAttempt_iff]
      exact owned
    rw [lost, if_neg owned]
    rfl

/-! ## How every step settles -/

/-- A step in which no attempt of the line gets its result. -/
structure Waits (c : Client) (h : Happening) (es : List Effect) (d : Client) : Prop where
  stay : ∀ a ∈ c.attempts, a ∈ d.attempts
  silent : h.advances → es.filterMap Effect.news? = []
  unjudged : ∀ p ∈ es.filterMap Effect.verdict?, p.1 = c.nextCall

/-- A step in which the first of the line gets its result and leaves. -/
structure Judges (c : Client) (h : Happening) (es : List Effect) (d : Client)
    (call : LifecycleCall) (g : Nat) (result : AttemptResult) : Prop where
  leaves : c.line = call :: d.line
  attempt : call.attempt? = some ⟨call.id, g⟩
  advances : h.advances
  judged : es.filterMap Effect.verdict? = [(call.id, result)]
  settles : c.Settles g h result (es.filterMap Effect.news?)

lemma Waits.of_line {c d : Client} {h : Happening} {es : List Effect} (line : d.line = c.line)
    (rests : h.advances = false) (quiet : es.filterMap Effect.deed? = []) : c.Waits h es d := by
  refine ⟨fun a member => ?_, fun advances => ?_, ?_⟩
  · rw [attempts, line]
    exact member
  · simp [rests] at advances
  · simp [verdicts_quiet quiet]

lemma Waits.of_line_up {c d : Client} {h : Happening} {es : List Effect} {call : LifecycleCall}
    (line : d.line = c.line ++ [call]) (rests : h.advances = false)
    (quiet : es.filterMap Effect.deed? = []) : c.Waits h es d := by
  refine ⟨fun a member => ?_, fun advances => ?_, ?_⟩
  · rw [attempts, line, List.filterMap_append]
    exact List.mem_append_left _ member
  · simp [rests] at advances
  · simp [verdicts_quiet quiet]

lemma judges_fail {c d : Client} {h : Happening} {es : List Effect} {call : LifecycleCall}
    {rest : List LifecycleCall} {g : Nat} {goal : Goal} {e : ConnectionError}
    (line : c.line = call :: rest) (aim : call.aim = .attempt g goal) (advances : h.advances)
    (failed : { c with line := rest }.fail call g e = (d, es))
    (settles : c.Settles g h (.error e)
      (if c.store.isAttempt g then
        [.statusChanged .disconnected .none, .connectionFailed e.message]
      else [])) :
    c.Judges h es d call g (.error e) := by
  have news := news_failed failed
  have judged := verdicts_fail failed
  obtain ⟨rfl, -⟩ := fail_inv failed
  exact ⟨line, LifecycleCall.attempt_some aim, advances, judged, news ▸ settles⟩

lemma not_attempt_of_stale {s : Store} {g : Nat} (stale : s.isCurrent g = false) :
    s.isAttempt g = false := by
  rw [← Bool.not_eq_true, Store.isAttempt_iff]
  rintro ⟨generation, underway⟩
  have current := Store.isCurrent_iff.2 ⟨generation, by simp [underway]⟩
  simp [current] at stale

lemma refusal_ne_cancelled {goal : Goal} {answer : Except NativeError Bool} {e : ConnectionError}
    (why : answer = .ok false ∧ e = goal.refusal ∨ ∃ n, answer = .error n ∧ e = .ofNative n)
    (delay : Chore → Nat) : (Happening.opened answer delay).refuses ∧ e ≠ .cancelled := by
  rcases why with ⟨rfl, rfl⟩ | ⟨n, rfl, rfl⟩
  · refine ⟨rfl, ?_⟩
    cases goal <;> simp [Goal.refusal]
  · refine ⟨rfl, ?_⟩
    cases n <;> simp [ConnectionError.ofNative]

/-- A step gives the first of the line its result, as in the table, or none to anybody in the
line. -/
lemma Shift.waits_or_judges {c d : Client} {h : Happening} {es : List Effect}
    (shift : c.Shift h es d) :
    c.Waits h es d ∨ ∃ call g result, c.Judges h es d call g result := by
  cases shift with
  | aside aside apart =>
    exact .inl (.of_line apart.line (Happening.advances_aside aside).1 apart.quiet)
  | rejected opening =>
    left
    have rests := Happening.advances_calls (Happening.calls_opening opening)
    refine ⟨fun a member => member, fun advances => ?_, fun p given => ?_⟩
    · simp [rests] at advances
    · simp only [List.filterMap_cons, verdict_attempt, List.filterMap_nil] at given
      rw [List.mem_singleton.1 given]
  | begun opening _ _ client told =>
    subst client told
    have rests := Happening.advances_calls (Happening.calls_opening opening)
    exact .inl (.of_line_up rfl rests (deeds_announce _))
  | repeated => exact .inl (.of_line rfl rfl rfl)
  | reset resets closed =>
    have rests := Happening.advances_calls (Happening.calls_resets resets)
    obtain ⟨-, -, -, -, line, quiet⟩ := close_inv closed
    split at line
    · exact .inl (.of_line line rests quiet)
    · exact .inl (.of_line_up line rests quiet)
  | asked line | undone line =>
    -- The first of the line goes on and stays.
    left
    refine ⟨fun a member => ?_, fun _ => rfl, by simp [Effect.verdict?]⟩
    rw [attempts, line] at member
    exact member
  | @passedOver _ _ g _ line _ aim stale =>
    right
    refine ⟨_, g, .error .cancelled, line, LifecycleCall.attempt_some aim, rfl, ?_, ?_⟩
    · simp [LifecycleCall.effect]
    · simp only [LifecycleCall.effect, List.filterMap_cons, news_outcome, List.filterMap_nil]
      exact .cancelled (not_attempt_of_stale stale) rfl
  | @succeeded _ _ g goal _ _ _ _ line _ aim finished client told =>
    right
    subst client told
    obtain ⟨generation, underway, -, rfl⟩ := Store.finish_inv finished
    refine ⟨_, g, .ok goal.code?, line, LifecycleCall.attempt_some aim, rfl, ?_, ?_⟩
    · simp [LifecycleCall.effect]
    · have owned := Store.isAttempt_iff.2 ⟨generation, underway⟩
      have role : goal.role = if goal.code?.isSome then .host else .guest := by cases goal <;> rfl
      simp only [LifecycleCall.effect, List.filterMap_append, news_announce, List.filterMap_cons,
        news_outcome, List.filterMap_nil, List.append_nil]
      rw [role]
      exact .succeeds owned
  | @refused _ _ g _ _ delay _ _ _ line _ aim why failed =>
    right
    obtain ⟨refuses, other⟩ := refusal_ne_cancelled why delay
    refine ⟨_, g, _, judges_fail line aim rfl failed ?_⟩
    split
    case isTrue owned => exact .fails owned other
    case isFalse lost => exact .refused (by simpa using lost) refuses other
  | @takenBack _ _ g _ _ _ _ _ line _ aim why failed =>
    right
    refine ⟨_, g, _, judges_fail line aim rfl failed ?_⟩
    rw [why]
    split
    case isTrue owned => exact .fails owned (by simp)
    case isFalse lost => exact .cancelled (by simpa using lost) rfl
  | ended line _ aim ended =>
    -- The first of the line leaves, but it was no attempt.
    left
    have apart := apart_endClose ended
    refine ⟨fun a member => ?_, fun _ => news_endClose ended, ?_⟩
    · rw [attempts, line, List.filterMap_cons_none (LifecycleCall.attempt_none aim)] at member
      rw [attempts, apart.line]
      exact member
    · simp [verdicts_quiet apart.quiet]
  | took _ _ received =>
    obtain ⟨-, line, -, -, quiet⟩ := receive_inv received
    exact .inl (.of_line line rfl quiet)

/-! ## How an attempt begins -/

/-- Who wants a session to be opened is turned away, or opens a generation and lines up. -/
lemma Shift.opening {c d : Client} {h : Happening} {es : List Effect} (shift : c.Shift h es d)
    (opening : h.isOpening) :
    (∃ reply e, (c.isClosed ∧ e = .shutDown ∨
        c.store.status ≠ .disconnected ∧ e = .busy c.store.status) ∧
      es = [Reply.effect reply c.nextCall (.attempt (.error e))] ∧
      d = { c with nextCall := c.nextCall + 1 }) ∨
    (c.store.status = .disconnected ∧ d.store.status = .connecting ∧
      d.attempts = c.attempts ++ [⟨c.nextCall, d.store.generation⟩] ∧
      es.filterMap Effect.news? = [.statusChanged .connecting c.store.role]) := by
  have calls := Happening.calls_opening opening
  cases shift with
  | aside aside => simp [(Happening.advances_aside aside).2] at calls
  | rejected _ why => exact .inl ⟨_, _, why, rfl, rfl⟩
  | begun _ _ opens client told =>
    right
    subst client told
    obtain ⟨idle, e⟩ := opens.inv
    refine ⟨idle, by rw [e], ?_, ?_⟩
    · simp [attempts, LifecycleCall.attempt?]
    · rw [news_announce]
      simp only [e]
  | reset resets => simp [(c.resets_opening opening).1] at resets
  | repeated | asked | passedOver | succeeded | undone | refused | takenBack | ended | took =>
    cases opening

lemma opening_of_begins {c d : Client} {h : Happening} {es : List Effect}
    (step : c.step? h = some (d, es)) (begins : Moment.Begins ⟨c, h, es, d⟩) : h.isOpening := by
  obtain ⟨idle, underway⟩ := begins
  have moves := moves_of_step step
  dsimp only at idle underway
  generalize d.store = s at moves underway
  cases moves with
  | stays => simp [idle] at underway
  | opens opening => exact opening
  | resets => simp [Store.reset_eq] at underway
  | finishes finished => simp [(Store.finish_inv finished).2.1] at idle
  | aborts _ _ aborted => simp [(Store.abort_inv aborted).2.1] at idle
  | @hears x =>
    obtain ⟨-, same | ⟨isOpen, -⟩⟩ := c.store.hear_status (clockText c.wall) x
    · simp [same, idle] at underway
    · simp [isOpen] at idle

end Client

end OnlinePlay
