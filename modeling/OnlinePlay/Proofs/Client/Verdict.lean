import OnlinePlay.Proofs.Client.Settlement

/-!
# The outcome of every attempt

Whether the caller of an attempt and the observers of the session are told the same
(`SameOutcome`). From its begin on an attempt waits in the lifecycle line, silent, and owns the
store until the session is reset (`Past.life`); then it is settled, once, and is gone. What it is
told and what is told of it can therefore be read off the table of `Client.Settles`.

An attempt that was reset is told that it was cancelled, unless it learns from the core itself that
it was refused; then the refusal is its result. So a history has the same outcome for all exactly if
the core never says no to an attempt that has been reset (`Past.sameOutcome_iff`).
-/

namespace OnlinePlay

/-- The attempt that begins at a moment. -/
def Moment.begun (m : Moment) : Attempt := ⟨m.before.nextCall, m.after.store.generation⟩

/-- What a call tells the observers in a history. -/
def toldBy (id : CallId) (ms : List Moment) : List SessionEvent :=
  (doneBy id ms).filterMap Effect.news?

lemma toldBy_append (id : CallId) (ms ns : List Moment) :
    toldBy id (ms ++ ns) = toldBy id ms ++ toldBy id ns := by
  rw [toldBy, doneBy_append, List.filterMap_append]
  rfl

lemma toldBy_acts {id : CallId} {m : Moment} (acts : m.actor? = some id) :
    toldBy id [m] = m.news := by
  rw [toldBy, doneBy_acts acts]
  rfl

lemma toldBy_rests {id : CallId} {m : Moment} (rests : m.actor? ≠ some id) :
    toldBy id [m] = [] := by
  rw [toldBy, doneBy_rests rests]
  rfl

/-- The session was reset at one of these moments. -/
def WasReset (ms : List Moment) : Prop := ∃ m ∈ ms, m.before.resets m.happening

/-- An attempt begins at one moment of a history and is given its result at another, with these in
between. -/
structure Course (ms : List Moment) (first : Moment) (between : List Moment) (last : Moment)
    (result : AttemptResult) : Prop where
  inside : ∃ older newer, ms = older ++ first :: (between ++ last :: newer)
  begins : first.Begins
  given : (first.begun.call, result) ∈ last.verdicts

lemma Course.mem {ms between : List Moment} {first last : Moment} {result : AttemptResult}
    (course : Course ms first between last result) : last ∈ ms := by
  obtain ⟨older, newer, rfl⟩ := course.inside
  simp

/-- Caller and observers are told the same of every attempt. -/
structure SameOutcome (ms : List Moment) : Prop where
  /-- One that was reset is told so, and its failure is not told to anybody else. -/
  cancelled : ∀ first between last result, Course ms first between last result →
    WasReset between →
      result = .error .cancelled ∧
        toldBy first.begun.call ms = [.statusChanged .connecting .none]
  accepted : ∀ first between last code, Course ms first between last (.ok code) →
    ¬ WasReset between →
      toldBy first.begun.call ms =
        [.statusChanged .connecting .none,
          .statusChanged .connected (if code.isSome then .host else .guest)]
  failed : ∀ first between last e, Course ms first between last (.error e) →
    ¬ WasReset between →
      e ≠ .cancelled ∧
        toldBy first.begun.call ms =
          [.statusChanged .connecting .none, .statusChanged .disconnected .none,
            .connectionFailed e.message]
  /-- One that is not let in is told why, and that is all that it does. -/
  rejected : ∀ m ∈ ms, m.happening.isOpening → ¬ m.Begins → ∃ (reply : Reply) (e : ConnectionError),
    (m.before.isClosed ∧ e = .shutDown ∨
      m.before.store.status ≠ .disconnected ∧ e = .busy m.before.store.status) ∧
    doneBy m.before.nextCall ms = [reply.effect m.before.nextCall (.attempt (.error e))]

namespace Client

/-! ## The course of an attempt -/

/-- An attempt that began loses the store in the steps that reset the session, and in no other. -/
lemma Past.owns_step {ms : List Moment} {c d : Client} {h : Happening} {es : List Effect}
    {a : Attempt} (past : Past ms c) (step : c.step? h = some (d, es)) (before : a ∈ c.attempts)
    (after : a ∈ d.attempts) :
    d.store.isAttempt a.generation ↔ c.store.isAttempt a.generation ∧ c.resets h = false := by
  have moves := moves_of_step step
  have newer := moves.status.1
  -- A generation that is over does not come back.
  have begun : a.generation ≤ c.store.generation := by
    obtain ⟨call, inLine, isA⟩ := List.mem_filterMap.1 before
    obtain ⟨-, goal, aim⟩ := LifecycleCall.attempt_inv isA
    exact past.orderly.begun call inLine _ (by simp [LifecycleCall.isOf, aim])
  have owned := past.orderly.owns_iff before
  rw [(past.snoc step).orderly.owns_iff after, owned]
  by_cases same : c.store.generation = a.generation
  · have underway := (Store.isAttempt_iff.1 (owned.2 same)).2
    rw [moves.generation (by simp [underway])]
    cases c.resets h <;> simp [same]
  · have later : d.store.generation ≠ a.generation := by omega
    simp [same, later]

lemma Gone.not_mem {c : Client} {a : Attempt} (gone : c.Gone a.call) : a ∉ c.attempts := by
  intro member
  obtain ⟨call, inLine, isA⟩ := List.mem_filterMap.1 member
  exact gone.left call inLine (LifecycleCall.attempt_inv isA).1.symm

/-- A call of the line acts only as the first of it, and then it is silent in a step without a
result. -/
lemma Waits.told {c d : Client} {h : Happening} {es : List Effect} {id : CallId}
    (waits : c.Waits h es d) (made : id < c.nextCall) : toldBy id [⟨c, h, es, d⟩] = [] := by
  by_cases acts : Moment.actor? ⟨c, h, es, d⟩ = some id
  · rw [toldBy_acts acts]
    rcases actor_inv acts with ⟨advances, -⟩ | ⟨-, -, next⟩
    · exact waits.silent advances
    · exact absurd next (Nat.ne_of_lt made)
  · exact toldBy_rests acts

lemma Waits.not_given {c d : Client} {h : Happening} {es : List Effect} {id : CallId}
    (waits : c.Waits h es d) (made : id < c.nextCall) (r : AttemptResult) :
    (id, r) ∉ Moment.verdicts ⟨c, h, es, d⟩ := by
  intro given
  have next := waits.unjudged _ given
  exact absurd next (Nat.ne_of_lt made)

lemma Judges.acts {c d : Client} {h : Happening} {es : List Effect} {call : LifecycleCall} {g : Nat}
    {result : AttemptResult} (judges : c.Judges h es d call g result) :
    Moment.actor? ⟨c, h, es, d⟩ = some call.id := by
  rw [Moment.actor?, if_pos judges.advances]
  simp [judges.leaves]

lemma Judges.not_given {c d : Client} {h : Happening} {es : List Effect} {call : LifecycleCall}
    {g : Nat} {result : AttemptResult} (judges : c.Judges h es d call g result) {id : CallId}
    (other : id ≠ call.id) (r : AttemptResult) : (id, r) ∉ Moment.verdicts ⟨c, h, es, d⟩ := by
  intro given
  have judged : Moment.verdicts ⟨c, h, es, d⟩ = [(call.id, result)] := judges.judged
  rw [judged, List.mem_singleton] at given
  exact other (congrArg Prod.fst given)

/-- A step leaves an attempt of the line there and is silent about it, or gives it its result. -/
lemma Past.attempt_step {ms : List Moment} {c d : Client} {h : Happening} {es : List Effect}
    {a : Attempt} (past : Past ms c) (step : c.step? h = some (d, es)) (pending : a ∈ c.attempts) :
    (a ∈ d.attempts ∧ toldBy a.call [⟨c, h, es, d⟩] = [] ∧
      ∀ r, (a.call, r) ∉ Moment.verdicts ⟨c, h, es, d⟩) ∨
    (d.Gone a.call ∧ ∃ result, Moment.verdicts ⟨c, h, es, d⟩ = [(a.call, result)] ∧
      c.Settles a.generation h result (toldBy a.call [⟨c, h, es, d⟩])) := by
  have shift := shift_of_step step
  have numbered := past.numbered
  have made := numbered.attempt_made pending
  rcases shift.waits_or_judges with waits | ⟨call, g, result, judges⟩
  · exact .inl ⟨waits.stay a pending, waits.told made, waits.not_given made⟩
  · have gone := numbered.gone shift judges.leaves
    rw [attempts, judges.leaves, List.filterMap_cons_some judges.attempt] at pending
    rcases List.mem_cons.1 pending with rfl | behind
    · refine .inr ⟨gone, result, judges.judged, ?_⟩
      rw [toldBy_acts judges.acts]
      exact judges.settles
    · -- The first of the line leaves, and this attempt is behind it.
      obtain ⟨other, inLine, isA⟩ := List.mem_filterMap.1 behind
      have later : a.call ≠ call.id := by
        rw [(LifecycleCall.attempt_inv isA).1]
        exact gone.left other inLine
      have rests : Moment.actor? ⟨c, h, es, d⟩ ≠ some a.call := by
        rw [judges.acts]
        exact fun same => later (Option.some.inj same).symm
      exact .inl ⟨behind, toldBy_rests rests, judges.not_given later⟩

lemma Gone.not_given {c d : Client} {h : Happening} {es : List Effect} {id : CallId}
    (gone : c.Gone id) (shift : c.Shift h es d) (r : AttemptResult) :
    (id, r) ∉ Moment.verdicts ⟨c, h, es, d⟩ := by
  rcases shift.waits_or_judges with waits | ⟨call, g, result, judges⟩
  · exact waits.not_given gone.made r
  · have left := gone.left call (by simp [judges.leaves])
    exact judges.not_given left.symm r

/-- An attempt waits for its result. It has told that it began and nothing else, and it has lost the
store if the session was reset in between. -/
structure Underway (ms between : List Moment) (c : Client) (a : Attempt) : Prop where
  pending : a ∈ c.attempts
  told : toldBy a.call ms = [.statusChanged .connecting .none]
  owns : c.store.isAttempt a.generation ↔ ¬ WasReset between

lemma Past.underway_begins {c : Client} {older : List Moment} {first : Moment}
    (past : Past (older ++ [first]) c) (begins : first.Begins) :
    Underway (older ++ [first]) [] c first.begun := by
  obtain ⟨before, step, rfl⟩ := past.last
  have opening := opening_of_begins step begins
  have shift := shift_of_step step
  rcases shift.opening opening with ⟨_, _, -, -, rejected⟩ | ⟨idle, underway, lined, told⟩
  · have same : first.after.store = first.before.store := by rw [rejected]
    obtain ⟨idle, underway⟩ := begins
    simp [same, idle] at underway
  · have calls := Happening.calls_opening opening
    have acts : first.actor? = some first.begun.call := actor_calls calls
    obtain ⟨role, -⟩ := before.orderly.sound.bare (.inl idle)
    refine ⟨by simp [lined, Moment.begun], ?_, ?_⟩
    · have unmade : doneBy first.begun.call older = [] := before.unmade (Nat.le_refl _)
      rw [toldBy_append, toldBy_acts acts, toldBy, unmade, ← role]
      exact told
    · have owned := Store.isAttempt_iff.2 ⟨rfl, underway⟩
      exact iff_of_true owned (by simp [WasReset])

/-- From its begin on an attempt is under way, until it has been given a result and is gone. -/
lemma Past.life {c : Client} {older between : List Moment} {first : Moment}
    (past : Past (older ++ first :: between) c) (begins : first.Begins) :
    Underway (older ++ first :: between) between c first.begun ∨
      (c.Gone first.begun.call ∧ ∃ m ∈ between, ∃ r, (first.begun.call, r) ∈ m.verdicts) := by
  induction between using List.reverseRecOn generalizing c with
  | nil => exact .inl (past.underway_begins begins)
  | append_singleton between m ih =>
    rw [← List.cons_append, ← List.append_assoc] at past ⊢
    obtain ⟨before, step, rfl⟩ := past.last
    rcases ih before with ⟨pending, told, owns⟩ | ⟨gone, m', member, r, given⟩
    · rcases before.attempt_step step pending with ⟨stays, silent, -⟩ | ⟨gone, r, judged, -⟩
      · refine .inl ⟨stays, ?_, ?_⟩
        · rw [toldBy_append, told]
          exact congrArg ([_] ++ ·) silent
        · rw [before.owns_step step pending stays, owns]
          simp [WasReset]
      · refine .inr ⟨gone, m, by simp, r, ?_⟩
        rw [show m.verdicts = _ from judged]
        exact .head _
    · exact .inr ⟨gone.shift (shift_of_step step), m', List.mem_append_left _ member, r, given⟩

/-- An attempt gets its result as in the table, and tells of it what stands there. -/
lemma Past.settled {ms : List Moment} {c : Client} {first : Moment} {between : List Moment}
    {last : Moment} {result : AttemptResult} (past : Past ms c)
    (course : Course ms first between last result) :
    ∃ news, last.before.Settles first.begun.generation last.happening result news ∧
      toldBy first.begun.call ms = .statusChanged .connecting .none :: news ∧
      (last.before.store.isAttempt first.begun.generation ↔ ¬ WasReset between) := by
  obtain ⟨⟨older, newer, rfl⟩, begins, given⟩ := course
  rw [← List.cons_append, ← List.append_assoc] at past ⊢
  obtain ⟨before, step, rest⟩ := past.moment
  rcases before.life begins with ⟨pending, told, owns⟩ | ⟨gone, -⟩
  · rcases before.attempt_step step pending with ⟨-, -, unjudged⟩ | ⟨gone, r, judged, settles⟩
    · exact absurd given (unjudged result)
    · rw [show last.verdicts = _ from judged, List.mem_singleton] at given
      obtain rfl := congrArg Prod.snd given
      refine ⟨_, settles, ?_, owns⟩
      -- Nothing was told before the begin, and nothing is told after the end.
      have after : toldBy first.begun.call newer = [] := by
        rw [toldBy, (rest.gone gone).2]
        rfl
      rw [List.append_cons, toldBy_append, toldBy_append, after, List.append_nil]
      exact congrArg (· ++ _) told
  · exact absurd given (gone.not_given (shift_of_step step) result)

lemma Past.rejected {ms : List Moment} {c : Client} (past : Past ms c) {m : Moment}
    (member : m ∈ ms) (opening : m.happening.isOpening) (out : ¬ m.Begins) :
    ∃ (reply : Reply) (e : ConnectionError),
      (m.before.isClosed ∧ e = .shutDown ∨
        m.before.store.status ≠ .disconnected ∧ e = .busy m.before.store.status) ∧
      doneBy m.before.nextCall ms = [reply.effect m.before.nextCall (.attempt (.error e))] := by
  obtain ⟨older, newer, rfl⟩ := List.append_of_mem member
  obtain ⟨before, step, rest⟩ := past.moment
  have shift := shift_of_step step
  rcases shift.opening opening with ⟨reply, e, why, told, away⟩ | ⟨idle, underway, -⟩
  · refine ⟨reply, e, why, ?_⟩
    have gone : m.after.Gone m.before.nextCall := by
      rw [away]
      exact ⟨Nat.lt_succ_self _,
        fun call member => Nat.ne_of_lt (before.numbered.below call member)⟩
    have acts := actor_calls (Happening.calls_opening opening)
    rw [List.append_cons, doneBy_append, doneBy_append, before.unmade (Nat.le_refl _),
      doneBy_acts acts, (rest.gone gone).2, told]
    rfl
  · exact absurd ⟨idle, underway⟩ out

lemma Past.answered {c d : Client} {older newer ns : List Moment} {first : Moment}
    (past : Past (older ++ first :: newer) c) (begins : first.Begins) (history : History c ns d)
    (enough : 3 * c.line.length ≤ ns.countP (·.happening.advances)) :
    ∃ between last result, Course (older ++ first :: (newer ++ ns)) first between last result := by
  have whole : Past (older ++ first :: (newer ++ ns)) d := by simpa using past.append history
  have made : first.begun.call < c.nextCall := by
    rcases past.life begins with underway | ⟨gone, -⟩
    · exact past.numbered.attempt_made underway.pending
    · exact gone.made
  -- It cannot wait any more, for the whole line has left since.
  have gone := history.leaves past.numbered made enough
  rcases whole.life begins with underway | ⟨-, m, member, r, given⟩
  · exact absurd underway.pending gone.not_mem
  · obtain ⟨between, rest, e⟩ := List.append_of_mem member
    exact ⟨between, m, r, ⟨older, rest, by rw [e]⟩, begins, given⟩

/-- An attempt that is refused when it has been reset already is told that it was refused. -/
lemma Past.refused_late {ms : List Moment} {c : Client} {first : Moment} {between : List Moment}
    {last : Moment} {result : AttemptResult} (past : Past ms c)
    (course : Course ms first between last result) (reset : WasReset between)
    (refuses : last.happening.refuses) :
    (∃ e, result = .error e ∧ e ≠ .cancelled) ∧
      toldBy first.begun.call ms = [.statusChanged .connecting .none] := by
  obtain ⟨news, settles, told, owns⟩ := past.settled course
  cases settles with
  | succeeds owned | fails owned => exact absurd reset (owns.1 owned)
  | cancelled _ accepts => simp [accepts] at refuses
  | refused _ _ other => exact ⟨⟨_, rfl, other⟩, told⟩

lemma Past.sameOutcome {ms : List Moment} {c : Client} (past : Past ms c)
    (accepts : ∀ first between last result, Course ms first between last result →
      WasReset between → last.happening.refuses = false) : SameOutcome ms := by
  constructor
  case cancelled =>
    intro first between last result course reset
    obtain ⟨news, settles, told, owns⟩ := past.settled course
    cases settles with
    | succeeds owned | fails owned => exact absurd reset (owns.1 owned)
    | cancelled => exact ⟨rfl, told⟩
    | refused _ refuses => simp [accepts _ _ _ _ course reset] at refuses
  case accepted =>
    intro first between last code course kept
    obtain ⟨news, settles, told, -⟩ := past.settled course
    cases settles with
    | succeeds => exact told
  case failed =>
    intro first between last e course kept
    obtain ⟨news, settles, told, owns⟩ := past.settled course
    cases settles with
    | fails _ other => exact ⟨other, told⟩
    | cancelled lost | refused lost => simp [owns.2 kept] at lost
  case rejected => exact fun m => past.rejected

/-- Caller and observers are told the same of every attempt, exactly if the core says no to none
that has been reset. One that it does say no to is told that, and its observers are told nothing.
Every attempt gets a result when the calls in the line have gone on often enough, and the first of
them can always go on. -/
theorem Past.sameOutcome_iff {ms : List Moment} {c : Client} (past : Past ms c) :
    (SameOutcome ms ↔
      ∀ first between last result, Course ms first between last result → WasReset between →
        last.happening.refuses = false) ∧
    (∀ first between last result, Course ms first between last result → WasReset between →
      last.happening.refuses →
        (∃ e, result = .error e ∧ e ≠ .cancelled) ∧
          toldBy first.begun.call ms = [.statusChanged .connecting .none]) ∧
    (∀ older first newer ns d, ms = older ++ first :: newer → first.Begins → History c ns d →
      3 * c.line.length ≤ ns.countP (·.happening.advances) →
        ∃ between last result, Course (ms ++ ns) first between last result) ∧
    (c.line ≠ [] → ∀ answer delay closing, (c.step? .turn).isSome ∨
      (c.step? (.opened answer delay)).isSome ∨ (c.step? (.closed closing)).isSome) := by
  refine ⟨⟨?_, past.sameOutcome⟩, fun _ _ _ _ => past.refused_late, ?_, past.orderly.goes_on⟩
  · intro same first between last result course reset
    by_contra refuses
    have late := past.refused_late course reset (by simpa using refuses)
    obtain ⟨⟨e, rfl, other⟩, -⟩ := late
    have cancelled := (same.cancelled _ _ _ _ course reset).1
    exact other (Except.error.inj cancelled)
  · rintro older first newer ns d rfl begins history enough
    obtain ⟨between, last, result, course⟩ := past.answered begins history enough
    refine ⟨between, last, result, ?_⟩
    rw [List.append_assoc, List.cons_append]
    exact course

/-- An attempt that the core accepts when it has been closed already, and takes back. -/
theorem same_outcome_of_late_session :
    ∃ ms c, Past ms c ∧ ms.flatMap (·.verdicts) = [(0, .error .cancelled)] ∧ SameOutcome ms := by
  have lived : (start {} {} {} 0 0).live?
      [.connect .caller "10.0.0.1" 27015, .turn, .disconnect, .opened (.ok true) fun _ => 0,
        .closed (.ok ()), .turn, .closed (.ok ())] = some (_, _) := rfl
  have past := Past.of_live lived
  refine ⟨_, _, past, rfl, (Past.sameOutcome_iff past).1.2 ?_⟩
  intro first between last result course _
  exact (show ∀ m ∈ _, m.happening.refuses = false by decide) last course.mem

/-- An attempt that the core refuses when it has been closed already is not told that it was
cancelled. -/
theorem refused_when_cancelled :
    ∃ ms c, Past ms c ∧
      ms.flatMap (·.verdicts) = [(0, .error (.refused "10.0.0.1" 27015))] ∧
      ¬ SameOutcome ms := by
  have lived : (start {} {} {} 0 0).live?
      [.connect .caller "10.0.0.1" 27015, .turn, .disconnect, .opened (.ok false) fun _ => 0] =
        some (_, _) := rfl
  have past := Past.of_live lived
  refine ⟨_, _, past, rfl, fun same => ?_⟩
  have cancelled := same.cancelled _ [_, _] _ _ ⟨⟨[], [], rfl⟩, ⟨rfl, rfl⟩, .head _⟩
    ⟨_, .tail _ (.head _), rfl⟩
  cases cancelled.1

end Client

end OnlinePlay
