import OnlinePlay.Proofs.Client.Attempts
import OnlinePlay.Proofs.Client.Passage

/-!
# Calls that send a line of chat

Such a call asks the core, waits until the core has sent the line, and then until the intake has
taken it in. `ChatStage` says how far a call is, and `handles_of_step` that a step either passes it
by or brings it on in one of the four ways that `Advances` lists.

The moments of a call are thus few, and `ChatCourse` lists them in their order. `Past.course` says
that in every past they are these and no others: nothing is done for a call before it is made or
after it has returned.
-/

namespace OnlinePlay

/-! ## What belongs to a call -/

/-- The call that a request belongs to, if it names one. -/
def Request.call? : Request → Option CallId
  | sendMessage call _ | kick call _ | ban call _ | setVisibility call _ | checkGame call _
  | launchGame call _ | listServers call => some call
  | connect .. | host _ | disconnect | confirmGame | readRoster _ | drain _ => none

/-- Whether an effect belongs to a call: it asks for something in its name, or returns from it as
from an errand. -/
def Effect.isOf (id : CallId) : Effect → Bool
  | asks r => r.call? = some id
  | returns call (.errand _) => call = id
  | _ => false

/-- Whether the core has done what it was told for a call. -/
def Happening.answers (id : CallId) : Happening → Bool
  | told call _ => call = id
  | _ => false

/-- Whether a moment belongs to a call: the core answers it, or it asks for something or returns. -/
def Moment.isOf (id : CallId) (m : Moment) : Bool :=
  m.happening.answers id || m.effects.any (·.isOf id)

lemma Moment.isOf_of_effect {id : CallId} {m : Moment} {e : Effect} (said : e ∈ m.effects)
    (mine : e.isOf id) : m.isOf id := by
  have belongs : m.effects.any (·.isOf id) := List.any_eq_true.2 ⟨e, said, mine⟩
  simp [Moment.isOf, belongs]

lemma Moment.isOf_of_returns {id : CallId} {m : Moment} {r : Except PlayError Bool}
    (returned : .returns id (.errand r) ∈ m.effects) : m.isOf id :=
  isOf_of_effect returned (by simp [Effect.isOf])

/-- How far a call is that sends a line of chat. -/
inductive ChatStage where
  /-- It has not been made yet, or has returned. -/
  | away
  /-- The core is sending the line. -/
  | sending (text : String)
  /-- The line waits for the intake. -/
  | sent (m : ChatMessage)

namespace ChatStage

/-- The errands that wait for the core. -/
def errands (id : CallId) : ChatStage → List (CallId × Errand)
  | sending text => [(id, .chat text)]
  | _ => []

/-- The lines that wait for the intake. -/
def lines (id : CallId) : ChatStage → List (CallId × ChatMessage)
  | sent m => [(id, m)]
  | _ => []

end ChatStage

namespace Client

/-- A call is at a stage: just its errand waits for the core, or just its line for the intake. -/
structure AtStage (id : CallId) (stage : ChatStage) (c : Client) : Prop where
  errands : c.errands.filter (·.1 = id) = stage.errands id
  lines : c.intake.lines.filter (·.1 = id) = stage.lines id

/-- What a step keeps that has nothing to do with a call. -/
structure PassesBy (id : CallId) (c : Client) (es : List Effect) (d : Client) : Prop where
  errands : d.errands.filter (·.1 = id) = c.errands.filter (·.1 = id)
  lines : d.intake.lines.filter (·.1 = id) = c.intake.lines.filter (·.1 = id)
  silent : es.any (·.isOf id) = false

/-- How a moment brings a call on. -/
inductive Advances (id : CallId) (m : Moment) : ChatStage → ChatStage → Prop where
  /-- The core has sent the line, which gets its name and its time now. -/
  | sent {text : String} :
    m.happening = .told id (.ok ()) →
    m.effects = [] →
    Advances id m (.sending text)
      (.sent ⟨m.before.settings.username, text, clockText m.before.wall⟩)
  | failed {text : String} {answer : Except NativeError Unit} {e : PlayError} :
    m.happening = .told id answer →
    m.effects = [.returns id (.errand (.error e))] →
    Advances id m (.sending text) .away
  /-- The intake takes the line in. -/
  | echoed {x : ChatMessage} {d : Client} :
    m.happening = .takeIn →
    m.after.store = m.before.store.hear (clockText m.before.wall) (.line id x) →
    m.effects = d.publishAll (m.before.store.tell (clockText m.before.wall) (.line id x)) ++
      [.returns id (.errand (.ok true))] →
    Advances id m (.sent x) .away
  /-- The intake stops before it has come to the line. -/
  | dropped {x : ChatMessage} {stopper : CallId} :
    m.happening = .takeIn →
    m.after.store = m.before.store →
    (id, x) ∈ m.before.intake.lines →
    m.effects = m.before.intake.lines.map (fun p => .returns p.1 (.errand (.error .shutDown))) ++
      [.returns stopper .closed] →
    Advances id m (.sent x) .away

/-! ## Steps that pass a call by -/

variable {id : CallId}

lemma PassesBy.atStage {c d : Client} {es : List Effect} {stage : ChatStage}
    (passes : PassesBy id c es d) (before : c.AtStage id stage) : d.AtStage id stage :=
  ⟨passes.errands.trans before.errands, passes.lines.trans before.lines⟩

lemma PassesBy.of_eq {c d : Client} {es : List Effect} (errands : d.errands = c.errands)
    (lines : d.intake.lines = c.intake.lines) (silent : es.any (·.isOf id) = false) :
    PassesBy id c es d :=
  ⟨by rw [errands], by rw [lines], silent⟩

lemma passesBy_refuse {c : Client} (other : c.nextCall ≠ id) (e : PlayError) :
    PassesBy id c (c.refuse e).2 (c.refuse e).1 :=
  .of_eq rfl rfl (by simp [refuse, takeCall, Effect.isOf, other])

lemma passesBy_ask {c : Client} (other : c.nextCall ≠ id) (e : Errand)
    {request : CallId → Request} (named : ∀ call, (request call).call? = some call) :
    PassesBy id c (c.ask e request).2 (c.ask e request).1 := by
  refine ⟨?_, rfl, by simp [ask, takeCall, Effect.isOf, named, other]⟩
  simp [ask, takeCall, await, List.filter_append, other]

lemma passesBy_order {c : Client} (other : c.nextCall ≠ id) {request : CallId → Request}
    (named : ∀ call, (request call).call? = some call) :
    PassesBy id c (c.order request).2 (c.order request).1 := by
  rw [order]
  split
  · exact passesBy_ask other _ named
  · exact .of_eq rfl rfl (by simp [takeCall, Effect.isOf, other])

lemma passesBy_sendChat {c : Client} (other : c.nextCall ≠ id) (text : String) :
    PassesBy id c (c.sendChat text).2 (c.sendChat text).1 := by
  rw [sendChat]
  repeat' split
  · exact passesBy_refuse other _
  · exact passesBy_refuse other _
  · exact passesBy_refuse other _
  · exact passesBy_ask other _ fun _ => rfl

lemma passesBy_setVisibility {c : Client} (other : c.nextCall ≠ id) (visibility : Visibility) :
    PassesBy id c (c.setVisibility visibility).2 (c.setVisibility visibility).1 := by
  let shown := { c with settings := { c.settings with roomVisibility := visibility } }
  have passes : PassesBy id shown (shown.order (.setVisibility · visibility)).2
      (shown.order (.setVisibility · visibility)).1 :=
    @passesBy_order id shown other (.setVisibility · visibility) fun _ => rfl
  exact ⟨passes.errands, passes.lines, passes.silent⟩

lemma nextCall_order (c : Client) (request : CallId → Request) :
    (c.order request).1.nextCall = c.nextCall + 1 := by
  rw [order]
  split <;> rfl

lemma nextCall_sendChat (c : Client) (text : String) :
    (c.sendChat text).1.nextCall = c.nextCall + 1 := by
  rw [sendChat]
  repeat' split
  all_goals rfl

lemma nextCall_launchGame (c : Client) (path : String) :
    (c.launchGame path).1.nextCall = c.nextCall + 1 := by
  rw [launchGame]
  split <;> rfl

lemma passesBy_launchGame {c : Client} (other : c.nextCall ≠ id) (path : String) :
    PassesBy id c (c.launchGame path).2 (c.launchGame path).1 := by
  rw [launchGame]
  split
  · exact passesBy_ask other _ fun _ => rfl
  · exact passesBy_refuse other _

/-! ## Answers of the core -/

lemma lookup_eq_head {α : Type} (l : List (CallId × α)) (id : CallId) :
    l.lookup id = (l.filter (·.1 = id)).head?.map (·.2) := by
  induction l with
  | nil => rfl
  | cons p l ih =>
    obtain ⟨call, a⟩ := p
    by_cases same : call = id
    · simp [same]
    · have differs : (id == call) = false := by simpa using Ne.symm same
      simp [List.lookup_cons, differs, same, ih]

/-- A call that sends a line of chat has no other errand. -/
lemma AtStage.lookup {c : Client} {stage : ChatStage} (before : c.AtStage id stage) {e : Errand}
    (found : c.errands.lookup id = some e) : ∃ text, stage = .sending text ∧ e = .chat text := by
  rw [lookup_eq_head, before.errands] at found
  cases stage with
  | sending text => exact ⟨text, rfl, (Option.some.inj found).symm⟩
  | away | sent => cases found

/-- The core has answered something else for a call than a line of chat. -/
lemma AtStage.other {c : Client} {stage : ChatStage} (before : c.AtStage id stage) {call : CallId}
    (waits : c.errands.lookup call ≠ none)
    (unsaid : ∀ text, c.errands.lookup call ≠ some (.chat text)) : call ≠ id := by
  rintro rfl
  cases found : c.errands.lookup call with
  | none => exact waits found
  | some e =>
    obtain ⟨text, -, rfl⟩ := before.lookup found
    exact unsaid text found

lemma errands_endAwait (c : Client) (call id : CallId) :
    (c.endAwait call).errands.filter (·.1 = id) =
      if call = id then [] else c.errands.filter (·.1 = id) := by
  rw [endAwait, List.filter_filter]
  split
  case isTrue same => simp [same]
  case isFalse other =>
    refine List.filter_congr fun p _ => ?_
    by_cases mine : p.1 = id <;> simp [mine, Ne.symm other]

/-- What becomes of a line of chat that the core has sent, or failed to send. -/
lemma told_chat {c d : Client} {text : String} {answer : Except NativeError Unit}
    {es : List Effect} (sending : c.errands.lookup id = some (.chat text))
    (h : c.told? id answer = some (d, es)) :
    (d = c.endAwait id ∧ ∃ e, es = [.returns id (.errand (.error e))]) ∨
      (answer = .ok () ∧ es = [] ∧
        d = { c.endAwait id with
              intake := { c.intake with
                lines := c.intake.lines ++
                  [(id, ⟨c.settings.username, text, clockText c.wall⟩)] } }) := by
  simp only [told?, sending] at h
  cases answer with
  | error e =>
    cases h
    exact .inl ⟨rfl, _, rfl⟩
  | ok =>
    simp only at h
    split at h
    case isTrue =>
      cases h
      exact .inl ⟨rfl, _, rfl⟩
    case isFalse =>
      cases h
      exact .inr ⟨rfl, rfl, rfl⟩

lemma advances_told {c d : Client} {stage : ChatStage} {answer : Except NativeError Unit}
    {es : List Effect} (before : c.AtStage id stage) (h : c.told? id answer = some (d, es)) :
    ∃ next, Advances id ⟨c, .told id answer, es, d⟩ stage next ∧ d.AtStage id next := by
  have gone : (c.endAwait id).errands.filter (·.1 = id) = [] :=
    (errands_endAwait c id id).trans (if_pos rfl)
  cases found : c.errands.lookup id with
  | none => simp [told?, found] at h
  | some e =>
    obtain ⟨text, rfl, rfl⟩ := before.lookup found
    obtain ⟨rfl, e, rfl⟩ | ⟨rfl, rfl, rfl⟩ := told_chat found h
    · exact ⟨.away, .failed rfl rfl, gone, before.lines⟩
    · refine ⟨_, .sent rfl rfl, gone, ?_⟩
      rw [List.filter_append, before.lines]
      simp [ChatStage.lines]

lemma passesBy_told {c d : Client} {call : CallId} {answer : Except NativeError Unit}
    {es : List Effect} (other : call ≠ id) (h : c.told? call answer = some (d, es)) :
    PassesBy id c es d := by
  obtain ⟨rfl, r, rfl⟩ | ⟨rfl, text, m, -, rfl⟩ := told_inv h
  · refine ⟨?_, rfl, by simp [Effect.isOf, other]⟩
    rw [errands_endAwait, if_neg other]
  · refine ⟨?_, ?_, rfl⟩
    · exact (errands_endAwait c call id).trans (if_neg other)
    · simp [List.filter_append, other]

lemma passesBy_checked {c d : Client} {stage : ChatStage} {call : CallId}
    {answer : Except NativeError (Option (String × String))} {es : List Effect}
    (before : c.AtStage id stage) (h : c.checked? call answer = some (d, es)) :
    PassesBy id c es d := by
  have other : call ≠ id := before.other (fun found => by simp [checked?, found] at h)
    fun text found => by simp [checked?, found] at h
  obtain ⟨rfl, ⟨v, rfl⟩ | ⟨r, rfl⟩⟩ | ⟨rfl, path, rfl⟩ := checked_inv h
  · exact ⟨(errands_endAwait c call id).trans (if_neg other), rfl, by simp [Effect.isOf]⟩
  · exact ⟨(errands_endAwait c call id).trans (if_neg other), rfl, by simp [Effect.isOf, other]⟩
  · refine ⟨?_, rfl, by simp [Effect.isOf, Request.call?, other]⟩
    rw [await, List.filter_append, errands_endAwait, if_neg other]
    simp [other]

lemma passesBy_launched {c d : Client} {stage : ChatStage} {call : CallId}
    {answer : Except NativeError Bool} {es : List Effect} (before : c.AtStage id stage)
    (h : c.launched? call answer = some (d, es)) : PassesBy id c es d := by
  have other : call ≠ id := before.other (fun found => by simp [launched?, found] at h)
    fun text found => by simp [launched?, found] at h
  obtain ⟨rfl, r, rfl⟩ := launched_inv h
  exact ⟨(errands_endAwait c call id).trans (if_neg other), rfl, by simp [Effect.isOf, other]⟩

lemma passesBy_listed {c d : Client} {stage : ChatStage} {call : CallId} {exchange : Exchange}
    {es : List Effect} (before : c.AtStage id stage) (h : c.listed? call exchange = some (d, es)) :
    PassesBy id c es d := by
  have other : call ≠ id := before.other (fun found => by simp [listed?, found] at h)
    fun text found => by simp [listed?, found] at h
  obtain ⟨rfl, reply, result, rfl⟩ := listed_inv h
  refine ⟨(errands_endAwait c call id).trans (if_neg other), rfl, ?_⟩
  cases reply <;> rfl

/-! ## Everything else -/

@[simp]
lemma isOf_publishAll (c : Client) (news : List SessionEvent) (id : CallId) :
    (c.publishAll news).any (·.isOf id) = false := by
  simp [publishAll, publish, Effect.isOf]

@[simp]
lemma isOf_announce (c : Client) (id : CallId) : c.announce.any (·.isOf id) = false := by
  simp [announce, publish, Effect.isOf]

@[simp]
lemma isOf_attempt (r : Reply) (call id : CallId)
    (result : Except ConnectionError (Option HostCode)) :
    (r.effect call (.attempt result)).isOf id = false := by
  cases r <;> rfl

@[simp]
lemma isOf_closed (r : Reply) (call id : CallId) : (r.effect call .closed).isOf id = false := by
  cases r <;> rfl

/-- What the intake takes in does not concern a call, unless it is its line, or the intake stops
while its line waits. -/
lemma handles_takeIn {c d : Client} {stage : ChatStage} {es : List Effect}
    (before : c.AtStage id stage) (h : c.takeIn? = some (d, es)) :
    PassesBy id c es d ∨
      ∃ next, Advances id ⟨c, .takeIn, es, d⟩ stage next ∧ d.AtStage id next := by
  obtain ⟨x, i, -, next, received⟩ := takeIn_inv h
  obtain ⟨store, -⟩ := receive_inv received
  have errands := receive_errands received
  have said : es = ({ c with intake := i }.receive x).2 := by rw [received]
  rw [receive_snd] at said
  cases Intake.offers_of_next next with
  | @stop stopper =>
    cases received
    -- All lines that wait are dropped; it matters whether the one of the call is among them.
    cases stage with
    | away | sending =>
      have none : ∀ p ∈ c.intake.lines, p.1 ≠ id := by
        simpa using List.filter_eq_nil_iff.1 before.lines
      refine .inl ⟨rfl, before.lines.symm, ?_⟩
      simpa [Effect.isOf] using none
    | sent m =>
      have waits : (id, m) ∈ c.intake.lines := by
        have mine : (id, m) ∈ c.intake.lines.filter (·.1 = id) := by
          rw [before.lines]
          exact .head _
        exact (List.mem_filter.1 mine).1
      exact .inr ⟨.away, .dropped rfl rfl waits rfl, before.errands, rfl⟩
  | @line call m lines waits =>
    obtain ⟨-, left⟩ := receive_waits received (by simp)
    have others := before.lines
    rw [waits, List.filter_cons] at others
    by_cases mine : call = id
    · subst mine
      cases stage with
      | away | sending => simp [ChatStage.lines] at others
      | sent x =>
        obtain ⟨rfl, none⟩ : m = x ∧ lines.filter (·.1 = call) = [] := by
          simpa [ChatStage.lines] using others
        refine .inr ⟨.away, .echoed rfl store said, ?_, ?_⟩
        · rw [errands]
          exact before.errands
        · rw [left]
          exact none
    · refine .inl ⟨by rw [errands], ?_, ?_⟩
      · rw [left, waits, List.filter_cons]
        simp [mine]
      · rw [said, List.any_append, isOf_publishAll]
        simp [response, Effect.isOf, mine]
  | callback waits =>
    obtain ⟨-, left⟩ := receive_waits received (by simp)
    refine .inl (.of_eq errands left ?_)
    rw [said, List.any_append, isOf_publishAll, response]
    split <;> rfl
  | report _ waits =>
    obtain ⟨-, left⟩ := receive_waits received (by simp)
    refine .inl (.of_eq errands left ?_)
    rw [said, List.any_append, isOf_publishAll]
    rfl

/-- What does not concern the session passes a call by, unless the core answers it. -/
lemma handles_aside {c d : Client} {stage : ChatStage} {h : Happening} {es : List Effect}
    (before : c.AtStage id stage) (other : c.nextCall ≤ id → d.nextCall ≤ id)
    (step : c.step? h = some (d, es)) (aside : h.concernsSession = false) :
    (h.answers id = false ∧ PassesBy id c es d) ∨
      ∃ next, Advances id ⟨c, h, es, d⟩ stage next ∧ d.AtStage id next := by
  have later (next : d.nextCall = c.nextCall + 1) : c.nextCall ≠ id := by
    rintro rfl
    have unmade := other (Nat.le_refl _)
    rw [next] at unmade
    exact Nat.not_succ_le_self _ unmade
  cases h with
  | connect | host | disconnect | shutDown | turn | opened | closed | takeIn => cases aside
  | sendChat text =>
    obtain ⟨rfl, rfl⟩ := outcome_eq step
    exact .inl ⟨rfl, passesBy_sendChat (later (c.nextCall_sendChat text)) text⟩
  | kick player | ban player =>
    obtain ⟨rfl, rfl⟩ := outcome_eq step
    exact .inl ⟨rfl, passesBy_order (later (c.nextCall_order _)) fun _ => rfl⟩
  | setVisibility visibility =>
    obtain ⟨rfl, rfl⟩ := outcome_eq step
    exact .inl ⟨rfl, passesBy_setVisibility (later (nextCall_order _ _)) visibility⟩
  | checkGame path | discover reply =>
    obtain ⟨rfl, rfl⟩ := outcome_eq step
    exact .inl ⟨rfl, passesBy_ask (later rfl) _ fun _ => rfl⟩
  | launchGame path =>
    obtain ⟨rfl, rfl⟩ := outcome_eq step
    exact .inl ⟨rfl, passesBy_launchGame (later (c.nextCall_launchGame path)) path⟩
  | told call answer =>
    by_cases mine : call = id
    · subst mine
      exact .inr (advances_told before step)
    · exact .inl ⟨by simp [Happening.answers, mine], passesBy_told mine step⟩
  | checked call answer => exact .inl ⟨rfl, passesBy_checked before step⟩
  | launched call answer => exact .inl ⟨rfl, passesBy_launched before step⟩
  | listed call exchange => exact .inl ⟨rfl, passesBy_listed before step⟩
  | confirmed answer =>
    obtain ⟨⟨phase, rfl⟩, rfl | rfl⟩ := confirmed_inv step
    · exact .inl ⟨rfl, .of_eq rfl rfl rfl⟩
    · exact .inl ⟨rfl, .of_eq rfl rfl (by simp [publish, Effect.isOf])⟩
  | poll chore =>
    obtain ⟨⟨poller, rfl⟩, run, rfl | rfl⟩ := poll_inv step
    · exact .inl ⟨rfl, .of_eq rfl rfl rfl⟩
    · exact .inl ⟨rfl, .of_eq rfl rfl rfl⟩
  | raised event =>
    cases step
    refine .inl ⟨rfl, .of_eq rfl ?_ rfl⟩
    simp only [Intake.raise]
    split <;> rfl
  | rosterRead run answer =>
    obtain ⟨rfl, rfl⟩ := outcome_eq step
    exact .inl ⟨rfl, .of_eq rfl (c.still_rosterRead run answer).lines rfl⟩
  | editSettings | subscribe | unsubscribe | notice | drained | elapse | setWall =>
    cases step
    exact .inl ⟨rfl, .of_eq rfl rfl rfl⟩

/-- What opens and closes sessions passes by every call that sends a line. -/
lemma Shift.passesBy {c d : Client} {h : Happening} {es : List Effect} (shift : c.Shift h es d)
    (concerns : h.concernsSession) (other : h ≠ .takeIn) : PassesBy id c es d := by
  cases shift with
  | aside aside => simp [aside] at concerns
  | rejected | passedOver => exact .of_eq rfl rfl (by simp [LifecycleCall.effect])
  | begun _ _ _ client told =>
    subst client told
    exact .of_eq rfl rfl (by simp)
  | repeated | undone => exact .of_eq rfl rfl rfl
  | reset _ closed =>
    obtain ⟨⟨stopper, intake⟩, errands⟩ := close_waits closed
    refine .of_eq errands (by rw [intake]) ?_
    rw [close_snd closed, List.any_append, isOf_publishAll]
    split <;> simp
  | @asked call =>
    have unnamed : call.aim.request.call? = none := by
      cases call.aim with
      | attempt g goal => cases goal <;> rfl
      | close => rfl
    exact .of_eq rfl rfl (by simp [Effect.isOf, unnamed])
  | succeeded _ _ _ _ client told =>
    subst client told
    exact .of_eq rfl rfl (by simp [LifecycleCall.effect])
  | refused _ _ _ _ failed | takenBack _ _ _ _ failed =>
    rw [fail_eq] at failed
    cases failed
    exact .of_eq rfl rfl (by simp [LifecycleCall.effect])
  | ended _ _ _ ended =>
    obtain ⟨⟨stopper, rfl⟩, rfl⟩ := endClose_inv ended
    refine .of_eq rfl rfl ?_
    split <;> simp
  | took => exact absurd rfl other

/-- A step that does not make a call passes it by, or brings it on as `Advances` lists. -/
theorem handles_of_step {c d : Client} {stage : ChatStage} {h : Happening} {es : List Effect}
    (before : c.AtStage id stage) (other : c.nextCall ≤ id → d.nextCall ≤ id)
    (step : c.step? h = some (d, es)) :
    (h.answers id = false ∧ PassesBy id c es d) ∨
      ∃ next, Advances id ⟨c, h, es, d⟩ stage next ∧ d.AtStage id next := by
  cases concerns : h.concernsSession with
  | false => exact handles_aside before other step concerns
  | true =>
    have unanswered : h.answers id = false := by
      cases h <;> first | rfl | cases concerns
    by_cases takesIn : h = .takeIn
    · subst takesIn
      exact (handles_takeIn before step).imp (⟨rfl, ·⟩) fun advances => advances
    · exact .inl ⟨unanswered, (shift_of_step step).passesBy concerns takesIn⟩

/-! ## The moments of a call -/

lemma Advances.isOf {m : Moment} {stage next : ChatStage} (advances : Advances id m stage next) :
    m.isOf id := by
  cases advances with
  | sent answered | failed answered => simp [Moment.isOf, answered, Happening.answers]
  | echoed _ _ effects => exact Moment.isOf_of_returns (r := .ok true) (by simp [effects])
  | dropped _ _ waits effects =>
    refine Moment.isOf_of_returns (r := .error .shutDown) ?_
    rw [effects]
    exact List.mem_append_left _ (List.mem_map.2 ⟨_, waits, rfl⟩)

lemma PassesBy.isOf {c d : Client} {h : Happening} {es : List Effect}
    (unanswered : h.answers id = false) (passes : PassesBy id c es d) :
    Moment.isOf id ⟨c, h, es, d⟩ = false := by
  simp [Moment.isOf, unanswered, passes.silent]

/-- Some moments bring a call on, one after the other. -/
inductive Leads (id : CallId) (stage : ChatStage) : List Moment → ChatStage → Prop where
  | nil : Leads id stage [] stage
  | snoc {ms : List Moment} {m : Moment} {next last : ChatStage} :
    Leads id stage ms next →
    Advances id m next last →
    Leads id stage (ms ++ [m]) last

/-- Once a call has been made, its moments bring it on. -/
lemma History.leads {c d : Client} {ms : List Moment} {stage : ChatStage}
    (history : History c ms d) (made : id < c.nextCall) (before : c.AtStage id stage) :
    id < d.nextCall ∧ ∃ next, Leads id stage (ms.filter (·.isOf id)) next ∧ d.AtStage id next := by
  induction history with
  | nil => exact ⟨made, stage, .nil, before⟩
  | @snoc ms d e h es _ step ih =>
    obtain ⟨made, next, leads, before⟩ := ih
    have later := (shift_of_step step).line_cases.1
    refine ⟨Nat.lt_of_lt_of_le made later, ?_⟩
    have other : d.nextCall ≤ id → e.nextCall ≤ id := fun unmade =>
      absurd made (Nat.not_lt.2 unmade)
    rw [List.filter_append]
    rcases handles_of_step before other step with ⟨unanswered, passes⟩ | ⟨last, advances, after⟩
    · have apart := passes.isOf unanswered (h := h)
      refine ⟨next, ?_, passes.atStage before⟩
      simpa [apart] using leads
    · refine ⟨last, ?_, after⟩
      simpa [advances.isOf] using leads.snoc advances

/-- Before a call has been made, no moment belongs to it. -/
lemma Past.unheard {ms : List Moment} {c : Client} (past : Past ms c) (unmade : c.nextCall ≤ id) :
    c.AtStage id .away ∧ ms.filter (·.isOf id) = [] := by
  refine past.induct (motive := fun ms c => c.nextCall ≤ id →
    c.AtStage id .away ∧ ms.filter (·.isOf id) = []) ?start ?step unmade
  case start => exact fun _ _ _ _ _ _ => ⟨⟨rfl, rfl⟩, rfl⟩
  case step =>
    intro ms c h es d _ ih step unmade
    have later := (shift_of_step step).line_cases.1
    obtain ⟨before, none⟩ := ih (Nat.le_trans later unmade)
    obtain ⟨unanswered, passes⟩ | ⟨_, advances, -⟩ :=
      handles_of_step before (fun _ => unmade) step
    · have apart := passes.isOf unanswered (h := h)
      refine ⟨passes.atStage before, ?_⟩
      simp [none, apart]
    · cases advances

/-- The moments of a call that sends a line of chat, in their order. -/
inductive ChatCourse (id : CallId) (text : String) (first : Moment) : List Moment → Prop where
  | refused {e : PlayError} :
    first.effects = [.returns id (.errand (.error e))] →
    ChatCourse id text first [first]
  | asks :
    first.effects = [.asks (.sendMessage id text)] →
    ChatCourse id text first [first]
  | failed {told : Moment} :
    first.effects = [.asks (.sendMessage id text)] →
    Advances id told (.sending text) .away →
    ChatCourse id text first [first, told]
  | sent {told : Moment} {x : ChatMessage} :
    first.effects = [.asks (.sendMessage id text)] →
    Advances id told (.sending text) (.sent x) →
    ChatCourse id text first [first, told]
  | ended {told last : Moment} {x : ChatMessage} :
    first.effects = [.asks (.sendMessage id text)] →
    Advances id told (.sending text) (.sent x) →
    Advances id last (.sent x) .away →
    ChatCourse id text first [first, told, last]

lemma Leads.of_away {ms : List Moment} {next : ChatStage} (leads : Leads id .away ms next) :
    ms = [] ∧ next = .away := by
  induction leads with
  | nil => exact ⟨rfl, rfl⟩
  | snoc _ advances ih =>
    obtain ⟨-, rfl⟩ := ih
    cases advances

/-- No moment brings a call back to where the core is sending its line. -/
lemma Leads.sending {text text' : String} {ms : List Moment}
    (leads : Leads id (.sending text) ms (.sending text')) : ms = [] ∧ text' = text := by
  cases leads with
  | nil => exact ⟨rfl, rfl⟩
  | snoc _ last => cases last

lemma Leads.sent {text : String} {x : ChatMessage} {ms : List Moment}
    (leads : Leads id (.sending text) ms (.sent x)) :
    ∃ told, ms = [told] ∧ Advances id told (.sending text) (.sent x) := by
  cases leads with
  | @snoc ms told next _ leads last =>
    cases next with
    | away | sent => cases last
    | sending =>
      obtain ⟨rfl, rfl⟩ := leads.sending
      exact ⟨told, rfl, last⟩

/-- The core is asked once, answers once, and the line is taken in once. -/
lemma Leads.course {text : String} {first : Moment} {ms : List Moment} {next : ChatStage}
    (asks : first.effects = [.asks (.sendMessage id text)])
    (leads : Leads id (.sending text) ms next) : ChatCourse id text first (first :: ms) := by
  cases next with
  | sending =>
    obtain ⟨rfl, -⟩ := leads.sending
    exact .asks asks
  | sent x =>
    obtain ⟨told, rfl, sent⟩ := leads.sent
    exact .sent asks sent
  | away =>
    cases leads with
    | @snoc _ last next _ leads ends =>
      cases next with
      | away => cases ends
      | sending =>
        obtain ⟨rfl, rfl⟩ := leads.sending
        exact .failed asks ends
      | sent x =>
        obtain ⟨told, rfl, sent⟩ := leads.sent
        exact .ended asks sent ends

/-- A call that sends a line of chat asks the core or is refused at once. -/
lemma AtStage.made {c d : Client} {text : String} {es : List Effect}
    (before : c.AtStage c.nextCall .away) (step : c.step? (.sendChat text) = some (d, es)) :
    (∃ e, es = [.returns c.nextCall (.errand (.error e))] ∧ d.AtStage c.nextCall .away) ∨
      (es = [.asks (.sendMessage c.nextCall text)] ∧ d.AtStage c.nextCall (.sending text)) := by
  obtain ⟨rfl, rfl⟩ := outcome_eq step
  rw [sendChat]
  repeat' split
  · exact .inl ⟨_, rfl, before.errands, before.lines⟩
  · exact .inl ⟨_, rfl, before.errands, before.lines⟩
  · exact .inl ⟨_, rfl, before.errands, before.lines⟩
  · refine .inr ⟨rfl, ?_, before.lines⟩
    simp only [ask, takeCall, await, List.filter_append, before.errands]
    simp [ChatStage.errands]

/-- The moments that belong to a call which sends a line of chat are those of its course. -/
theorem Past.course {c : Client} {older newer : List Moment} {first : Moment} {text : String}
    (past : Past (older ++ first :: newer) c) (sends : first.happening = .sendChat text) :
    ChatCourse first.before.nextCall text first
      ((older ++ first :: newer).filter (·.isOf first.before.nextCall)) := by
  obtain ⟨earlier, step, later⟩ := past.moment
  obtain ⟨before, none⟩ := earlier.unheard (Nat.le_refl _)
  rw [sends] at step
  have made : first.before.nextCall < first.after.nextCall := by
    obtain ⟨same, -⟩ := outcome_eq step
    rw [same, nextCall_sendChat]
    exact Nat.lt_succ_self _
  rw [List.filter_append, none, List.nil_append]
  rcases before.made step with ⟨e, effects, after⟩ | ⟨effects, after⟩
  · have mine : first.isOf first.before.nextCall := by simp [Moment.isOf, effects, Effect.isOf]
    obtain ⟨-, next, leads, -⟩ := later.leads made after
    rw [List.filter_cons_of_pos mine, leads.of_away.1]
    exact .refused effects
  · have mine : first.isOf first.before.nextCall := by
      simp [Moment.isOf, effects, Effect.isOf, Request.call?]
    obtain ⟨-, next, leads, -⟩ := later.leads made after
    rw [List.filter_cons_of_pos mine]
    exact leads.course effects

lemma Advances.answered {m : Moment} {text : String} {next : ChatStage}
    (advances : Advances id m (.sending text) next) : ∃ answer, m.happening = .told id answer := by
  cases advances with
  | sent answered | failed answered => exact ⟨_, answered⟩

lemma Advances.inv {m : Moment} {text : String} {x : ChatMessage}
    (advances : Advances id m (.sending text) (.sent x)) :
    m.happening = .told id (.ok ()) ∧ m.effects = [] ∧
      x = ⟨m.before.settings.username, text, clockText m.before.wall⟩ := by
  cases advances with
  | sent answered effects => exact ⟨answered, effects, rfl⟩

/-- A call returns when it is refused, when the core has failed, or when the line has been waiting
for the intake. -/
lemma ChatCourse.returned {text : String} {first last : Moment} {ms : List Moment}
    (course : ChatCourse id text first ms) (member : last ∈ ms) {r : Except PlayError Bool}
    (returned : .returns id (.errand r) ∈ last.effects) :
    ((∃ e, r = .error e) ∧
      (ms = [first] ∨ ∃ told, ms = [first, told] ∧ Advances id told (.sending text) .away)) ∨
      ∃ told x, ms = [first, told, last] ∧ first.effects = [.asks (.sendMessage id text)] ∧
        Advances id told (.sending text) (.sent x) ∧ Advances id last (.sent x) .away := by
  cases course with
  | @refused e effects =>
    obtain rfl := List.mem_singleton.1 member
    exact .inl ⟨⟨e, by simpa [effects] using returned⟩, .inl rfl⟩
  | asks effects =>
    obtain rfl := List.mem_singleton.1 member
    simp [effects] at returned
  | @failed told effects fails =>
    obtain rfl | rfl : last = first ∨ last = told := by simpa using member
    · simp [effects] at returned
    · refine .inl ⟨?_, .inr ⟨last, rfl, fails⟩⟩
      cases fails with
      | @failed _ _ e _ effects => exact ⟨e, by simpa [effects] using returned⟩
  | @sent told x effects sent =>
    obtain rfl | rfl : last = first ∨ last = told := by simpa using member
    · simp [effects] at returned
    · simp [sent.inv] at returned
  | @ended told end' x effects sent ends =>
    obtain rfl | rfl | rfl : last = first ∨ last = told ∨ last = end' := by simpa using member
    · simp [effects] at returned
    · simp [sent.inv] at returned
    · exact .inr ⟨told, x, rfl, effects, sent, ends⟩

end Client

end OnlinePlay
