import OnlinePlay.Proofs.Client.Inbound

/-!
# What a step can do

`Client.Shift` lists everything that a step can do to the session and to the lifecycle line, with
the conditions under which it does it, and `shift_of_step` says that there is nothing else. The
invariants of the client are proved by cases on `Shift`, and none of them opens `step?` again.

A step that neither opens nor closes anything, nor takes anything in, is `aside`: of it no more is
kept than that store and line stay as they are and the core is not asked to open or close.
-/

namespace OnlinePlay

/-- An attempt to reach a goal makes one store of another. -/
inductive Store.Opens (s : Store) : Goal → Store → Prop where
  | join {address : String} {port : UInt16} {g : Nat} {t : Store} :
    s.begin = .ok (g, t) →
    s.Opens (.join address port) t
  | host {port : UInt16} {draws : List (Fin 16)} {code : HostCode} {g : Nat} {t u : Store} :
    s.begin = .ok (g, t) →
    t.issueCode? draws = some (code, u) →
    s.Opens (.host port code) u

/-- Only a disconnected session can be opened, in its next generation. -/
lemma Store.Opens.inv {s t : Store} {goal : Goal} (opens : s.Opens goal t) :
    s.status = .disconnected ∧
      t = { s with
            generation := s.generation + 1
            status := .connecting
            lostWhileConnecting := false
            pendingCode := goal.code?.or s.pendingCode
            lastCode := goal.code?.or s.lastCode
            watch := ⟨.connecting, s.watch.version + 1⟩ } := by
  cases opens with
  | join begun =>
    obtain ⟨idle, rfl, rfl⟩ := begin_inv begun
    exact ⟨idle, rfl⟩
  | host begun issued =>
    obtain ⟨idle, rfl, rfl⟩ := begin_inv begun
    obtain rfl := issueCode_inv issued
    exact ⟨idle, rfl⟩

/-- What the core is asked when an aim has the turn. -/
def Aim.request : Aim → Request
  | .attempt _ goal => goal.request
  | .close _ => .disconnect

@[simp]
lemma deed_request (aim : Aim) :
    (Effect.asks aim.request).deed? = some (.asks aim.request) := by
  cases aim with
  | attempt g goal => cases goal <;> rfl
  | close forGood => rfl

namespace Happening

/-- Whether somebody wants a session to be opened. -/
def isOpening : Happening → Bool
  | connect .. | host .. => true
  | _ => false

/-- Whether something may open or close a session or change it in any other way. -/
def concernsSession : Happening → Bool
  | connect .. | host .. | disconnect | shutDown | turn | opened .. | closed _ | takeIn => true
  | _ => false

end Happening

namespace Client

/-- Whether what happens resets the store: the session is closed, or the client for good. -/
def resets (c : Client) : Happening → Bool
  | .disconnect => true
  | .shutDown => !c.isClosed
  | _ => false

/-- What a step keeps that does not concern the session. -/
structure Apart (c : Client) (es : List Effect) (d : Client) : Prop where
  store : d.store = c.store
  line : d.line = c.line
  closed : d.isClosed = c.isClosed
  calls : c.nextCall ≤ d.nextCall
  quiet : es.filterMap Effect.deed? = []

/-- How a step gets from one client to another. -/
inductive Shift (c : Client) : Happening → List Effect → Client → Prop where
  /-- Something that does not concern the session. -/
  | aside {h : Happening} {es : List Effect} {d : Client} :
    h.concernsSession = false →
    c.Apart es d →
    Shift c h es d
  /-- An attempt that is not let in. -/
  | rejected {h : Happening} {reply : Reply} {e : ConnectionError} :
    h.isOpening →
    (c.isClosed ∧ e = .shutDown ∨
      c.store.status ≠ .disconnected ∧ e = .busy c.store.status) →
    Shift c h [reply.effect c.nextCall (.attempt (.error e))] { c with nextCall := c.nextCall + 1 }
  /-- An attempt that opens a generation and takes its place in the line. -/
  | begun {h : Happening} {reply : Reply} {goal : Goal} {s : Store} {es : List Effect}
      {d : Client} :
    h.isOpening →
    c.isClosed = false →
    c.store.Opens goal s →
    d = { c with
          nextCall := c.nextCall + 1
          store := s
          line := c.line ++ [⟨c.nextCall, reply, .attempt s.generation goal, .waiting⟩] } →
    es = d.announce →
    Shift c h es d
  /-- The wish to close for good, once more. -/
  | repeated :
    c.isClosed →
    Shift c .shutDown [.returns c.nextCall .closed] { c with nextCall := c.nextCall + 1 }
  /-- The session is closed, perhaps for good. -/
  | reset {h : Happening} {forGood : Bool} {es : List Effect} {d : Client} :
    c.resets h →
    { c with isClosed := c.isClosed || forGood }.close .caller forGood = (d, es) →
    Shift c h es d
  /-- The first of the line asks the core. -/
  | asked {call : LifecycleCall} {rest : List LifecycleCall} :
    c.line = call :: rest →
    call.stage = .waiting →
    (∀ g goal, call.aim = .attempt g goal → c.store.isCurrent g) →
    Shift c .turn [.asks call.aim.request]
      { c with line := { call with stage := .calling } :: rest }
  /-- The first of the line has lost its generation while it waited. -/
  | passedOver {call : LifecycleCall} {rest : List LifecycleCall} {g : Nat} {goal : Goal} :
    c.line = call :: rest →
    call.stage = .waiting →
    call.aim = .attempt g goal →
    c.store.isCurrent g = false →
    Shift c .turn [call.effect (.attempt (.error .cancelled))] { c with line := rest }
  /-- The core has opened the session for the attempt that owns the store. -/
  | succeeded {call : LifecycleCall} {rest : List LifecycleCall} {g : Nat} {goal : Goal}
      {delay : Chore → Nat} {s : Store} {es : List Effect} {d : Client} :
    c.line = call :: rest →
    call.stage = .calling →
    call.aim = .attempt g goal →
    c.store.finish? g goal.role = some s →
    d = { c with
          store := s
          line := rest
          poller := (c.poller.start? c.now s.generation c.pollConfig delay).getD c.poller } →
    es = d.announce ++ [call.effect (.attempt (.ok goal.code?))] →
    Shift c (.opened (.ok true) delay) es d
  /-- The core has opened the session too late. -/
  | undone {call : LifecycleCall} {rest : List LifecycleCall} {g : Nat} {goal : Goal}
      {delay : Chore → Nat} :
    c.line = call :: rest →
    call.stage = .calling →
    call.aim = .attempt g goal →
    c.store.finish? g goal.role = none →
    Shift c (.opened (.ok true) delay) [.asks .disconnect]
      { c with line := { call with stage := .undoing } :: rest }
  /-- The core has not opened the session. -/
  | refused {call : LifecycleCall} {rest : List LifecycleCall} {g : Nat} {goal : Goal}
      {answer : Except NativeError Bool} {delay : Chore → Nat} {e : ConnectionError}
      {es : List Effect} {d : Client} :
    c.line = call :: rest →
    call.stage = .calling →
    call.aim = .attempt g goal →
    (answer = .ok false ∧ e = goal.refusal ∨ ∃ n, answer = .error n ∧ e = .ofNative n) →
    { c with line := rest }.fail call g e = (d, es) →
    Shift c (.opened answer delay) es d
  /-- The core has closed again what it had opened too late. -/
  | takenBack {call : LifecycleCall} {rest : List LifecycleCall} {g : Nat} {goal : Goal}
      {answer : Except NativeError Unit} {e : ConnectionError} {es : List Effect} {d : Client} :
    c.line = call :: rest →
    call.stage = .undoing →
    call.aim = .attempt g goal →
    e = (if c.store.isAttempt g then .lostWhileConnecting else .cancelled) →
    { c with line := rest }.fail call g e = (d, es) →
    Shift c (.closed answer) es d
  /-- The core has closed the session. -/
  | ended {call : LifecycleCall} {rest : List LifecycleCall} {forGood : Bool}
      {answer : Except NativeError Unit} {es : List Effect} {d : Client} :
    c.line = call :: rest →
    call.stage = .calling →
    call.aim = .close forGood →
    { c with line := rest }.endClose call.id call.reply forGood = (d, es) →
    Shift c (.closed answer) es d
  /-- The intake takes something in. -/
  | took {x : Inbound} {i : Intake} {es : List Effect} {d : Client} :
    c.intake.phase = .idle →
    c.intake.next? = some (x, i) →
    { c with intake := i }.receive x = (d, es) →
    Shift c .takeIn es d

/-! ## Answers to errands -/

/-- Once the core has been told something, the call returns or its line of chat goes on. -/
lemma told_inv {c d : Client} {id : CallId} {answer : Except NativeError Unit}
    {es : List Effect} (h : c.told? id answer = some (d, es)) :
    (d = c.endAwait id ∧ ∃ r, es = [.returns id (.errand r)]) ∨
    (es = [] ∧ ∃ text m, (id, Errand.chat text) ∈ c.errands ∧
      d = { c.endAwait id with
            intake := { c.intake with lines := c.intake.lines ++ [(id, m)] } }) := by
  simp only [told?] at h
  split at h
  case h_1 | h_2 | h_3 =>
    cases h
    exact .inl ⟨rfl, _, rfl⟩
  case h_4 text found =>
    split at h
    case isTrue =>
      cases h
      exact .inl ⟨rfl, _, rfl⟩
    case isFalse =>
      cases h
      have sending : (id, Errand.chat text) ∈ c.errands := by
        obtain ⟨_, _, errands, -⟩ := List.lookup_eq_some_iff.1 found
        rw [errands]
        exact List.mem_append_right _ (.head _)
      exact .inr ⟨rfl, text, _, sending, rfl⟩
  case h_5 => cases h

/-- Once a game file has been checked, the call returns or the game is started. -/
lemma checked_inv {c d : Client} {id : CallId}
    {answer : Except NativeError (Option (String × String))} {es : List Effect}
    (h : c.checked? id answer = some (d, es)) :
    (d = c.endAwait id ∧
      ((∃ v, es = [.returns id (.verdict v)]) ∨ ∃ r, es = [.returns id (.errand r)])) ∨
    (d = (c.endAwait id).await id .launch ∧ ∃ path, es = [.asks (.launchGame id path)]) := by
  simp only [checked?] at h
  split at h
  case h_1 =>
    cases h
    exact .inl ⟨rfl, .inl ⟨_, rfl⟩⟩
  case h_2 path _ =>
    split at h
    case isTrue =>
      cases h
      exact .inr ⟨rfl, path, rfl⟩
    case isFalse =>
      cases h
      exact .inl ⟨rfl, .inr ⟨_, rfl⟩⟩
  case h_3 => cases h

lemma launched_inv {c d : Client} {id : CallId} {answer : Except NativeError Bool}
    {es : List Effect} (h : c.launched? id answer = some (d, es)) :
    d = c.endAwait id ∧ ∃ r, es = [.returns id (.errand r)] := by
  simp only [launched?] at h
  split at h
  case h_1 =>
    cases h
    exact ⟨rfl, _, rfl⟩
  case h_2 => cases h

lemma listed_inv {c d : Client} {id : CallId} {exchange : Exchange} {es : List Effect}
    (h : c.listed? id exchange = some (d, es)) :
    d = c.endAwait id ∧ ∃ reply result, es = [Reply.effect reply id (.servers result)] := by
  rw [listed?] at h
  split at h
  case h_1 reply _ =>
    cases h
    exact ⟨rfl, reply, _, rfl⟩
  case h_2 => cases h

/-- A confirmation lets the intake go on, and at most tells that the game has started. -/
lemma confirmed_inv {c d : Client} {answer : Except NativeError Unit} {es : List Effect}
    (h : c.confirmed? answer = some (d, es)) :
    (∃ phase, d = { c with intake := { c.intake with phase } }) ∧
      (es = [] ∨ es = d.publish .gameStarted) := by
  rw [confirmed?] at h
  split at h
  case isTrue =>
    cases answer with
    | ok =>
      cases h
      exact ⟨⟨_, rfl⟩, .inr rfl⟩
    | error e =>
      cases h
      exact ⟨⟨_, rfl⟩, .inl rfl⟩
  case isFalse => cases h

lemma poll_inv {c d : Client} {chore : Chore} {es : List Effect}
    (h : c.poll? chore = some (d, es)) :
    (∃ poller, d = { c with poller }) ∧
      ∃ run, es = [.asks (.readRoster run)] ∨ es = [.asks (.drain run)] := by
  rw [poll?] at h
  split at h
  case h_1 run _ _ _ =>
    cases h
    refine ⟨⟨_, rfl⟩, run.number, ?_⟩
    cases chore with
    | roster => exact .inl rfl
    | drain => exact .inr rfl
  case h_2 => cases h

/-! ## Steps that do not concern the session -/

lemma Apart.refl (c : Client) : c.Apart [] c := ⟨rfl, rfl, rfl, Nat.le_refl _, rfl⟩

lemma apart_refuse (c : Client) (e : PlayError) : c.Apart (c.refuse e).2 (c.refuse e).1 :=
  ⟨rfl, rfl, rfl, Nat.le_succ _, rfl⟩

lemma apart_ask (c : Client) (e : Errand) (request : CallId → Request)
    (quiet : ∀ id, (Effect.asks (request id)).deed? = none) :
    c.Apart (c.ask e request).2 (c.ask e request).1 := by
  refine ⟨rfl, rfl, rfl, Nat.le_succ _, ?_⟩
  simp [ask, quiet]

lemma apart_order (c : Client) (request : CallId → Request)
    (quiet : ∀ id, (Effect.asks (request id)).deed? = none) :
    c.Apart (c.order request).2 (c.order request).1 := by
  rw [order]
  split
  · exact c.apart_ask _ _ quiet
  · exact ⟨rfl, rfl, rfl, Nat.le_succ _, rfl⟩

lemma apart_sendChat (c : Client) (text : String) :
    c.Apart (c.sendChat text).2 (c.sendChat text).1 := by
  rw [sendChat]
  repeat' split
  · exact c.apart_refuse _
  · exact c.apart_refuse _
  · exact c.apart_refuse _
  · exact c.apart_ask _ _ fun _ => rfl

lemma apart_setVisibility (c : Client) (visibility : Visibility) :
    c.Apart (c.setVisibility visibility).2 (c.setVisibility visibility).1 := by
  obtain ⟨store, line, closed, calls, quiet⟩ :=
    apart_order { c with settings := { c.settings with roomVisibility := visibility } }
      (.setVisibility · visibility) fun _ => rfl
  exact ⟨store, line, closed, calls, quiet⟩

lemma apart_launchGame (c : Client) (path : String) :
    c.Apart (c.launchGame path).2 (c.launchGame path).1 := by
  rw [launchGame]
  split
  · exact c.apart_ask _ _ fun _ => rfl
  · exact c.apart_refuse _

lemma apart_told {c d : Client} {id : CallId} {answer : Except NativeError Unit}
    {es : List Effect} (h : c.told? id answer = some (d, es)) : c.Apart es d := by
  obtain ⟨rfl, r, rfl⟩ | ⟨rfl, text, m, -, rfl⟩ := told_inv h
  · exact ⟨rfl, rfl, rfl, Nat.le_refl _, rfl⟩
  · exact ⟨rfl, rfl, rfl, Nat.le_refl _, rfl⟩

lemma apart_checked {c d : Client} {id : CallId}
    {answer : Except NativeError (Option (String × String))} {es : List Effect}
    (h : c.checked? id answer = some (d, es)) : c.Apart es d := by
  obtain ⟨rfl, ⟨v, rfl⟩ | ⟨r, rfl⟩⟩ | ⟨rfl, path, rfl⟩ := checked_inv h
  · exact ⟨rfl, rfl, rfl, Nat.le_refl _, rfl⟩
  · exact ⟨rfl, rfl, rfl, Nat.le_refl _, rfl⟩
  · exact ⟨rfl, rfl, rfl, Nat.le_refl _, rfl⟩

lemma apart_launched {c d : Client} {id : CallId} {answer : Except NativeError Bool}
    {es : List Effect} (h : c.launched? id answer = some (d, es)) : c.Apart es d := by
  obtain ⟨rfl, r, rfl⟩ := launched_inv h
  exact ⟨rfl, rfl, rfl, Nat.le_refl _, rfl⟩

lemma apart_listed {c d : Client} {id : CallId} {exchange : Exchange} {es : List Effect}
    (h : c.listed? id exchange = some (d, es)) : c.Apart es d := by
  obtain ⟨rfl, reply, result, rfl⟩ := listed_inv h
  exact ⟨rfl, rfl, rfl, Nat.le_refl _, by simp⟩

lemma apart_confirmed {c d : Client} {answer : Except NativeError Unit} {es : List Effect}
    (h : c.confirmed? answer = some (d, es)) : c.Apart es d := by
  obtain ⟨⟨phase, rfl⟩, rfl | rfl⟩ := confirmed_inv h
  · exact ⟨rfl, rfl, rfl, Nat.le_refl _, rfl⟩
  · exact ⟨rfl, rfl, rfl, Nat.le_refl _, deeds_publish _ _⟩

lemma apart_poll {c d : Client} {chore : Chore} {es : List Effect}
    (h : c.poll? chore = some (d, es)) : c.Apart es d := by
  obtain ⟨⟨poller, rfl⟩, run, rfl | rfl⟩ := poll_inv h
  · exact ⟨rfl, rfl, rfl, Nat.le_refl _, rfl⟩
  · exact ⟨rfl, rfl, rfl, Nat.le_refl _, rfl⟩

/-! ## Steps that do -/

/-- An attempt is let in exactly if the client is not closed and the store can be opened. -/
lemma begin_cases (c : Client) :
    (∃ e, c.begin = .error e ∧
      (c.isClosed ∧ e = .shutDown ∨
        c.store.status ≠ .disconnected ∧ e = .busy c.store.status)) ∨
    (c.isClosed = false ∧ ∃ g s, c.store.begin = .ok (g, s) ∧
      c.begin = .ok (g, { c with store := s })) := by
  rw [begin]
  split
  case isTrue closed => exact .inl ⟨_, rfl, .inl ⟨closed, rfl⟩⟩
  case isFalse isOpen =>
    split
    case h_1 busy =>
      refine .inl ⟨_, rfl, .inr ⟨?_, rfl⟩⟩
      intro idle
      simp [Store.begin, idle] at busy
    case h_2 g s begun => exact .inr ⟨by simpa using isOpen, g, s, begun, rfl⟩

lemma shift_connect (c : Client) (reply : Reply) (address : String) (port : UInt16) :
    c.Shift (.connect reply address port) (c.connect reply address port).2
      (c.connect reply address port).1 := by
  rw [connect]
  obtain ⟨e, rejected, why⟩ | ⟨isOpen, g, s, begun, let_in⟩ := c.takeCall.2.begin_cases
  · simp only [rejected]
    exact .rejected rfl why
  · simp only [let_in]
    have opens : c.store.Opens (.join address port) s := .join begun
    obtain ⟨-, rfl, rfl⟩ := Store.begin_inv begun
    exact .begun rfl isOpen opens rfl rfl

lemma shift_host {c d : Client} {reply : Reply} {port : UInt16} {draws : List (Fin 16)}
    {es : List Effect} (h : c.host? reply port draws = some (d, es)) :
    c.Shift (.host reply port draws) es d := by
  rw [host?] at h
  obtain ⟨e, rejected, why⟩ | ⟨isOpen, g, s, begun, let_in⟩ := c.takeCall.2.begin_cases
  · simp only [rejected] at h
    cases h
    exact .rejected rfl why
  · simp only [let_in] at h
    obtain ⟨⟨code, t⟩, issued, e⟩ := Option.map_eq_some_iff.1 h
    have opens : c.store.Opens (.host port code) t := .host begun issued
    obtain ⟨-, rfl, rfl⟩ := Store.begin_inv begun
    obtain rfl := Store.issueCode_inv issued
    cases e
    exact .begun rfl isOpen opens rfl rfl

lemma shift_disconnect (c : Client) :
    c.Shift .disconnect (c.close .caller false).2 (c.close .caller false).1 := by
  refine @Shift.reset c _ false _ _ rfl ?_
  simp

lemma shift_shutDown (c : Client) :
    c.Shift .shutDown (c.shutDown .caller).2 (c.shutDown .caller).1 := by
  rw [shutDown]
  split
  case isTrue closed => exact .repeated closed
  case isFalse isOpen =>
    refine @Shift.reset c _ true _ _ ?_ ?_
    · simpa [resets] using isOpen
    · simp

lemma shift_turn {c d : Client} {es : List Effect} (h : c.turn? = some (d, es)) :
    c.Shift .turn es d := by
  rw [turn?] at h
  split at h
  case h_1 => cases h
  case h_2 call rest line =>
    simp only at h
    split at h
    case h_1 g goal aim waiting =>
      split at h
      case isTrue current =>
        have request : goal.request = call.aim.request := by rw [aim]; rfl
        rw [request] at h
        cases h
        refine .asked line waiting ?_
        intro g' goal' aim'
        rw [aim] at aim'
        cases aim'
        exact current
      case isFalse stale =>
        cases h
        exact .passedOver line waiting aim (by simpa using stale)
    case h_2 forGood aim waiting =>
      have request : .disconnect = call.aim.request := by rw [aim]; rfl
      rw [request] at h
      cases h
      refine .asked line waiting ?_
      intro g' goal' aim'
      rw [aim] at aim'
      cases aim'
    case h_3 => cases h

lemma shift_opened {c d : Client} {answer : Except NativeError Bool} {delay : Chore → Nat}
    {es : List Effect} (h : c.opened? answer delay = some (d, es)) :
    c.Shift (.opened answer delay) es d := by
  rw [opened?] at h
  split at h
  case h_1 => cases h
  case h_2 call rest line =>
    simp only at h
    split at h
    case h_1 g goal aim calling =>
      split at h
      case h_1 =>
        rw [succeed] at h
        split at h
        case h_1 late =>
          cases h
          exact .undone line calling aim late
        case h_2 s finished =>
          cases h
          exact .succeeded line calling aim finished rfl rfl
      case h_2 =>
        exact .refused line calling aim (.inl ⟨rfl, rfl⟩) (Option.some.inj h)
      case h_3 e =>
        exact .refused line calling aim (.inr ⟨e, rfl, rfl⟩) (Option.some.inj h)
    case h_2 => cases h

lemma shift_closed {c d : Client} {answer : Except NativeError Unit} {es : List Effect}
    (h : c.closed? = some (d, es)) : c.Shift (.closed answer) es d := by
  rw [closed?] at h
  split at h
  case h_1 => cases h
  case h_2 call rest line =>
    simp only at h
    split at h
    case h_1 g goal aim undoing =>
      refine .takenBack line undoing aim rfl ?_
      rw [failUndone] at h
      split at h
      case isTrue owned => simpa [owned] using h
      case isFalse lost => simpa [lost] using h
    case h_2 forGood aim calling =>
      exact .ended line calling aim (Option.some.inj h)
    case h_3 => cases h

lemma shift_takeIn {c d : Client} {es : List Effect} (h : c.takeIn? = some (d, es)) :
    c.Shift .takeIn es d := by
  obtain ⟨x, i, idle, next, received⟩ := takeIn_inv h
  exact .took idle next received

/-- What can always happen has one outcome. -/
lemma outcome_eq {p : Client × List Effect} {d : Client} {es : List Effect}
    (h : some p = some (d, es)) : d = p.1 ∧ es = p.2 := by
  cases h
  exact ⟨rfl, rfl⟩

/-- A step does nothing but what `Shift` lists. -/
theorem shift_of_step {c d : Client} {h : Happening} {es : List Effect}
    (step : c.step? h = some (d, es)) : c.Shift h es d := by
  cases h with
  | connect reply address port =>
    obtain ⟨rfl, rfl⟩ := outcome_eq step
    exact c.shift_connect reply address port
  | host reply port draws => exact shift_host step
  | disconnect =>
    obtain ⟨rfl, rfl⟩ := outcome_eq step
    exact c.shift_disconnect
  | shutDown =>
    obtain ⟨rfl, rfl⟩ := outcome_eq step
    exact c.shift_shutDown
  | turn => exact shift_turn step
  | opened answer delay => exact shift_opened step
  | closed answer => exact shift_closed step
  | takeIn => exact shift_takeIn step
  | sendChat text =>
    obtain ⟨rfl, rfl⟩ := outcome_eq step
    exact .aside rfl (c.apart_sendChat text)
  | kick id | ban id =>
    obtain ⟨rfl, rfl⟩ := outcome_eq step
    exact .aside rfl (c.apart_order _ fun _ => rfl)
  | setVisibility visibility =>
    obtain ⟨rfl, rfl⟩ := outcome_eq step
    exact .aside rfl (c.apart_setVisibility visibility)
  | checkGame path | discover reply =>
    obtain ⟨rfl, rfl⟩ := outcome_eq step
    exact .aside rfl (c.apart_ask _ _ fun _ => rfl)
  | launchGame path =>
    obtain ⟨rfl, rfl⟩ := outcome_eq step
    exact .aside rfl (c.apart_launchGame path)
  | told call answer => exact .aside rfl (apart_told step)
  | checked call answer => exact .aside rfl (apart_checked step)
  | launched call answer => exact .aside rfl (apart_launched step)
  | listed call exchange => exact .aside rfl (apart_listed step)
  | confirmed answer => exact .aside rfl (apart_confirmed step)
  | poll chore => exact .aside rfl (apart_poll step)
  | editSettings | subscribe | unsubscribe | raised | notice | rosterRead | drained | elapse
  | setWall =>
    cases step
    exact .aside rfl ⟨rfl, rfl, rfl, Nat.le_refl _, rfl⟩

/-! ## What closing and failing leave behind -/

/-- Closing ends with a return, or with a request to the intake to stop. -/
lemma endClose_inv {c d : Client} {id : CallId} {reply : Reply} {forGood : Bool}
    {es : List Effect} (h : c.endClose id reply forGood = (d, es)) :
    (∃ stopper, d = { c with intake := { c.intake with stopper } }) ∧
      es = if forGood then [] else [reply.effect id .closed] := by
  rw [endClose] at h
  split at h
  case isTrue forGood =>
    cases h
    exact ⟨⟨_, rfl⟩, (if_pos forGood).symm⟩
  case isFalse forNow =>
    cases h
    exact ⟨⟨c.intake.stopper, rfl⟩, (if_neg forNow).symm⟩

lemma apart_endClose {c d : Client} {id : CallId} {reply : Reply} {forGood : Bool}
    {es : List Effect} (h : c.endClose id reply forGood = (d, es)) : c.Apart es d := by
  obtain ⟨⟨stopper, rfl⟩, rfl⟩ := endClose_inv h
  exact ⟨rfl, rfl, rfl, Nat.le_refl _, by cases forGood <;> simp⟩

/-- What is told of a reset. -/
def resetNews (c : Client) : List SessionEvent :=
  if c.store.status = .disconnected then []
  else
    [.statusChanged c.store.reset.status c.store.reset.role,
      .rosterUpdated c.store.reset.snapshot]

/-- Closing ends at once if there was no session, and else tells of the reset. -/
lemma close_snd {c d : Client} {reply : Reply} {forGood : Bool} {es : List Effect}
    (h : c.close reply forGood = (d, es)) :
    es = c.publishAll c.resetNews ++
      if c.store.status = .disconnected ∧ forGood = false then [reply.effect c.nextCall .closed]
      else [] := by
  rw [close] at h
  by_cases idle : c.store.status = .disconnected
  · simp only [takeCall, idle, if_true] at h
    obtain ⟨-, rfl⟩ := endClose_inv h
    cases forGood <;> simp [resetNews, idle, publishAll]
  · simp only [takeCall, idle, if_false] at h
    cases h
    simp [resetNews, idle, publishAll, announce, publish]

/-- Closing resets the store and stops the poller, and waits for its turn if there was a session. -/
lemma close_inv {c d : Client} {reply : Reply} {forGood : Bool} {es : List Effect}
    (h : c.close reply forGood = (d, es)) :
    d.store = c.store.reset ∧ d.poller = c.poller.stop ∧ d.isClosed = c.isClosed ∧
      d.nextCall = c.nextCall + 1 ∧
      d.line = (if c.store.status = .disconnected then c.line
        else c.line ++ [⟨c.nextCall, reply, .close forGood, .waiting⟩]) ∧
      es.filterMap Effect.deed? = [] := by
  have quiet : es.filterMap Effect.deed? = [] := by
    rw [close_snd h, List.filterMap_append, deeds_publishAll]
    split <;> simp
  rw [close] at h
  by_cases idle : c.store.status = .disconnected
  · simp only [takeCall, idle, if_true] at h
    obtain ⟨⟨stopper, rfl⟩, -⟩ := endClose_inv h
    exact ⟨rfl, rfl, rfl, rfl, (if_pos idle).symm, quiet⟩
  · simp only [takeCall, idle, if_false] at h
    cases h
    exact ⟨rfl, rfl, rfl, rfl, (if_neg idle).symm, quiet⟩

/-- Closing leaves what waits for the intake where it is, and the errands as well. -/
lemma close_waits {c d : Client} {reply : Reply} {forGood : Bool} {es : List Effect}
    (h : c.close reply forGood = (d, es)) :
    (∃ stopper, d.intake = { c.intake with stopper }) ∧ d.errands = c.errands := by
  rw [close] at h
  by_cases idle : c.store.status = .disconnected
  · simp only [takeCall, idle, if_true] at h
    obtain ⟨⟨stopper, rfl⟩, -⟩ := endClose_inv h
    exact ⟨⟨stopper, rfl⟩, rfl⟩
  · simp only [takeCall, idle, if_false] at h
    cases h
    exact ⟨⟨c.intake.stopper, rfl⟩, rfl⟩

/-- A failed attempt gives the store back if it still owns it, and tells so; else it does nothing
but return. -/
lemma fail_eq (c : Client) (call : LifecycleCall) (g : Nat) (e : ConnectionError) :
    c.fail call g e =
      ({ c with store := (c.store.abort? g).getD c.store },
        c.publishAll ((c.store.abort? g).elim [] fun s =>
          [.statusChanged s.status s.role, .connectionFailed e.message]) ++
        [call.effect (.attempt (.error e))]) := by
  rw [fail]
  cases c.store.abort? g <;> simp [publishAll, announce, publish]

lemma fail_inv {c d : Client} {call : LifecycleCall} {g : Nat} {e : ConnectionError}
    {es : List Effect} (h : c.fail call g e = (d, es)) :
    d = { c with store := (c.store.abort? g).getD c.store } ∧
      es.filterMap Effect.deed? = [.ends call.id] := by
  rw [fail_eq] at h
  cases h
  exact ⟨rfl, by simp [LifecycleCall.effect]⟩

/-! ## What becomes of the store -/

/-- How a step moves the store. -/
inductive Moves (c : Client) : Happening → Store → Prop where
  | stays {h : Happening} :
    c.resets h = false →
    h ≠ .takeIn →
    Moves c h c.store
  | opens {h : Happening} {goal : Goal} {s : Store} :
    h.isOpening →
    c.store.Opens goal s →
    Moves c h s
  | resets {h : Happening} :
    c.resets h →
    Moves c h c.store.reset
  | finishes {g : Nat} {role : Role} {delay : Chore → Nat} {s : Store} :
    c.store.finish? g role = some s →
    Moves c (.opened (.ok true) delay) s
  | aborts {h : Happening} {g : Nat} {s : Store} :
    c.resets h = false →
    h ≠ .takeIn →
    c.store.abort? g = some s →
    Moves c h s
  | hears {x : Inbound} {i : Intake} :
    c.intake.phase = .idle →
    c.intake.next? = some (x, i) →
    Moves c .takeIn (c.store.hear (clockText c.wall) x)

/-- What does not concern the session neither resets the store nor takes anything in. -/
lemma resets_aside (c : Client) {h : Happening} (aside : h.concernsSession = false) :
    c.resets h = false ∧ h ≠ .takeIn := by
  have other : h ≠ .takeIn := by
    rintro rfl
    cases aside
  refine ⟨?_, other⟩
  cases h with
  | disconnect | shutDown => cases aside
  | _ => rfl

/-- Who wants a session to be opened does not want it to be closed. -/
lemma resets_opening (c : Client) {h : Happening} (opening : h.isOpening) :
    c.resets h = false ∧ h ≠ .takeIn := by
  have other : h ≠ .takeIn := by
    rintro rfl
    cases opening
  refine ⟨?_, other⟩
  cases h with
  | disconnect | shutDown => cases opening
  | _ => rfl

/-- What does not concern the session leaves store and line alone. -/
lemma apart_of_aside {c d : Client} {h : Happening} {es : List Effect}
    (step : c.step? h = some (d, es)) (aside : h.concernsSession = false) : c.Apart es d := by
  cases shift_of_step step with
  | aside _ apart => exact apart
  | rejected opening | begun opening =>
    cases h with
    | connect | host => cases aside
    | _ => cases opening
  | reset resets => simp [(c.resets_aside aside).1] at resets
  | repeated | asked | passedOver | succeeded | undone | refused | takenBack | ended | took =>
    cases aside

lemma moves_fail {c d : Client} {h : Happening} {call : LifecycleCall}
    {rest : List LifecycleCall} {g : Nat} {e : ConnectionError} {es : List Effect}
    (fresh : c.resets h = false) (other : h ≠ .takeIn)
    (failed : { c with line := rest }.fail call g e = (d, es)) : c.Moves h d.store := by
  obtain ⟨rfl, -⟩ := fail_inv failed
  cases aborted : c.store.abort? g with
  | none => exact .stays fresh other
  | some s => exact .aborts fresh other aborted

/-- A step does nothing to the store but what `Moves` lists. -/
theorem Shift.moves {c d : Client} {h : Happening} {es : List Effect} (shift : c.Shift h es d) :
    c.Moves h d.store := by
  cases shift with
  | aside aside apart =>
    obtain ⟨fresh, other⟩ := c.resets_aside aside
    rw [apart.store]
    exact .stays fresh other
  | rejected calls =>
    obtain ⟨fresh, other⟩ := c.resets_opening calls
    exact .stays fresh other
  | begun calls _ opens client =>
    subst client
    exact .opens calls opens
  | repeated closed => exact .stays (by simp [Client.resets, closed]) (by simp)
  | reset resets closed =>
    obtain ⟨store, -⟩ := close_inv closed
    rw [store]
    exact .resets resets
  | asked | passedOver | undone => exact .stays rfl (by simp)
  | succeeded _ _ _ finished client =>
    subst client
    exact .finishes finished
  | refused _ _ _ _ failed | takenBack _ _ _ _ failed => exact moves_fail rfl (by simp) failed
  | ended _ _ _ ended =>
    rw [(apart_endClose ended).store]
    exact .stays rfl (by simp)
  | took idle next received =>
    obtain ⟨store, -⟩ := receive_inv received
    rw [store]
    exact .hears idle next

lemma moves_of_step {c d : Client} {h : Happening} {es : List Effect}
    (step : c.step? h = some (d, es)) : c.Moves h d.store :=
  (shift_of_step step).moves

/-- Where a store goes from `connecting`, and that its generation never goes back. -/
lemma Moves.status {c : Client} {h : Happening} {s : Store} (moves : c.Moves h s) :
    c.store.generation ≤ s.generation ∧
      (c.store.status = .connecting →
        s.status = .connecting ∨ s.status = .connected ∨ s.status = .disconnected) := by
  cases moves with
  | stays => exact ⟨Nat.le_refl _, .inl⟩
  | opens _ opens =>
    obtain ⟨-, e⟩ := opens.inv
    exact ⟨by simp [e], fun _ => .inl (by rw [e])⟩
  | resets =>
    rw [Store.reset_eq]
    exact ⟨Nat.le_succ _, fun _ => .inr (.inr rfl)⟩
  | finishes finished =>
    obtain ⟨-, -, -, e⟩ := Store.finish_inv finished
    exact ⟨by simp [e], fun _ => .inr (.inl (by rw [e]))⟩
  | aborts _ _ aborted =>
    obtain ⟨-, -, e⟩ := Store.abort_inv aborted
    exact ⟨by simp [e], fun _ => .inr (.inr (by rw [e]))⟩
  | @hears x =>
    obtain ⟨generation, same | ⟨isOpen, -⟩⟩ := c.store.hear_status (clockText c.wall) x
    · exact ⟨Nat.le_of_eq generation.symm, fun underway => .inl (same.trans underway)⟩
    · exact ⟨Nat.le_of_eq generation.symm, fun underway => by simp [isOpen] at underway⟩

/-- The generation of the store is opened by an attempt if the session was closed, and else by a
reset only. -/
lemma Moves.generation {c : Client} {h : Happening} {s : Store} (moves : c.Moves h s)
    (engaged : c.store.status ≠ .disconnected) :
    s.generation = if c.resets h then c.store.generation + 1 else c.store.generation := by
  cases moves with
  | stays fresh => simp [fresh]
  | opens _ opens => exact absurd opens.inv.1 engaged
  | resets resets => simp [resets, Store.reset_eq]
  | finishes finished =>
    obtain ⟨-, -, -, rfl⟩ := Store.finish_inv finished
    rfl
  | aborts fresh _ aborted =>
    obtain ⟨-, -, rfl⟩ := Store.abort_inv aborted
    simp [fresh]
  | @hears x => exact (c.store.hear_status (clockText c.wall) x).1

end Client

end OnlinePlay
