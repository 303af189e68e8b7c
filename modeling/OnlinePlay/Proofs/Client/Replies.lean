import OnlinePlay.Proofs.Client.Inbound
import OnlinePlay.Proofs.Client.History

/-!
# Replies make no difference

An outcome goes straight to the caller or, by way of the dispatcher, to a continuation, and this
makes no difference to anything else. If every call of a history is made as one that returns to its
caller (`Moment.direct`), the same happens at the same moments, and the callers are told just what
the continuations were given (`step_direct`, `Past.direct`).
-/

namespace OnlinePlay

/-! ## Calls that return to their callers -/

/-- The same call, returning to its caller. -/
def LifecycleCall.direct (call : LifecycleCall) : LifecycleCall := { call with reply := .caller }

/-- The same errand, returning to its caller. -/
def Errand.direct : Errand → Errand
  | listing _ => listing .caller
  | e => e

/-- The same effect, if the outcome goes to the caller. -/
def Effect.direct : Effect → Effect
  | dispatches (.outcome id o) => returns id o
  | e => e

/-- The same happening, if the outcome is to go to the caller. -/
def Happening.direct : Happening → Happening
  | connect _ address port => connect .caller address port
  | host _ port draws => host .caller port draws
  | discover _ => discover .caller
  | h => h

namespace Client

/-- The same client, if all its calls return to their callers. -/
def direct (c : Client) : Client :=
  { c with
    line := c.line.map LifecycleCall.direct
    errands := c.errands.map fun p => (p.1, p.2.direct) }

/-- The same step, if all calls return to their callers. -/
def directly (x : Client × List Effect) : Client × List Effect :=
  (x.1.direct, x.2.map Effect.direct)

end Client

/-- The same moment, if all calls return to their callers. -/
def Moment.direct (m : Moment) : Moment :=
  ⟨m.before.direct, m.happening.direct, m.effects.map Effect.direct, m.after.direct⟩

namespace Client

@[simp]
lemma direct_effect (r : Reply) (id : CallId) (o : Outcome) :
    (r.effect id o).direct = .returns id o := by
  cases r <;> rfl

lemma direct_outcome (call : LifecycleCall) (o : Outcome) :
    (call.effect o).direct = call.direct.effect o :=
  direct_effect _ _ _

@[simp]
lemma direct_publish (c : Client) (e : SessionEvent) :
    (c.publish e).map Effect.direct = c.publish e := by
  simp [publish, Effect.direct]

@[simp]
lemma direct_announce (c : Client) : c.announce.map Effect.direct = c.announce :=
  c.direct_publish _

@[simp]
lemma direct_publishAll (c : Client) (news : List SessionEvent) :
    (c.publishAll news).map Effect.direct = c.publishAll news := by
  simp [publishAll, List.map_flatMap]

/-! ## Opening and closing -/

lemma direct_enqueue (c : Client) (id : CallId) (reply : Reply) (aim : Aim) :
    (c.enqueue id reply aim).direct = c.direct.enqueue id .caller aim := by
  simp [enqueue, direct, LifecycleCall.direct]

lemma begin_direct (c : Client) :
    c.direct.begin = c.begin.map fun x => (x.1, x.2.direct) := by
  have store : c.direct.store = c.store := rfl
  have closed : c.direct.isClosed = c.isClosed := rfl
  rw [begin, begin, store, closed]
  split
  case isTrue => rfl
  case isFalse => cases c.store.begin <;> rfl

lemma connect_direct (c : Client) (reply : Reply) (address : String) (port : UInt16) :
    c.direct.connect .caller address port = directly (c.connect reply address port) := by
  have next : c.direct.takeCall = (c.takeCall.1, c.takeCall.2.direct) := rfl
  simp only [connect, next, begin_direct]
  cases c.takeCall.2.begin with
  | error e => simp [directly, Except.map, Reply.effect.eq_1]
  | ok x =>
    simp only [Except.map, directly, direct_announce, direct_enqueue]
    rfl

lemma host_direct (c : Client) (reply : Reply) (port : UInt16) (draws : List (Fin 16)) :
    c.direct.host? .caller port draws = (c.host? reply port draws).map directly := by
  have next : c.direct.takeCall = (c.takeCall.1, c.takeCall.2.direct) := rfl
  simp only [host?, next, begin_direct]
  cases c.takeCall.2.begin with
  | error e => simp [directly, Except.map, Reply.effect.eq_1]
  | ok x =>
    have store : x.2.direct.store = x.2.store := rfl
    simp only [Except.map, store, Option.map_map]
    cases x.2.store.issueCode? draws with
    | none => rfl
    | some y =>
      simp only [Option.map_some, Function.comp_apply, directly, direct_announce, direct_enqueue]
      rfl

lemma endClose_direct (c : Client) (id : CallId) (reply : Reply) (forGood : Bool) :
    c.direct.endClose id .caller forGood = directly (c.endClose id reply forGood) := by
  cases forGood with
  | true => rfl
  | false => simp [endClose, directly, Reply.effect.eq_1]

lemma close_direct (c : Client) (forGood : Bool) :
    c.direct.close .caller forGood = directly (c.close .caller forGood) := by
  have store : c.direct.store = c.store := rfl
  by_cases idle : c.store.status = .disconnected
  · simp only [close, takeCall, store, idle, if_true]
    exact endClose_direct { c.takeCall.2 with store := c.store.reset, poller := c.poller.stop }
      _ .caller forGood
  · simp only [close, takeCall, store, idle, if_false, directly, List.map_append, direct_announce,
      direct_publish, direct_enqueue]
    rfl

lemma shutDown_direct (c : Client) :
    c.direct.shutDown .caller = directly (c.shutDown .caller) := by
  have closed : c.direct.isClosed = c.isClosed := rfl
  simp only [shutDown, closed]
  split
  case isTrue => rfl
  case isFalse => exact close_direct { c with isClosed := true } true

lemma fail_direct (c : Client) (call : LifecycleCall) (g : Nat) (e : ConnectionError) :
    c.direct.fail call.direct g e = directly (c.fail call g e) := by
  have store : c.direct.store = c.store := rfl
  simp only [fail, store]
  cases c.store.abort? g with
  | none => simp [directly, direct_outcome]
  | some s =>
    simp only [directly, List.map_append, direct_announce, direct_publish, List.map_cons,
      List.map_nil, direct_outcome]
    rfl

lemma failUndone_direct (c : Client) (call : LifecycleCall) (g : Nat) :
    c.direct.failUndone call.direct g = directly (c.failUndone call g) := by
  have store : c.direct.store = c.store := rfl
  simp only [failUndone, store]
  split <;> exact c.fail_direct call g _

lemma turn_direct (c : Client) : c.direct.turn? = c.turn?.map directly := by
  have line : c.direct.line = c.line.map LifecycleCall.direct := rfl
  have store : c.direct.store = c.store := rfl
  simp only [turn?, line, store]
  cases c.line with
  | nil => rfl
  | cons call rest =>
    obtain ⟨id, reply, aim, stage⟩ := call
    cases aim with
    | attempt g goal =>
      cases stage with
      | waiting =>
        simp only [List.map_cons, LifecycleCall.direct]
        split
        · rfl
        · simp only [Option.map_some, directly, List.map_cons, List.map_nil, direct_outcome]
          rfl
      | calling | undoing => rfl
    | close forGood => cases stage <;> rfl

lemma succeed_direct (c : Client) (call : LifecycleCall) (rest : List LifecycleCall) (g : Nat)
    (goal : Goal) (delay : Chore → Nat) :
    c.direct.succeed call.direct (rest.map LifecycleCall.direct) g goal delay =
      directly (c.succeed call rest g goal delay) := by
  have store : c.direct.store = c.store := rfl
  simp only [succeed, store]
  cases c.store.finish? g goal.role with
  | none => rfl
  | some s =>
    simp only [directly, List.map_append, direct_announce, List.map_cons, List.map_nil,
      direct_outcome]
    rfl

lemma opened_direct (c : Client) (answer : Except NativeError Bool) (delay : Chore → Nat) :
    c.direct.opened? answer delay = (c.opened? answer delay).map directly := by
  have line : c.direct.line = c.line.map LifecycleCall.direct := rfl
  simp only [opened?, line]
  cases c.line with
  | nil => rfl
  | cons call rest =>
    obtain ⟨id, reply, aim, stage⟩ := call
    have failed (g : Nat) (e : ConnectionError) :=
      congrArg some (fail_direct { c with line := rest } ⟨id, reply, aim, stage⟩ g e)
    cases aim with
    | close forGood => rfl
    | attempt g goal =>
      cases stage with
      | waiting | undoing => rfl
      | calling =>
        rcases answer with e | accepted
        · exact failed g _
        · cases accepted with
          | true => exact congrArg some (c.succeed_direct _ rest g goal delay)
          | false => exact failed g _

lemma closed_direct (c : Client) : c.direct.closed? = c.closed?.map directly := by
  have line : c.direct.line = c.line.map LifecycleCall.direct := rfl
  simp only [closed?, line]
  cases c.line with
  | nil => rfl
  | cons call rest =>
    obtain ⟨id, reply, aim, stage⟩ := call
    cases aim with
    | close forGood =>
      cases stage with
      | waiting | undoing => rfl
      | calling => exact congrArg some (endClose_direct { c with line := rest } id reply forGood)
    | attempt g goal =>
      cases stage with
      | waiting | calling => rfl
      | undoing =>
        exact congrArg some
          (failUndone_direct { c with line := rest } ⟨id, reply, .attempt g goal, .undoing⟩ g)

/-! ## Taking in -/

lemma direct_response (c : Client) (x : Inbound) :
    (c.response x).map Effect.direct = c.response x := by
  cases x with
  | stop id => simp [response, Effect.direct]
  | line | report => rfl
  | callback e =>
    rw [response]
    split <;> rfl

lemma receive_direct (c : Client) (x : Inbound) : c.direct.receive x = directly (c.receive x) := by
  refine Prod.ext ?_ ?_
  · cases x with
    | stop id => rfl
    | line id m =>
      have isOpen : c.direct.isConnected = c.isConnected := rfl
      simp only [receive, receiveLine_fst, receiveMessage_fst, directly, isOpen]
      split <;> rfl
    | callback e =>
      have store : c.direct.store = c.store := rfl
      cases e <;> cases status : c.store.status <;>
        simp only [receive, receiveCallback, store, status, receivePlayer_fst, receiveLeave_fst,
          receiveMessage_fst, receiveLoss_fst, directly] <;>
        rfl
    | report r =>
      have fits : c.direct.accepts r = c.accepts r := rfl
      simp only [receive, receiveReport_fst, directly, fits]
      split <;> rfl
  · rw [directly, receive_snd, receive_snd, List.map_append, direct_publishAll, direct_response]
    rfl

lemma takeIn_direct (c : Client) : c.direct.takeIn? = c.takeIn?.map directly := by
  have intake : c.direct.intake = c.intake := rfl
  rw [takeIn_eq, takeIn_eq, intake]
  split
  case isTrue =>
    cases c.intake.next? with
    | none => rfl
    | some next => exact congrArg some (receive_direct { c with intake := next.2 } next.1)
  case isFalse => rfl

/-! ## Errands -/

lemma lookup_direct (c : Client) (id : CallId) :
    c.direct.errands.lookup id = (c.errands.lookup id).map Errand.direct := by
  change (c.errands.map fun p => (p.1, p.2.direct)).lookup id = _
  induction c.errands with
  | nil => rfl
  | cons p errands ih =>
    obtain ⟨call, e⟩ := p
    rw [List.map_cons, List.lookup_cons, List.lookup_cons, ih]
    cases id == call <;> rfl

lemma direct_endAwait (c : Client) (id : CallId) :
    (c.endAwait id).direct = c.direct.endAwait id := by
  simp [endAwait, direct, List.filter_map, Function.comp_def]

lemma direct_await (c : Client) (id : CallId) (e : Errand) :
    (c.await id e).direct = c.direct.await id e.direct := by
  simp [await, direct]

lemma ask_direct (c : Client) (e : Errand) (request : CallId → Request) :
    c.direct.ask e.direct request = directly (c.ask e request) := by
  simp only [ask, takeCall, directly, direct_await]
  rfl

lemma order_direct (c : Client) (request : CallId → Request) :
    c.direct.order request = directly (c.order request) := by
  have hosts : c.direct.isConnectedHost = c.isConnectedHost := rfl
  simp only [order, hosts]
  split
  · exact c.ask_direct .order request
  · rfl

lemma sendChat_direct (c : Client) (text : String) :
    c.direct.sendChat text = directly (c.sendChat text) := by
  have closed : c.direct.isClosed = c.isClosed := rfl
  have isOpen : c.direct.isConnected = c.isConnected := rfl
  simp only [sendChat, closed, isOpen]
  repeat' split
  · rfl
  · rfl
  · rfl
  · exact c.ask_direct (.chat text) _

lemma launchGame_direct (c : Client) (path : String) :
    c.direct.launchGame path = directly (c.launchGame path) := by
  have isOpen : c.direct.isConnected = c.isConnected := rfl
  simp only [launchGame, isOpen]
  split
  · exact c.ask_direct (.checkToLaunch path) _
  · rfl

lemma told_direct (c : Client) (id : CallId) (answer : Except NativeError Unit) :
    c.direct.told? id answer = (c.told? id answer).map directly := by
  have phase : c.direct.intake.phase = c.intake.phase := rfl
  simp only [told?, lookup_direct, phase, ← direct_endAwait]
  cases c.errands.lookup id with
  | none => rfl
  | some e =>
    cases e with
    | check | checkToLaunch | launch | listing => rfl
    | order => cases answer <;> rfl
    | chat text =>
      cases answer with
      | error e => rfl
      | ok =>
        simp only [Option.map_some, Errand.direct]
        split <;> rfl

lemma checked_direct (c : Client) (id : CallId)
    (answer : Except NativeError (Option (String × String))) :
    c.direct.checked? id answer = (c.checked? id answer).map directly := by
  simp only [checked?, lookup_direct, ← direct_endAwait]
  cases c.errands.lookup id with
  | none => rfl
  | some e =>
    cases e with
    | chat | order | launch | listing | check => rfl
    | checkToLaunch path =>
      simp only [Option.map_some, Errand.direct]
      split
      · simp only [Option.map_some, directly, direct_await]
        rfl
      · rfl

lemma launched_direct (c : Client) (id : CallId) (answer : Except NativeError Bool) :
    c.direct.launched? id answer = (c.launched? id answer).map directly := by
  simp only [launched?, lookup_direct, ← direct_endAwait]
  cases c.errands.lookup id with
  | none => rfl
  | some e => cases e <;> rfl

lemma listed_direct (c : Client) (id : CallId) (exchange : Exchange) :
    c.direct.listed? id exchange = (c.listed? id exchange).map directly := by
  simp only [listed?, lookup_direct, ← direct_endAwait]
  cases c.errands.lookup id with
  | none => rfl
  | some e =>
    cases e with
    | listing reply =>
      simp only [Option.map_some, Errand.direct, directly, List.map_cons, List.map_nil,
        direct_effect]
      rfl
    | chat | order | check | checkToLaunch | launch => rfl

/-! ## Everything else -/

lemma confirmed_direct (c : Client) (answer : Except NativeError Unit) :
    c.direct.confirmed? answer = (c.confirmed? answer).map directly := by
  have phase : c.direct.intake.phase = c.intake.phase := rfl
  simp only [confirmed?, phase]
  split
  case isTrue =>
    cases answer with
    | error e => rfl
    | ok =>
      simp only [Option.map_some, directly, direct_publish]
      rfl
  case isFalse => rfl

lemma poll_direct (c : Client) (chore : Chore) :
    c.direct.poll? chore = (c.poll? chore).map directly := by
  have poller : c.direct.poller = c.poller := rfl
  have now : c.direct.now = c.now := rfl
  have store : c.direct.store = c.store := rfl
  simp only [poll?, poller, now, store]
  cases c.poller.run with
  | none => rfl
  | some run =>
    cases c.poller.wake? chore c.now c.store.status c.store.revision with
    | none => rfl
    | some woken => cases chore <;> rfl

/-! ## Steps and histories -/

/-- A step does the same if all calls return to their callers, and tells these what it would else
have given to continuations. -/
theorem step_direct (c : Client) (h : Happening) :
    c.direct.step? h.direct = (c.step? h).map directly := by
  cases h with
  | connect reply address port => exact congrArg some (c.connect_direct reply address port)
  | host reply port draws => exact c.host_direct reply port draws
  | disconnect => exact congrArg some (c.close_direct false)
  | shutDown => exact congrArg some c.shutDown_direct
  | turn => exact c.turn_direct
  | opened answer delay => exact c.opened_direct answer delay
  | closed answer => exact c.closed_direct
  | takeIn => exact c.takeIn_direct
  | sendChat text => exact congrArg some (c.sendChat_direct text)
  | kick id => exact congrArg some (c.order_direct _)
  | ban id => exact congrArg some (c.order_direct _)
  | setVisibility visibility =>
    exact congrArg some
      (order_direct { c with settings := { c.settings with roomVisibility := visibility } } _)
  | checkGame path => exact congrArg some (c.ask_direct .check _)
  | discover reply => exact congrArg some (c.ask_direct (.listing reply) _)
  | launchGame path => exact congrArg some (c.launchGame_direct path)
  | told call answer => exact c.told_direct call answer
  | checked call answer => exact c.checked_direct call answer
  | launched call answer => exact c.launched_direct call answer
  | listed call exchange => exact c.listed_direct call exchange
  | confirmed answer => exact c.confirmed_direct answer
  | poll chore => exact c.poll_direct chore
  | editSettings | subscribe | unsubscribe | raised | notice | rosterRead | drained | elapse
  | setWall => rfl

lemma Past.direct {ms : List Moment} {c : Client} (past : Past ms c) :
    Past (ms.map Moment.direct) c.direct := by
  refine past.induct (motive := fun ms c => Past (ms.map Moment.direct) c.direct) ?start ?step
  case start =>
    intro settings pollConfig lobby now wall
    exact ⟨settings, pollConfig, lobby, now, wall, .nil⟩
  case step =>
    intro ms c h es d _ past step
    have same := c.step_direct h
    rw [step] at same
    rw [List.map_append]
    exact past.snoc same

end Client

end OnlinePlay
