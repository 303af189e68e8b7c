import OnlinePlay.Proofs.Client.Asides
import OnlinePlay.Proofs.Client.Attempts

/-!
# Shutting down

A client that is told to shut down goes through two states. At first it is `Closing`: it lets no
attempt in any more and its store is blank, but calls that were made before may still be in the line
and messages in the intake. None of them can open the session again, since each of these attempts
has lost its generation, and nothing that comes in changes a disconnected store.

The call that shuts down returns only when the intake has stopped, because it is the intake that
ends it (`returned_inv`). From then on the client is `Inert`: what a step then says is no event.
-/

namespace OnlinePlay

/-- Whether an effect tells somebody of an event. -/
def Effect.publishes : Effect → Bool
  | .broadcasts _ | .dispatches (.event ..) => true
  | _ => false

@[simp]
lemma publishes_outcome (r : Reply) (id : CallId) (o : Outcome) :
    (r.effect id o).publishes = false := by
  cases r <;> rfl

/-- Whether somebody wants the client to be closed for good. -/
def Happening.isShutDown : Happening → Bool
  | shutDown => true
  | _ => false

lemma isShutDown_aside {h : Happening} (aside : h.concernsSession = false) :
    h.isShutDown = false := by
  cases h <;> first | rfl | cases aside

lemma isShutDown_opening {h : Happening} (opening : h.isOpening) : h.isShutDown = false := by
  cases h <;> first | rfl | cases opening

/-- The first call to shut down has been made and has returned. -/
def HasShutDown (ms : List Moment) : Prop :=
  ∃ older first newer, ms = older ++ first :: newer ∧
    older.any (·.happening.isShutDown) = false ∧ first.happening.isShutDown ∧
    ∃ m ∈ first :: newer, .returns first.before.nextCall .closed ∈ m.effects

namespace Store

/-- A store without a session and without anything that belongs to one. -/
structure Blank (s : Store) : Prop where
  status : s.status = .disconnected
  role : s.role = .none
  roster : s.roster = .empty
  playerCount : s.playerCount = 0
  chat : s.chat.messages = []
  hostCode : s.hostCode = none

lemma blank_reset (s : Store) : s.reset.Blank := by
  rw [reset_eq]
  constructor <;> rfl

/-- A blank store has no attempt that could fail. -/
lemma Blank.abort {s : Store} (blank : s.Blank) (g : Nat) : s.abort? g = none :=
  abort_eq_none_iff.2 fun owns => by simp [blank.status] at owns

end Store

namespace Client

/-! ## A client that is closed -/

/-- Shutting down is closing for good, except that the client is closed before it. -/
lemma shutDown_inv {c d : Client} {es : List Effect} (isOpen : c.isClosed = false)
    (step : c.step? .shutDown = some (d, es)) :
    { c with isClosed := true }.close .caller true = (d, es) := by
  simpa [step?, shutDown, isOpen] using step

/-- A client is closed by being told to shut down, and for good. -/
lemma closed_of_step {c d : Client} {h : Happening} {es : List Effect}
    (step : c.step? h = some (d, es)) : d.isClosed = (c.isClosed || h.isShutDown) := by
  cases shift_of_step step with
  | aside aside apart => simp [apart.closed, isShutDown_aside aside]
  | rejected calls => simp [isShutDown_opening calls]
  | begun calls _ _ client => simp [client, isShutDown_opening calls]
  | repeated closed => simp [closed]
  | reset resets =>
    cases h with
    | disconnect =>
      obtain ⟨-, -, closed, -⟩ := close_inv (Option.some.inj step)
      simp [closed, Happening.isShutDown]
    | shutDown =>
      have isOpen : c.isClosed = false := by simpa [Client.resets] using resets
      obtain ⟨-, -, closed, -⟩ := close_inv (shutDown_inv isOpen step)
      simp [closed, Happening.isShutDown]
    | _ => cases resets
  | asked | passedOver | undone => simp [Happening.isShutDown]
  | succeeded _ _ _ _ client => simp [client, Happening.isShutDown]
  | refused _ _ _ _ failed | takenBack _ _ _ _ failed =>
    obtain ⟨rfl, -⟩ := fail_inv failed
    simp [Happening.isShutDown]
  | ended _ _ _ ended => simp [(apart_endClose ended).closed, Happening.isShutDown]
  | took _ _ received =>
    obtain ⟨-, -, closed, -⟩ := receive_inv received
    simp [closed, Happening.isShutDown]

/-- A client is closed once somebody has told it to shut down. -/
lemma Past.isClosed_eq {ms : List Moment} {c : Client} (past : Past ms c) :
    c.isClosed = ms.any (·.happening.isShutDown) := by
  refine past.induct (motive := fun ms c => c.isClosed = ms.any (·.happening.isShutDown))
    ?start ?step
  case start =>
    intro settings pollConfig lobby now wall
    rfl
  case step =>
    intro ms c h es d _ held step
    simp [closed_of_step step, held]

/-- Once closed, a client opens no session again. An attempt that the core lets in after all has
lost its generation. -/
lemma Shift.blank {c d : Client} {h : Happening} {es : List Effect} (shift : c.Shift h es d)
    (closed : c.isClosed) (blank : c.store.Blank) : d.store.Blank := by
  cases shift with
  | aside _ apart =>
    rw [apart.store]
    exact blank
  | rejected | repeated | asked | passedOver | undone => exact blank
  | begun _ isOpen => simp [isOpen] at closed
  | reset _ closed =>
    obtain ⟨store, -⟩ := close_inv closed
    rw [store]
    exact Store.blank_reset _
  | succeeded _ _ _ finished =>
    obtain ⟨-, underway, -⟩ := Store.finish_inv finished
    simp [blank.status] at underway
  | @refused _ _ g _ _ _ _ _ _ _ _ _ _ failed | @takenBack _ _ g _ _ _ _ _ _ _ _ _ failed =>
    obtain ⟨rfl, -⟩ := fail_inv failed
    simpa [blank.abort g] using blank
  | ended _ _ _ ended =>
    rw [(apart_endClose ended).store]
    exact blank
  | took _ _ received =>
    obtain ⟨store, -⟩ := receive_inv received
    rw [store, Store.hear_idle blank.status]
    exact blank

/-! ## The call that shuts down -/

/-- A client that has been told to shut down, in the call of this number. -/
structure Closing (id : CallId) (c : Client) : Prop where
  closed : c.isClosed
  blank : c.store.Blank
  made : id < c.nextCall
  /-- In the lifecycle line, the call is one that waits for the intake to stop. -/
  forGood : ∀ call ∈ c.line, call.id = id → call.aim = .close true

lemma returns_not_published (c : Client) (news : List SessionEvent) (id : CallId) (o : Outcome) :
    .returns id o ∉ c.publishAll news := by
  simp [publishAll, publish]

lemma returns_of_outcome {r : Reply} {id id' : CallId} {o o' : Outcome}
    (returned : .returns id o ∈ [r.effect id' o']) : id = id' ∧ o = o' := by
  cases r with
  | caller => simpa [Reply.effect] using returned
  | dispatcher => simp [Reply.effect] at returned

/-- The first call to shut down does not return at once. -/
lemma closing_of_shutDown {c d : Client} {es : List Effect} (numbered : c.Numbered)
    (isOpen : c.isClosed = false) (step : c.step? .shutDown = some (d, es)) :
    d.Closing c.nextCall ∧ .returns c.nextCall .closed ∉ es := by
  have closes := shutDown_inv isOpen step
  have silent := close_snd closes
  obtain ⟨store, -, closed, next, line, -⟩ := close_inv closes
  constructor
  · refine ⟨closed, store ▸ Store.blank_reset _, by simp [next], fun call member same => ?_⟩
    have older (member : call ∈ c.line) : call.aim = .close true :=
      absurd same (Nat.ne_of_lt (numbered.below call member))
    rw [line] at member
    split at member
    · exact older member
    · rcases List.mem_append.1 member with member | member
      · exact older member
      · rw [List.mem_singleton.1 member]
  · simp [silent, returns_not_published]

/-- A call that closes returns at once, or when it has closed the session of the core and is not to
close the client for good, or when the intake stops. -/
lemma returned_inv {c d : Client} {h : Happening} {es : List Effect} {id : CallId}
    (step : c.step? h = some (d, es)) (returned : .returns id .closed ∈ es) :
    id = c.nextCall ∨ (∃ call ∈ c.line, call.id = id ∧ call.aim = .close false) ∨
      d.intake.phase = .stopped := by
  cases shift_of_step step with
  | aside aside =>
    cases utters_of_aside step aside with
    | silent => cases returned
    | asks => simp at returned
    | answers other => exact absurd (returns_of_outcome returned).2.symm other
    | starts => simp [publish] at returned
  | rejected => cases (returns_of_outcome returned).2
  | begun _ _ _ _ told => simp [told, announce, publish] at returned
  | repeated =>
    cases List.mem_singleton.1 returned
    exact .inl rfl
  | reset _ closed =>
    left
    rw [close_snd closed, List.mem_append] at returned
    have ends := returned.resolve_left (returns_not_published _ _ _ _)
    split at ends
    · exact (returns_of_outcome ends).1
    · cases ends
  | asked | undone => simp at returned
  | passedOver => cases (returns_of_outcome returned).2
  | succeeded _ _ _ _ _ told =>
    rw [told, List.mem_append] at returned
    rcases returned with returned | returned
    · simp [announce, publish] at returned
    · cases (returns_of_outcome returned).2
  | refused _ _ _ _ failed | takenBack _ _ _ _ failed =>
    rw [fail_eq] at failed
    cases failed
    rw [List.mem_append] at returned
    cases (returns_of_outcome (returned.resolve_left (returns_not_published _ _ _ _))).2
  | @ended call rest forGood _ _ _ line _ aim ended =>
    right
    left
    obtain ⟨-, rfl⟩ := endClose_inv ended
    cases forGood with
    | true => cases returned
    | false => exact ⟨call, by simp [line], (returns_of_outcome returned).1.symm, aim⟩
  | @took x i _ _ _ _ received =>
    right
    right
    have said : es = ({ c with intake := i }.receive x).2 := by rw [received]
    rw [said, receive_snd, List.mem_append] at returned
    have answer := returned.resolve_left (returns_not_published _ _ _ _)
    cases x with
    | stop =>
      cases received
      rfl
    | line => simp [response] at answer
    | callback e =>
      rw [response] at answer
      split at answer
      · simp at answer
      · cases answer
    | report => cases answer

lemma Closing.step {c d : Client} {h : Happening} {es : List Effect} {id : CallId}
    (closing : c.Closing id) (step : c.step? h = some (d, es)) :
    d.Closing id ∧ (.returns id .closed ∈ es → d.intake.phase = .stopped) := by
  obtain ⟨closed, blank, made, forGood⟩ := closing
  have shift := shift_of_step step
  constructor
  · obtain ⟨next, moved⟩ := shift.line_cases
    refine ⟨by simp [closed_of_step step, closed], shift.blank closed blank,
      Nat.lt_of_lt_of_le made next, fun call member same => ?_⟩
    obtain line | ⟨last, line, number, -⟩ | ⟨first, rest, stage, before, line⟩ | ⟨first, line⟩ :=
      moved
    · exact forGood call (line ▸ member) same
    · rw [line, List.mem_append] at member
      rcases member with member | member
      · exact forGood call member same
      · -- The last call was made after the one that shuts down.
        rw [List.mem_singleton.1 member, number] at same
        exact absurd same.symm (Nat.ne_of_lt made)
    · rw [line] at member
      rw [before] at forGood
      cases member with
      | head => exact forGood first (.head _) same
      | tail _ member => exact forGood call (.tail _ member) same
    · rw [line] at forGood
      exact forGood call (.tail _ member) same
  · intro returned
    rcases returned_inv step returned with now | ⟨call, member, same, forNow⟩ | stopped
    · exact absurd now (Nat.ne_of_lt made)
    · simp [forGood call member same] at forNow
    · exact stopped

lemma History.closing {c d : Client} {ms : List Moment} {id : CallId} (history : History c ms d)
    (closing : c.Closing id) : d.Closing id := by
  induction history with
  | nil => exact closing
  | snoc _ step ih => exact (ih.step step).1

/-! ## A client that has shut down -/

/-- A client that is closed, and whose intake has stopped. -/
structure Inert (c : Client) : Prop where
  closed : c.isClosed
  blank : c.store.Blank
  stopped : c.intake.phase = .stopped

/-- What does not concern the session does not start the intake again. -/
lemma stopped_aside {c d : Client} {h : Happening} {es : List Effect}
    (step : c.step? h = some (d, es)) (aside : h.concernsSession = false)
    (stopped : c.intake.phase = .stopped) : d.intake.phase = .stopped := by
  have moves := moves_of_aside step aside
  generalize d.intake = j at moves ⊢
  cases moves with
  | lines => exact stopped
  | confirmed confirming => simp [stopped] at confirming
  | raised => simp [Intake.raise, stopped]
  | answered answer =>
    rcases answer with rfl | ⟨r, rfl⟩
    · exact stopped
    · simp [Intake.report, stopped]

/-- An intake that has stopped is not started again. -/
lemma stopped_of_step {c d : Client} {h : Happening} {es : List Effect}
    (step : c.step? h = some (d, es)) (stopped : c.intake.phase = .stopped) :
    d.intake.phase = .stopped := by
  cases shift_of_step step with
  | aside aside => exact stopped_aside step aside stopped
  | rejected | repeated | asked | passedOver | undone => exact stopped
  | begun _ _ _ client | succeeded _ _ _ _ client =>
    subst client
    exact stopped
  | reset _ closed =>
    obtain ⟨⟨stopper, intake⟩, -⟩ := close_waits closed
    rw [intake]
    exact stopped
  | refused _ _ _ _ failed | takenBack _ _ _ _ failed =>
    obtain ⟨rfl, -⟩ := fail_inv failed
    exact stopped
  | ended _ _ _ ended =>
    obtain ⟨⟨stopper, rfl⟩, -⟩ := endClose_inv ended
    exact stopped
  | took idle => simp [stopped] at idle

/-- What an inert client says is no event. -/
lemma Inert.silent {c d : Client} {h : Happening} {es : List Effect} (inert : c.Inert)
    (step : c.step? h = some (d, es)) : ∀ e ∈ es, e.publishes = false := by
  obtain ⟨closed, blank, stopped⟩ := inert
  cases shift_of_step step with
  | aside aside =>
    cases utters_of_aside step aside with
    | silent => simp
    | asks => simp [Effect.publishes]
    | answers => simp
    | starts confirming => simp [stopped] at confirming
  | rejected => simp
  | repeated | asked | undone => simp [Effect.publishes]
  | passedOver => simp [LifecycleCall.effect]
  | begun _ isOpen => simp [isOpen] at closed
  | @reset _ forGood _ _ _ closed =>
    rw [close_snd closed]
    cases forGood <;> simp [resetNews, blank.status, publishAll]
  | succeeded _ _ _ finished =>
    obtain ⟨-, underway, -⟩ := Store.finish_inv finished
    simp [blank.status] at underway
  | @refused _ _ g _ _ _ _ _ _ _ _ _ _ failed | @takenBack _ _ g _ _ _ _ _ _ _ _ _ failed =>
    rw [fail_eq] at failed
    cases failed
    simp [blank.abort g, publishAll, LifecycleCall.effect]
  | @ended _ _ forGood _ _ _ _ _ _ ended =>
    obtain ⟨-, rfl⟩ := endClose_inv ended
    cases forGood <;> simp
  | took idle => simp [stopped] at idle

lemma Inert.step {c d : Client} {h : Happening} {es : List Effect} (inert : c.Inert)
    (step : c.step? h = some (d, es)) : d.Inert where
  closed := by simp [closed_of_step step, inert.closed]
  blank := (shift_of_step step).blank inert.closed inert.blank
  stopped := stopped_of_step step inert.stopped

lemma History.inert {c d : Client} {ms : List Moment} (history : History c ms d)
    (inert : c.Inert) : d.Inert ∧ ∀ m ∈ ms, ∀ e ∈ m.effects, e.publishes = false := by
  induction history with
  | nil => exact ⟨inert, by simp⟩
  | snoc _ step ih =>
    obtain ⟨inert, silent⟩ := ih
    refine ⟨inert.step step, fun m member => ?_⟩
    rcases List.mem_append.1 member with member | member
    · exact silent m member
    · rw [List.mem_singleton.1 member]
      exact inert.silent step

/-- When the first call to shut down has returned, the client is inert. -/
lemma Past.inert {ms : List Moment} {c : Client} (past : Past ms c) (shut : HasShutDown ms) :
    c.Inert := by
  obtain ⟨older, first, newer, rfl, none, shutsDown, m, member, returned⟩ := shut
  obtain ⟨before, step, rest⟩ := past.moment
  have isOpen : first.before.isClosed = false := before.isClosed_eq.trans none
  have isShutDown : first.happening = .shutDown := by
    cases happening : first.happening <;> simp_all [Happening.isShutDown]
  rw [isShutDown] at step
  obtain ⟨closing, pending⟩ := closing_of_shutDown before.numbered isOpen step
  rcases List.mem_cons.1 member with rfl | member
  · exact absurd returned pending
  obtain ⟨between, later, rfl⟩ := List.append_of_mem member
  obtain ⟨toReturn, step, fromReturn⟩ := rest.moment
  obtain ⟨closing, stopped⟩ := (toReturn.closing closing).step step
  exact (fromReturn.inert ⟨closing.closed, closing.blank, stopped returned⟩).1

/-- Shutting down is the end. Once the first call to shut down has returned, whatever happens: the
store is blank, the poller does not run, and nobody is told of an event. Whoever then wants a
session to be opened, or a line of chat to be sent that is not blank, hears at once that the client
is shut down, and the core is not asked. -/
theorem Past.shut_down {ms ns : List Moment} {c d : Client} (past : Past ms c)
    (shut : HasShutDown ms) (history : History c ns d) :
    d.store.Blank ∧ d.poller.isRunning = false ∧
    (∀ m ∈ ns, ∀ e ∈ m.effects, e.publishes = false) ∧
    (∀ reply address port, d.step? (.connect reply address port) =
      some ({ d with nextCall := d.nextCall + 1 },
        [reply.effect d.nextCall (.attempt (.error .shutDown))])) ∧
    (∀ reply port draws, d.step? (.host reply port draws) =
      some ({ d with nextCall := d.nextCall + 1 },
        [reply.effect d.nextCall (.attempt (.error .shutDown))])) ∧
    ∀ text, Text.isBlank text = false → d.step? (.sendChat text) =
      some ({ d with nextCall := d.nextCall + 1 },
        [.returns d.nextCall (.errand (.error .shutDown))]) := by
  obtain ⟨inert, silent⟩ := history.inert (past.inert shut)
  have closed := inert.closed
  have idle := (past.append history).serves.idle (by simp [inert.blank.status])
  have refused : d.takeCall.2.begin = .error .shutDown := by simp [begin, takeCall, closed]
  refine ⟨inert.blank, by simp [Poller.isRunning, idle], silent, ?_, ?_, ?_⟩
  · intro reply address port
    simp only [step?, connect, refused]
    rfl
  · intro reply port draws
    simp only [step?, host?, refused]
    rfl
  · intro text said
    simp [step?, sendChat, said, closed, refuse, takeCall]

/-- The client is shut down while an attempt that was reset is still with the core, and a callback
waits for the intake. The attempt and the call that reset it end later, to no effect. -/
theorem shut_down_before_line_ends :
    ∃ ms ns c d, Past ms c ∧ HasShutDown ms ∧ History c ns d ∧ c.line.length = 2 ∧ d.line = [] ∧
      d.store.Blank ∧ (∀ m ∈ ns, ∀ e ∈ m.effects, e.publishes = false) ∧
      d.step? (.connect .caller "10.0.0.2" 27015) =
        some ({ d with nextCall := d.nextCall + 1 },
          [.returns d.nextCall (.attempt (.error .shutDown))]) := by
  have lived : (start {} {} {} 0 0).live?
      [.connect .caller "10.0.0.1" 27015, .turn, .disconnect, .raised .connectionLost, .shutDown,
        .takeIn] = some (_, _) := rfl
  have past := Past.of_live lived
  obtain ⟨history, -⟩ := past.live [.opened (.ok true) fun _ => 0, .closed (.ok ()), .turn,
    .closed (.ok ()), .raised .connectionLost] rfl
  have ends shut := Past.shut_down past shut history
  refine ⟨_, _, _, _, past, ?shut, history, rfl, rfl, (ends ?shut).1, (ends ?shut).2.2.1,
    (ends ?shut).2.2.2.1 .caller "10.0.0.2" 27015⟩
  exact ⟨[_, _, _, _], _, [_], rfl, rfl, rfl, _, .tail _ (.head _), .head _⟩

end Client

end OnlinePlay
