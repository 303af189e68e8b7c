import OnlinePlay.Proofs.Client.History
import OnlinePlay.Proofs.Client.Shift

/-!
# How messages travel

A message is raised by the core, or sent by the player and passed on by the core, and some time
later it is taken in. `Client.Passes` lists how a step moves the messages that are on their way, and
`passes_of_step` says that there is nothing else.

Messages carry no generation, but a history tells in which one each of them set out: `stamps` for
the callbacks that wait for the intake, and `sentIn` for the lines of our own. `Past.stamped` says
that none of them is forgotten.
-/

namespace OnlinePlay

namespace Client

/-- A call whose line of chat is being sent or waits for the intake. -/
def Says (c : Client) (id : CallId) : Prop :=
  (∃ m, (id, m) ∈ c.intake.lines) ∨ ∃ text, (id, Errand.chat text) ∈ c.errands

/-- No message moves, except that some may be given up by the core. -/
structure Still (c d : Client) : Prop where
  callbacks : d.intake.callbacks = c.intake.callbacks
  lines : d.intake.lines = c.intake.lines
  chats : ∀ id text, (id, Errand.chat text) ∈ d.errands → (id, Errand.chat text) ∈ c.errands

/-- How a step moves the messages that are on their way. -/
inductive Passes (c : Client) : Happening → Client → Prop where
  | still {h : Happening} {d : Client} :
    (∀ e, h ≠ .raised e) →
    h ≠ .takeIn →
    Still c d →
    Passes c h d
  | raised {e : NativeEvent} {d : Client} :
    d.intake = c.intake.raise e →
    d.errands = c.errands →
    Passes c (.raised e) d
  | sent {text : String} {d : Client} :
    c.store.status = .connected →
    d.intake = c.intake →
    d.errands = c.errands ++ [(c.nextCall, .chat text)] →
    Passes c (.sendChat text) d
  | told {id : CallId} {text : String} {m : ChatMessage} {answer : Except NativeError Unit}
      {d : Client} :
    (id, Errand.chat text) ∈ c.errands →
    d.intake = { c.intake with lines := c.intake.lines ++ [(id, m)] } →
    (∀ id text, (id, Errand.chat text) ∈ d.errands → (id, Errand.chat text) ∈ c.errands) →
    Passes c (.told id answer) d
  | stopped {id : CallId} {i : Intake} {d : Client} :
    c.intake.next? = some (.stop id, i) →
    d.intake = { phase := .stopped } →
    d.errands = c.errands →
    Passes c .takeIn d
  | took {x : Inbound} {i : Intake} {d : Client} :
    c.intake.next? = some (x, i) →
    (∀ id, x ≠ .stop id) →
    d.intake.callbacks = i.callbacks →
    d.intake.lines = i.lines →
    d.errands = c.errands →
    Passes c .takeIn d

/-! ## Steps that move no message -/

lemma Still.of_eq {c d : Client} (callbacks : d.intake.callbacks = c.intake.callbacks)
    (lines : d.intake.lines = c.intake.lines) (errands : d.errands = c.errands) : c.Still d :=
  ⟨callbacks, lines, fun _ _ member => errands ▸ member⟩

lemma still_ask (c : Client) (e : Errand) (request : CallId → Request)
    (other : ∀ text, e ≠ .chat text) : c.Still (c.ask e request).1 := by
  refine ⟨rfl, rfl, fun id text member => ?_⟩
  rcases List.mem_append.1 member with member | member
  · exact member
  · cases List.mem_singleton.1 member
    exact absurd rfl (other text)

lemma still_order (c : Client) (request : CallId → Request) : c.Still (c.order request).1 := by
  rw [order]
  split
  · exact c.still_ask _ _ (by simp)
  · exact .of_eq rfl rfl rfl

lemma still_launchGame (c : Client) (path : String) : c.Still (c.launchGame path).1 := by
  rw [launchGame]
  split
  · exact c.still_ask _ _ (by simp)
  · exact .of_eq rfl rfl rfl

lemma still_endAwait (c : Client) (id : CallId) : c.Still (c.endAwait id) :=
  ⟨rfl, rfl, fun _ _ member => (List.mem_filter.1 member).1⟩

lemma still_checked {c d : Client} {id : CallId}
    {answer : Except NativeError (Option (String × String))} {es : List Effect}
    (h : c.checked? id answer = some (d, es)) : c.Still d := by
  obtain ⟨rfl, -⟩ | ⟨rfl, -⟩ := checked_inv h
  · exact c.still_endAwait id
  · refine ⟨rfl, rfl, fun other text member => ?_⟩
    rcases List.mem_append.1 member with member | member
    · exact (c.still_endAwait id).chats other text member
    · cases List.mem_singleton.1 member

lemma still_launched {c d : Client} {id : CallId} {answer : Except NativeError Bool}
    {es : List Effect} (h : c.launched? id answer = some (d, es)) : c.Still d := by
  obtain ⟨rfl, -⟩ := launched_inv h
  exact c.still_endAwait id

lemma still_listed {c d : Client} {id : CallId} {exchange : Exchange} {es : List Effect}
    (h : c.listed? id exchange = some (d, es)) : c.Still d := by
  obtain ⟨rfl, -⟩ := listed_inv h
  exact c.still_endAwait id

lemma still_confirmed {c d : Client} {answer : Except NativeError Unit} {es : List Effect}
    (h : c.confirmed? answer = some (d, es)) : c.Still d := by
  obtain ⟨⟨phase, rfl⟩, -⟩ := confirmed_inv h
  exact .of_eq rfl rfl rfl

lemma still_poll {c d : Client} {chore : Chore} {es : List Effect}
    (h : c.poll? chore = some (d, es)) : c.Still d := by
  obtain ⟨⟨poller, rfl⟩, -⟩ := poll_inv h
  exact .of_eq rfl rfl rfl

lemma still_rosterRead (c : Client) (run : Nat)
    (answer : Except NativeError (Nat × List Player)) : c.Still (c.rosterRead run answer) := by
  rw [rosterRead]
  cases c.poller.report? run c.store.status answer with
  | none => exact .of_eq rfl rfl rfl
  | some report =>
    refine .of_eq ?_ ?_ rfl
    · simp only [Intake.report]
      split <;> rfl
    · simp only [Intake.report]
      split <;> rfl

lemma still_endClose {c d : Client} {id : CallId} {reply : Reply} {forGood : Bool}
    {es : List Effect} (h : c.endClose id reply forGood = (d, es)) : c.Still d := by
  obtain ⟨⟨stopper, rfl⟩, -⟩ := endClose_inv h
  exact .of_eq rfl rfl rfl

lemma still_close {c d : Client} {reply : Reply} {forGood : Bool} {es : List Effect}
    (h : c.close reply forGood = (d, es)) : c.Still d := by
  obtain ⟨⟨stopper, intake⟩, errands⟩ := close_waits h
  exact .of_eq (by rw [intake]) (by rw [intake]) errands

/-- Opening and closing sessions moves no message. -/
lemma Shift.still {c d : Client} {h : Happening} {es : List Effect} (shift : c.Shift h es d)
    (concerns : h.concernsSession) (other : h ≠ .takeIn) : c.Still d := by
  cases shift with
  | aside aside => simp [aside] at concerns
  | rejected | repeated | asked | passedOver | undone => exact .of_eq rfl rfl rfl
  | begun _ _ _ client | succeeded _ _ _ _ client =>
    subst client
    exact .of_eq rfl rfl rfl
  | reset _ closed =>
    obtain ⟨callbacks, lines, chats⟩ := still_close closed
    exact ⟨callbacks, lines, chats⟩
  | refused _ _ _ _ failed | takenBack _ _ _ _ failed =>
    obtain ⟨rfl, -⟩ := fail_inv failed
    exact .of_eq rfl rfl rfl
  | ended _ _ _ ended =>
    obtain ⟨callbacks, lines, chats⟩ := still_endClose ended
    exact ⟨callbacks, lines, chats⟩
  | took => exact absurd rfl other

/-! ## Steps that do -/

lemma passes_sendChat (c : Client) (text : String) :
    c.Passes (.sendChat text) (c.sendChat text).1 := by
  rw [sendChat]
  by_cases blank : Text.isBlank text
  · rw [if_pos blank]
    exact .still (by simp) (by simp) (.of_eq rfl rfl rfl)
  rw [if_neg blank]
  by_cases closed : c.isClosed
  · rw [if_pos closed]
    exact .still (by simp) (by simp) (.of_eq rfl rfl rfl)
  rw [if_neg closed]
  by_cases isOpen : c.isConnected
  · rw [if_neg (by simp [isOpen])]
    exact .sent (by simpa [isConnected] using isOpen) rfl rfl
  · rw [if_pos (by simp [isOpen])]
    exact .still (by simp) (by simp) (.of_eq rfl rfl rfl)

lemma passes_told {c d : Client} {id : CallId} {answer : Except NativeError Unit}
    {es : List Effect} (h : c.told? id answer = some (d, es)) : c.Passes (.told id answer) d := by
  have still : c.Still (c.endAwait id) := c.still_endAwait id
  obtain ⟨rfl, r, rfl⟩ | ⟨rfl, text, m, sending, rfl⟩ := told_inv h
  · exact .still (by simp) (by simp) still
  · exact .told sending rfl still.chats

/-- What comes in has no part in errands. -/
lemma receive_errands {c d : Client} {x : Inbound} {es : List Effect}
    (h : c.receive x = (d, es)) : d.errands = c.errands := by
  obtain ⟨_, _, _, frame⟩ := c.receive_frame x
  rw [h] at frame
  dsimp only at frame
  rw [frame]

/-- What is taken in leaves the lines that wait alone, unless it stops the intake. -/
lemma receive_waits {c d : Client} {x : Inbound} {es : List Effect}
    (h : c.receive x = (d, es)) (running : ∀ id, x ≠ .stop id) :
    d.intake.callbacks = c.intake.callbacks ∧ d.intake.lines = c.intake.lines := by
  have intake := c.receive_intake running
  rw [h] at intake
  rcases intake with e | e <;> rw [e] <;> exact ⟨rfl, rfl⟩

lemma passes_takeIn {c d : Client} {es : List Effect} (h : c.takeIn? = some (d, es)) :
    c.Passes .takeIn d := by
  obtain ⟨x, i, -, next, received⟩ := takeIn_inv h
  have errands := receive_errands received
  by_cases stops : ∃ id, x = .stop id
  · obtain ⟨id, rfl⟩ := stops
    cases received
    exact .stopped next rfl rfl
  · have running : ∀ id, x ≠ .stop id := fun id e => stops ⟨id, e⟩
    obtain ⟨callbacks, lines⟩ := receive_waits received running
    exact .took next running callbacks lines errands

/-- A step moves no message but as `Passes` lists. -/
theorem passes_of_step {c d : Client} {h : Happening} {es : List Effect}
    (step : c.step? h = some (d, es)) : c.Passes h d := by
  have shift := shift_of_step step
  cases h with
  -- What opens and closes sessions has been gone through before.
  | connect | host | disconnect | shutDown | turn | opened | closed =>
    exact .still (by simp) (by simp) (shift.still rfl (by simp))
  | sendChat text =>
    obtain ⟨rfl, -⟩ := outcome_eq step
    exact c.passes_sendChat text
  | kick id | ban id | setVisibility visibility =>
    obtain ⟨rfl, -⟩ := outcome_eq step
    obtain ⟨callbacks, lines, chats⟩ := still_order _ _
    exact .still (by simp) (by simp) ⟨callbacks, lines, chats⟩
  | checkGame path | discover reply =>
    obtain ⟨rfl, -⟩ := outcome_eq step
    exact .still (by simp) (by simp) (c.still_ask _ _ (by simp))
  | launchGame path =>
    obtain ⟨rfl, -⟩ := outcome_eq step
    exact .still (by simp) (by simp) (c.still_launchGame path)
  | told call answer => exact passes_told step
  | checked call answer => exact .still (by simp) (by simp) (still_checked step)
  | launched call answer => exact .still (by simp) (by simp) (still_launched step)
  | listed call exchange => exact .still (by simp) (by simp) (still_listed step)
  | raised event =>
    cases step
    exact .raised rfl rfl
  | takeIn => exact passes_takeIn step
  | confirmed answer => exact .still (by simp) (by simp) (still_confirmed step)
  | poll chore => exact .still (by simp) (by simp) (still_poll step)
  | rosterRead run answer =>
    obtain ⟨rfl, -⟩ := outcome_eq step
    exact .still (by simp) (by simp) (c.still_rosterRead run answer)
  | editSettings | subscribe | unsubscribe | notice | drained | elapse | setWall =>
    cases step
    exact .still (by simp) (by simp) (.of_eq rfl rfl rfl)

end Client

/-! ## Where messages come from -/

namespace Moment

/-- The callbacks that wait after a moment, each with the generation in which it was raised. -/
def stamp (m : Moment) (stamps : List (NativeEvent × Nat)) : List (NativeEvent × Nat) :=
  match m.happening with
  | .raised e =>
    if m.before.intake.phase = .stopped then stamps
    else stamps ++ [(e, m.before.store.generation)]
  | .takeIn =>
    match m.before.intake.next? with
    | some (.stop _, _) => []
    | some (.callback _, _) => stamps.tail
    | _ => stamps
  | _ => stamps

/-- Whether a line of chat is sent by a call of this number. -/
def sends (m : Moment) (id : CallId) : Bool :=
  match m.happening with
  | .sendChat _ => m.before.nextCall = id
  | _ => false

end Moment

/-- The callbacks that wait after a history, each with the generation in which it was raised. -/
def stamps (ms : List Moment) : List (NativeEvent × Nat) :=
  ms.foldl (fun waiting m => m.stamp waiting) []

/-- The generation in which a call has sent its line of chat. -/
def sentIn (ms : List Moment) (id : CallId) : Option Nat :=
  ms.foldl (fun sent m => if m.sends id then some m.before.store.generation else sent) none

/-- The generation in which something set out that is now taken in. Reports bring their own. -/
def origin (ms : List Moment) : Inbound → Option Nat
  | .callback _ => (stamps ms).head?.map (·.2)
  | .line id _ => sentIn ms id
  | .stop _ | .report _ => none

lemma stamps_snoc (ms : List Moment) (m : Moment) : stamps (ms ++ [m]) = m.stamp (stamps ms) := by
  simp [stamps]

lemma sentIn_snoc (ms : List Moment) (m : Moment) (id : CallId) :
    sentIn (ms ++ [m]) id =
      if m.sends id then some m.before.store.generation else sentIn ms id := by
  simp [sentIn]

namespace Client

/-- Every message that is on its way has its generation. -/
structure Stamped (ms : List Moment) (c : Client) : Prop where
  callbacks : (stamps ms).map (·.1) = c.intake.callbacks
  lines : ∀ id, c.Says id → (sentIn ms id).isSome

/-- What the intake takes in next is the first of its kind, and everything else goes on waiting. -/
lemma next_inv {i j : Intake} {x : Inbound} (next : i.next? = some (x, j)) :
    match x with
    | .line id m => i.lines = (id, m) :: j.lines ∧ j.callbacks = i.callbacks
    | .callback e => i.callbacks = e :: j.callbacks ∧ j.lines = i.lines
    | .stop _ | .report _ => j.callbacks = i.callbacks ∧ j.lines = i.lines := by
  cases Intake.offers_of_next next with
  | stop | report => exact ⟨rfl, rfl⟩
  | line waits => exact ⟨waits, rfl⟩
  | callback waits => exact ⟨waits, rfl⟩

/-- A line that is on its way was on its way before, or is sent just now. -/
lemma Passes.lines {c d : Client} {h : Happening} {id : CallId} (passes : c.Passes h d)
    (spoken : d.Says id) : c.Says id ∨ ∃ text, h = .sendChat text ∧ c.nextCall = id := by
  cases passes with
  | still _ _ still =>
    rcases spoken with ⟨m, member⟩ | ⟨text, member⟩
    · exact .inl (.inl ⟨m, still.lines ▸ member⟩)
    · exact .inl (.inr ⟨text, still.chats _ _ member⟩)
  | raised intake errands =>
    refine .inl ?_
    rw [Says, intake, errands] at spoken
    rw [Intake.raise] at spoken
    split at spoken <;> exact spoken
  | @sent text _ _ intake errands =>
    rw [Says, intake, errands] at spoken
    rcases spoken with waits | ⟨text', member⟩
    · exact .inl (.inl waits)
    · rcases List.mem_append.1 member with member | member
      · exact .inl (.inr ⟨text', member⟩)
      · cases List.mem_singleton.1 member
        exact .inr ⟨text, rfl, rfl⟩
  | told sending intake chats =>
    rw [Says, intake] at spoken
    rcases spoken with ⟨m, member⟩ | ⟨text, member⟩
    · rcases List.mem_append.1 member with member | member
      · exact .inl (.inl ⟨m, member⟩)
      · cases List.mem_singleton.1 member
        exact .inl (.inr ⟨_, sending⟩)
    · exact .inl (.inr ⟨text, chats _ _ member⟩)
  | stopped _ intake errands =>
    rw [Says, intake, errands] at spoken
    rcases spoken with ⟨m, member⟩ | sending
    · cases member
    · exact .inl (.inr sending)
  | @took x i _ next _ _ lines errands =>
    rw [Says, lines, errands] at spoken
    rcases spoken with ⟨m, member⟩ | sending
    · -- What still waits has waited before, behind the line that was taken in if it was one.
      have waited := next_inv next
      refine .inl (.inl ⟨m, ?_⟩)
      cases x with
      | line =>
        rw [waited.1]
        exact .tail _ member
      | stop | callback | report =>
        rw [← waited.2]
        exact member
    · exact .inl (.inr sending)

/-- The callbacks that wait keep their generations. -/
lemma Passes.callbacks {c d : Client} {h : Happening} {es : List Effect}
    {waiting : List (NativeEvent × Nat)} (passes : c.Passes h d)
    (stamped : waiting.map (·.1) = c.intake.callbacks) :
    (Moment.stamp ⟨c, h, es, d⟩ waiting).map (·.1) = d.intake.callbacks := by
  cases passes with
  | still other running still =>
    rw [still.callbacks, ← stamped]
    cases h with
    | raised e => exact absurd rfl (other e)
    | takeIn => exact absurd rfl running
    | _ => rfl
  | raised intake =>
    rw [intake, Moment.stamp, Intake.raise]
    by_cases deaf : c.intake.phase = .stopped <;> simp [deaf, stamped]
  | sent _ intake => rw [intake, ← stamped]; rfl
  | told _ intake => rw [intake, ← stamped]; rfl
  | stopped next intake =>
    rw [intake, Moment.stamp]
    simp [next]
  | @took x i _ next running callbacks =>
    have waited := next_inv next
    rw [callbacks, Moment.stamp]
    simp only [next]
    cases x with
    | stop id => exact absurd rfl (running id)
    | callback e =>
      rw [waited.1] at stamped
      rw [List.map_tail, stamped, List.tail_cons]
    | line => rw [waited.2, ← stamped]
    | report => rw [waited.1, ← stamped]

lemma stamp_opening {m : Moment} {waiting : List (NativeEvent × Nat)}
    (opening : m.happening.isOpening) : m.stamp waiting = waiting := by
  rw [Moment.stamp]
  split
  case h_1 e => simp [e, Happening.isOpening] at opening
  case h_2 e => simp [e, Happening.isOpening] at opening
  case h_3 => rfl

/-- A callback that waits waited before, or is raised just now. -/
lemma mem_stamp {m : Moment} {waiting : List (NativeEvent × Nat)} {p : NativeEvent × Nat}
    (member : p ∈ m.stamp waiting) : p ∈ waiting ∨ p.2 = m.before.store.generation := by
  rw [Moment.stamp] at member
  split at member
  · split at member
    · exact .inl member
    · rcases List.mem_append.1 member with member | member
      · exact .inl member
      · rw [List.mem_singleton.1 member]
        exact .inr rfl
  · split at member
    · cases member
    · exact .inl (List.mem_of_mem_tail member)
    · exact .inl member
  · exact .inl member

/-- No message loses its generation on its way. -/
theorem Past.stamped {ms : List Moment} {c : Client} (past : Past ms c) : Stamped ms c := by
  refine past.induct (motive := fun ms c => Stamped ms c) ?start ?step
  case start =>
    intro settings pollConfig lobby now wall
    refine ⟨rfl, fun id spoken => ?_⟩
    rcases spoken with ⟨_, member⟩ | ⟨_, member⟩ <;> cases member
  case step =>
    intro ms c h es d _ stamped step
    have passes := passes_of_step step
    constructor
    · rw [stamps_snoc]
      exact passes.callbacks stamped.callbacks
    · intro id spoken
      rw [sentIn_snoc]
      split
      case isTrue => rfl
      case isFalse unsent =>
        rcases passes.lines spoken with before | ⟨text, rfl, number⟩
        · exact stamped.lines id before
        · simp [Moment.sends, number] at unsent

end Client

end OnlinePlay
