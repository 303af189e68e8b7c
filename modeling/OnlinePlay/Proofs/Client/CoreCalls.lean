import OnlinePlay.Proofs.Client.Standing

/-!
# The session of the core

The core keeps a session of its own, which the client opens and closes by calls and never looks at.
What the core was told can be read off a history (`coreCalls`): every call that opens or closes is
entered when the client makes it, and gets its answer when the core gives one.

The lifecycle line decides who may call. Only its first call has a call of the core in flight
(`spoken`), so that there never are two. If the last call of all has opened a session, then either
the store shows that session, or the first of the line is about to close it (`Agrees`). When the
line is empty, the core and the store therefore agree.
-/

namespace OnlinePlay

/-- A call of the core that opens or closes its session, and once it is answered, whether a session
was opened by it. -/
structure CoreCall where
  request : Request
  answer : Option Bool
  deriving DecidableEq

namespace CoreCall

/-- Whether a call is not answered yet. -/
def inFlight (call : CoreCall) : Bool := call.answer.isNone

/-- Whether the core has opened a session as it was asked. -/
def accepted (call : CoreCall) : Bool := call.request.opensSession && call.answer = some true

/-- Gives its answer to the first call in flight that opens, or to the first that closes. -/
def settle (opens answer : Bool) : List CoreCall → List CoreCall
  | [] => []
  | call :: calls =>
    if call.inFlight && call.request.opensSession = opens then
      { call with answer := some answer } :: calls
    else call :: settle opens answer calls

/-- Whether the last call of all has opened a session. -/
def endsOpen (calls : List CoreCall) : Bool := calls.getLast?.any accepted

end CoreCall

open CoreCall

/-- What the answers of the core that happen make of its calls. -/
def Happening.settles (calls : List CoreCall) : Happening → List CoreCall
  | .opened (.ok accepted) _ => settle true accepted calls
  | .opened (.error _) _ => settle true false calls
  | .closed _ => settle false false calls
  | _ => calls

/-- The call of the core that a deed makes. -/
def Deed.coreCall? : Deed → Option CoreCall
  | .asks r => some ⟨r, none⟩
  | .ends _ => none

/-- The calls of the core after a moment. -/
def Moment.record (m : Moment) (calls : List CoreCall) : List CoreCall :=
  m.happening.settles calls ++ (m.effects.filterMap Effect.deed?).filterMap Deed.coreCall?

/-- The calls by which the session of the core was opened and closed, oldest first. -/
def coreCalls (ms : List Moment) : List CoreCall := ms.foldl (fun calls m => m.record calls) []

lemma coreCalls_snoc (ms : List Moment) (m : Moment) :
    coreCalls (ms ++ [m]) = m.record (coreCalls ms) := by
  simp [coreCalls]

namespace CoreCall

@[simp]
lemma endsOpen_snoc (calls : List CoreCall) (call : CoreCall) :
    endsOpen (calls ++ [call]) = call.accepted := by
  simp [endsOpen]

lemma answered_snoc {earlier : List CoreCall} {call : CoreCall}
    (answered : ∀ call ∈ earlier, call.inFlight = false) (last : call.inFlight = false) :
    ∀ other ∈ earlier ++ [call], other.inFlight = false := by
  intro other member
  rcases List.mem_append.1 member with member | member
  · exact answered other member
  · rw [List.mem_singleton.1 member]
    exact last

/-- An answer passes over the calls that have been answered. -/
lemma settle_append {earlier : List CoreCall} (answered : ∀ call ∈ earlier, call.inFlight = false)
    (opens answer : Bool) (calls : List CoreCall) :
    settle opens answer (earlier ++ calls) = earlier ++ settle opens answer calls := by
  induction earlier with
  | nil => rfl
  | cons call earlier ih =>
    have done := answered call (.head _)
    have rest := ih fun call member => answered call (.tail _ member)
    simp [settle, done, rest]

end CoreCall

/-- Whether a session is open, as far as the player can see, or was until its link broke. -/
def Store.inSession (s : Store) : Bool := s.status = .connected || s.status = .lost

/-- What a call in the line has asked the core and is not answered. -/
def LifecycleCall.asking? (call : LifecycleCall) : Option Request :=
  match call.stage with
  | .waiting => none
  | .calling => some call.aim.request
  | .undoing => some .disconnect

lemma Goal.opens_request (goal : Goal) : goal.request.opensSession = true := by
  cases goal <;> rfl

namespace LifecycleCall

lemma asking_attempt {call : LifecycleCall} {g : Nat} {goal : Goal}
    (calling : call.stage = .calling) (aim : call.aim = .attempt g goal) :
    call.asking? = some goal.request := by
  rw [asking?, calling, aim]
  rfl

lemma asking_close {call : LifecycleCall} {forGood : Bool} (calling : call.stage = .calling)
    (aim : call.aim = .close forGood) : call.asking? = some .disconnect := by
  rw [asking?, calling, aim]
  rfl

lemma asking_undoing {call : LifecycleCall} (undoing : call.stage = .undoing) :
    call.asking? = some .disconnect := by
  rw [asking?, undoing]

end LifecycleCall

namespace Client

open LifecycleCall

/-- The calls of the core that are in flight for the first of a line. -/
def spoken : List LifecycleCall → List CoreCall
  | [] => []
  | call :: _ => call.asking?.toList.map (⟨·, none⟩)

/-- Whether the first of a line closes the session of the core, or takes it back. -/
def closesNext : List LifecycleCall → Bool
  | [] => false
  | call :: _ => call.stage = .undoing || call.aim.request = .disconnect

/-- How far the answered calls of the core agree with a client. -/
structure Agrees (c : Client) (earlier : List CoreCall) : Prop where
  answered : ∀ call ∈ earlier, call.inFlight = false
  shown : c.store.inSession → endsOpen earlier
  held : endsOpen earlier → c.store.inSession ∨ closesNext c.line

/-- The calls of the core are those that are answered and that of the first of the line. -/
def Accounts (c : Client) (calls : List CoreCall) : Prop :=
  ∃ earlier, calls = earlier ++ spoken c.line ∧ c.Agrees earlier

/-! ## Steps without a word to the core -/

lemma spoken_append {line : List LifecycleCall} {call : LifecycleCall}
    (waits : call.stage = .waiting) : spoken (line ++ [call]) = spoken line := by
  cases line with
  | nil => simp [spoken, LifecycleCall.asking?, waits]
  | cons first rest => rfl

lemma closesNext_append {line : List LifecycleCall} (call : LifecycleCall)
    (closes : closesNext line) : closesNext (line ++ [call]) := by
  cases line with
  | nil => cases closes
  | cons first rest => exact closes

lemma Accounts.of_eq {c d : Client} {calls : List CoreCall} (accounts : c.Accounts calls)
    (session : d.store.inSession = c.store.inSession) (line : d.line = c.line) :
    d.Accounts calls := by
  obtain ⟨earlier, e, answered, shown, held⟩ := accounts
  rw [← session] at shown held
  rw [← line] at e held
  exact ⟨earlier, e, answered, shown, held⟩

/-- Nobody is in the line while there is a session. -/
lemma Orderly.alone {c : Client} (orderly : c.Orderly) (session : c.store.inSession) :
    c.line = [] := by
  have fits := orderly.fits
  simp only [Store.inSession, Bool.or_eq_true, decide_eq_true_eq] at session
  generalize all : c.aims = aims at fits
  cases fits with
  | idle idle => simp [idle] at session
  | busy underway => simp [underway] at session
  | settled => exact List.map_eq_nil_iff.1 all

/-- There is no session while somebody is in the line. -/
lemma Orderly.without {c : Client} {call : LifecycleCall} {rest : List LifecycleCall}
    (orderly : c.Orderly) (line : c.line = call :: rest) : c.store.inSession = false := by
  rw [← Bool.not_eq_true]
  intro session
  have empty := orderly.alone session
  rw [line] at empty
  cases empty

lemma Accounts.enqueue {c d : Client} {calls : List CoreCall} {call : LifecycleCall}
    (accounts : c.Accounts calls) (line : d.line = c.line ++ [call])
    (waits : call.stage = .waiting) (without : d.store.inSession = false)
    (closes : c.store.inSession → closesNext d.line) : d.Accounts calls := by
  obtain ⟨earlier, e, answered, -, held⟩ := accounts
  refine ⟨earlier, ?_, answered, ?_, ?_⟩
  · rw [e, line, spoken_append waits]
  · intro session
    rw [without] at session
    cases session
  · intro opened
    refine .inr ?_
    rcases held opened with session | next
    · exact closes session
    · rw [line]
      exact closesNext_append call next

lemma Accounts.reset {c d : Client} {calls : List CoreCall} {reply : Reply} {forGood : Bool}
    {es : List Effect} (accounts : c.Accounts calls) (orderly : c.Orderly)
    (h : c.close reply forGood = (d, es)) : d.Accounts calls := by
  obtain ⟨store, -, -, -, line, -⟩ := close_inv h
  have without : d.store.inSession = false := by
    rw [store, Store.reset_eq]
    rfl
  split at line
  case isTrue idle =>
    refine accounts.of_eq ?_ line
    rw [without]
    simp [Store.inSession, idle]
  case isFalse =>
    refine accounts.enqueue line rfl without fun session => ?_
    rw [line, orderly.alone session]
    rfl

/-! ## Asking the core -/

lemma spoken_waiting {line : List LifecycleCall} (waiting : ∀ call ∈ line, call.stage = .waiting) :
    spoken line = [] := by
  cases line with
  | nil => rfl
  | cons call rest => simp [spoken, LifecycleCall.asking?, waiting call (.head _)]

lemma Orderly.spoken_rest {c : Client} {call : LifecycleCall} {rest : List LifecycleCall}
    (orderly : c.Orderly) (line : c.line = call :: rest) : spoken rest = [] := by
  have waiting := orderly.waiting
  rw [line] at waiting
  exact spoken_waiting waiting

lemma Accounts.ask {c : Client} {calls : List CoreCall} {call : LifecycleCall}
    {rest : List LifecycleCall} (accounts : c.Accounts calls) (orderly : c.Orderly)
    (line : c.line = call :: rest) (waits : call.stage = .waiting) :
    Accounts { c with line := { call with stage := .calling } :: rest }
      (calls ++ [⟨call.aim.request, none⟩]) := by
  obtain ⟨earlier, e, answered, -, held⟩ := accounts
  have without := orderly.without line
  rw [line] at e held
  refine ⟨earlier, ?_, answered, ?_, ?_⟩
  · simp [e, spoken, LifecycleCall.asking?, waits]
  · intro session
    rw [without] at session
    cases session
  · intro opened
    simpa [without, closesNext, waits] using held opened

lemma Accounts.pass {c : Client} {calls : List CoreCall} {call : LifecycleCall}
    {rest : List LifecycleCall} {g : Nat} {goal : Goal} (accounts : c.Accounts calls)
    (orderly : c.Orderly) (line : c.line = call :: rest) (waits : call.stage = .waiting)
    (aim : call.aim = .attempt g goal) : Accounts { c with line := rest } calls := by
  obtain ⟨earlier, e, answered, shown, held⟩ := accounts
  have without := orderly.without line
  rw [line] at e held
  refine ⟨earlier, ?_, answered, shown, ?_⟩
  · rw [e, orderly.spoken_rest line]
    simp [spoken, LifecycleCall.asking?, waits]
  · intro opened
    -- The core has a session, so that the first of the line closes it; but this is an attempt.
    have opens : goal.request ≠ .disconnect := by cases goal <;> simp [Goal.request]
    simpa [without, closesNext, waits, aim, Aim.request, opens] using held opened

/-! ## Answers of the core -/

/-- An answer goes to the call of the first of the line. -/
lemma Accounts.settle {c : Client} {calls : List CoreCall} {call : LifecycleCall}
    {rest : List LifecycleCall} {r : Request} (accounts : c.Accounts calls)
    (line : c.line = call :: rest) (asking : call.asking? = some r) :
    ∃ earlier, (∀ call ∈ earlier, call.inFlight = false) ∧
      ∀ answer, settle r.opensSession answer calls = earlier ++ [⟨r, some answer⟩] := by
  obtain ⟨earlier, e, answered, -, -⟩ := accounts
  refine ⟨earlier, answered, fun answer => ?_⟩
  rw [e, line, settle_append answered]
  simp [spoken, asking, CoreCall.settle, inFlight]

/-- Once its call of the core is answered, the first of the line may leave. -/
lemma Accounts.leave {c d : Client} {h : Happening} {es : List Effect} {calls : List CoreCall}
    {call : LifecycleCall} {rest : List LifecycleCall} {r : Request}
    (accounts : c.Accounts calls) (orderly : c.Orderly) (answer : Bool)
    (line : c.line = call :: rest) (asking : call.asking? = some r)
    (settles : h.settles calls = CoreCall.settle r.opensSession answer calls)
    (quiet : (es.filterMap Effect.deed?).filterMap Deed.coreCall? = []) (gone : d.line = rest)
    (agrees : d.store.inSession = accepted ⟨r, some answer⟩) :
    d.Accounts (Moment.record ⟨c, h, es, d⟩ calls) := by
  obtain ⟨earlier, answered, settled⟩ := accounts.settle line asking
  refine ⟨earlier ++ [⟨r, some answer⟩], ?_, ?_, ?_, ?_⟩
  · rw [Moment.record, settles, settled, quiet, gone, orderly.spoken_rest line]
  · exact answered_snoc answered rfl
  · rw [endsOpen_snoc, agrees]
    exact id
  · rw [endsOpen_snoc, agrees]
    exact .inl

/-- An attempt that the core has accepted too late goes on to close the session again. -/
lemma Accounts.undo {c : Client} {calls : List CoreCall} {call : LifecycleCall}
    {rest : List LifecycleCall} {g : Nat} {goal : Goal} (accounts : c.Accounts calls)
    (orderly : c.Orderly) (line : c.line = call :: rest) (calling : call.stage = .calling)
    (aim : call.aim = .attempt g goal) :
    Accounts { c with line := { call with stage := .undoing } :: rest }
      (CoreCall.settle true true calls ++ [⟨.disconnect, none⟩]) := by
  obtain ⟨earlier, answered, settled⟩ := accounts.settle line (asking_attempt calling aim)
  rw [Goal.opens_request] at settled
  refine ⟨earlier ++ [⟨goal.request, some true⟩], ?_, ?_, ?_, ?_⟩
  · rw [settled]
    rfl
  · exact answered_snoc answered rfl
  · intro session
    rw [orderly.without line] at session
    cases session
  · intro _
    exact .inr rfl

/-- An attempt that fails leaves no session behind. -/
lemma Orderly.session_fail {c d : Client} {call : LifecycleCall} {rest : List LifecycleCall}
    {g : Nat} {e : ConnectionError} {es : List Effect} (orderly : c.Orderly)
    (line : c.line = call :: rest) (h : { c with line := rest }.fail call g e = (d, es)) :
    d.store.inSession = false := by
  obtain ⟨rfl, -⟩ := fail_inv h
  cases aborted : c.store.abort? g with
  | none => exact orderly.without line
  | some s =>
    obtain ⟨-, -, rfl⟩ := Store.abort_inv aborted
    rfl

/-- What comes in does not open a session and does not close one. -/
lemma session_hear (s : Store) (clock : String) (x : Inbound) :
    (s.hear clock x).inSession = s.inSession := by
  obtain ⟨-, same | ⟨isOpen, isLost⟩⟩ := s.hear_status clock x
  · simp [Store.inSession, same]
  · simp [Store.inSession, isOpen, isLost]

/-! ## Every step -/

/-- The calls of the core stay as they are when it neither answers nor is asked. -/
lemma record_quiet {m : Moment} {calls : List CoreCall}
    (unanswered : m.happening.settles calls = calls)
    (quiet : (m.effects.filterMap Effect.deed?).filterMap Deed.coreCall? = []) :
    m.record calls = calls := by
  rw [Moment.record, unanswered, quiet, List.append_nil]

lemma settles_aside {h : Happening} (aside : h.concernsSession = false) (calls : List CoreCall) :
    h.settles calls = calls := by
  cases h with
  | opened | closed => cases aside
  | _ => rfl

lemma settles_opening {h : Happening} (opening : h.isOpening) (calls : List CoreCall) :
    h.settles calls = calls := by
  cases h with
  | opened | closed => cases opening
  | _ => rfl

lemma settles_reset {c : Client} {h : Happening} (resets : c.resets h) (calls : List CoreCall) :
    h.settles calls = calls := by
  cases h with
  | opened | closed => cases resets
  | _ => rfl

lemma Accounts.shift {c d : Client} {h : Happening} {es : List Effect} {calls : List CoreCall}
    (accounts : c.Accounts calls) (orderly : c.Orderly) (shift : c.Shift h es d) :
    d.Accounts (Moment.record ⟨c, h, es, d⟩ calls) := by
  cases shift with
  | aside aside apart =>
    rw [record_quiet (settles_aside aside calls) (by simp [apart.quiet])]
    exact accounts.of_eq (by rw [apart.store]) apart.line
  | rejected opening =>
    rw [record_quiet (settles_opening opening calls) (by simp [Deed.coreCall?])]
    exact accounts.of_eq rfl rfl
  | begun opening _ opens client told =>
    obtain ⟨idle, e⟩ := opens.inv
    rw [record_quiet (settles_opening opening calls) (by simp [told])]
    subst client
    refine accounts.enqueue rfl rfl ?_ ?_
    · rw [e]
      rfl
    · intro session
      simp [Store.inSession, idle] at session
  | repeated =>
    rw [record_quiet rfl rfl]
    exact accounts.of_eq rfl rfl
  | reset resets closed =>
    obtain ⟨-, -, -, -, -, quiet⟩ := close_inv closed
    rw [record_quiet (settles_reset resets calls) (by simp [quiet])]
    refine Accounts.reset ?_ ?_ closed
    · exact accounts.of_eq rfl rfl
    · exact orderly.of_eq rfl rfl
  | asked line waits =>
    have asked := accounts.ask orderly line waits
    simpa [Moment.record, Happening.settles, Deed.coreCall?] using asked
  | passedOver line waits aim =>
    rw [record_quiet rfl (by simp [LifecycleCall.effect, Deed.coreCall?])]
    exact accounts.pass orderly line waits aim
  | @succeeded _ _ _ goal _ s _ _ line calling aim finished client told =>
    obtain ⟨-, -, -, e⟩ := Store.finish_inv finished
    subst client
    refine accounts.leave orderly true line (asking_attempt calling aim)
      ?_ ?_ rfl ?_
    · rw [goal.opens_request]
      rfl
    · simp [told, LifecycleCall.effect, Deed.coreCall?]
    · simp [Store.inSession, e, accepted, goal.opens_request]
  | undone line calling aim =>
    have undone := accounts.undo orderly line calling aim
    exact undone
  | @refused _ _ _ goal _ _ _ _ _ line calling aim why failed =>
    -- A call that has failed has opened nothing, just like one that was refused.
    have without := orderly.session_fail line failed
    obtain ⟨rfl, ends⟩ := fail_inv failed
    refine accounts.leave orderly false line (asking_attempt calling aim)
      ?_ ?_ rfl ?_
    · rw [goal.opens_request]
      rcases why with ⟨rfl, -⟩ | ⟨n, rfl, -⟩ <;> rfl
    · simp [ends, Deed.coreCall?]
    · simp [without, accepted]
  | takenBack line undoing _ _ failed =>
    have without := orderly.session_fail line failed
    obtain ⟨rfl, ends⟩ := fail_inv failed
    refine accounts.leave orderly false line (asking_undoing undoing)
      rfl ?_ rfl ?_
    · simp [ends, Deed.coreCall?]
    · simp [without, accepted]
  | ended line calling aim ended =>
    have apart := apart_endClose ended
    refine accounts.leave orderly false line (asking_close calling aim)
      rfl ?_ apart.line ?_
    · simp [apart.quiet]
    · rw [apart.store, accepted]
      exact orderly.without line
  | took _ _ received =>
    obtain ⟨store, line, -, -, quiet⟩ := receive_inv received
    rw [record_quiet rfl (by simp [quiet])]
    refine accounts.of_eq ?_ line
    rw [store]
    exact session_hear _ _ _

lemma Past.accounts {ms : List Moment} {c : Client} (past : Past ms c) :
    c.Accounts (coreCalls ms) := by
  refine past.induct (motive := fun ms c => c.Accounts (coreCalls ms)) ?start ?step
  case start =>
    intro settings pollConfig lobby now wall
    exact ⟨[], rfl, nofun, nofun, nofun⟩
  case step =>
    intro ms c h es d past accounts step
    rw [coreCalls_snoc]
    exact accounts.shift past.orderly (shift_of_step step)

/-! ## Agreement -/

/-- The core answers nothing but the call that is in flight: one that opens. -/
theorem Past.opened_inv {ms : List Moment} {c d : Client} {answer : Except NativeError Bool}
    {delay : Chore → Nat} {es : List Effect} (past : Past ms c)
    (step : c.step? (.opened answer delay) = some (d, es)) :
    ∃ earlier r, coreCalls ms = earlier ++ [⟨r, none⟩] ∧ r.opensSession := by
  obtain ⟨earlier, e, -⟩ := past.accounts
  -- An answer is an answer to the first of the line, whose call is the one in flight.
  have calling : ∃ call rest g goal, c.line = call :: rest ∧ call.stage = .calling ∧
      call.aim = .attempt g goal := by
    cases shift_of_step step with
    | aside aside => cases aside
    | rejected opening | begun opening => cases opening
    | reset resets => cases resets
    | succeeded line calling aim | undone line calling aim | refused line calling aim =>
      exact ⟨_, _, _, _, line, calling, aim⟩
  obtain ⟨call, rest, g, goal, line, calling, aim⟩ := calling
  refine ⟨earlier, goal.request, ?_, goal.opens_request⟩
  rw [e, line, spoken, asking_attempt calling aim]
  rfl

/-- The core answers nothing but the call that is in flight: one that closes. -/
theorem Past.closed_inv {ms : List Moment} {c d : Client} {answer : Except NativeError Unit}
    {es : List Effect} (past : Past ms c) (step : c.step? (.closed answer) = some (d, es)) :
    ∃ earlier, coreCalls ms = earlier ++ [⟨.disconnect, none⟩] := by
  obtain ⟨earlier, e, -⟩ := past.accounts
  have asking : ∃ call rest, c.line = call :: rest ∧ call.asking? = some .disconnect := by
    cases shift_of_step step with
    | aside aside => cases aside
    | rejected opening | begun opening => cases opening
    | reset resets => cases resets
    | takenBack line undoing => exact ⟨_, _, line, asking_undoing undoing⟩
    | ended line calling aim => exact ⟨_, _, line, asking_close calling aim⟩
  obtain ⟨call, rest, line, asking⟩ := asking
  refine ⟨earlier, ?_⟩
  rw [e, line, spoken, asking]
  rfl

/-- At most one call of the core is in flight. When the lifecycle line is empty, the core has a
session exactly if the store shows one, and while the store shows one the line is empty: nothing
waits that could close it. -/
theorem Past.core_agrees {ms : List Moment} {c : Client} (past : Past ms c) :
    (coreCalls ms).countP (·.inFlight) ≤ 1 ∧
    (c.line = [] →
      (∀ call ∈ coreCalls ms, call.inFlight = false) ∧
      (c.store.status = .connected ∨ c.store.status = .lost → endsOpen (coreCalls ms)) ∧
      (c.store.status = .disconnected → ¬ endsOpen (coreCalls ms)) ∧
      c.store.status ≠ .connecting) ∧
    (c.store.status = .connected ∨ c.store.status = .lost → c.line = []) := by
  obtain ⟨earlier, e, answered, shown, held⟩ := past.accounts
  have inSession : c.store.inSession ↔ c.store.status = .connected ∨ c.store.status = .lost := by
    simp [Store.inSession]
  rw [e]
  refine ⟨?_, fun line => ?_, fun session => past.orderly.alone (inSession.2 session)⟩
  · have none_inFlight : earlier.countP (·.inFlight) = 0 := by
      rw [List.countP_eq_zero]
      intro call member
      simp [answered call member]
    rw [List.countP_append, none_inFlight, Nat.zero_add]
    refine Nat.le_trans List.countP_le_length ?_
    cases c.line with
    | nil => exact Nat.zero_le 1
    | cons call rest => cases asking : call.asking? <;> simp [spoken, asking]
  · rw [line] at held ⊢
    simp only [spoken, List.append_nil]
    refine ⟨answered, fun session => shown (inSession.2 session), fun idle opened => ?_, ?_⟩
    · rcases held opened with session | closes
      · simp [Store.inSession, idle] at session
      · cases closes
    · exact (past.orderly.fits_line line).resting

/-- Two attempts and a call that closes between them, all lined up behind a slow core. -/
theorem core_agrees_after_overlap :
    ∃ ms c, Past ms c ∧ c.line = [] ∧ c.store.status = .connected ∧
      coreCalls ms =
        [⟨.connect "10.0.0.1" 27015, some true⟩, ⟨.disconnect, some false⟩,
          ⟨.disconnect, some false⟩, ⟨.connect "10.0.0.2" 27015, some true⟩] ∧
      endsOpen (coreCalls ms) := by
  have lived : (start {} {} {} 0 0).live?
      [.connect .caller "10.0.0.1" 27015, .turn, .disconnect, .connect .caller "10.0.0.2" 27015,
        .opened (.ok true) fun _ => 0, .closed (.ok ()), .turn, .closed (.ok ()), .turn,
        .opened (.ok true) fun _ => 0] = some (_, _) := rfl
  have past := Past.of_live lived
  exact ⟨_, _, past, rfl, rfl, rfl, ((Past.core_agrees past).2.1 rfl).2.1 (.inl rfl)⟩

end Client

end OnlinePlay
