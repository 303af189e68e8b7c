import OnlinePlay.Proofs.Client.Replies
import OnlinePlay.Proofs.Client.Verdict
import OnlinePlay.Proofs.Rehearsal.Dispatcher

/-!
# Continuations

An attempt can give its result to a continuation, by way of the dispatcher, which also runs the
callbacks of the subscribers. What is handed to the dispatcher is followed through a history
together with the call that does it (`handedIn`). An attempt waits for its result until it is given
one, at the end of the last thing that it does; so the continuation is handed in once, and behind
every callback for an event of the attempt (`Continues`).
-/

namespace OnlinePlay

/-- Where the result of an attempt is to go. -/
def Happening.reply? : Happening → Option Reply
  | connect reply .. | host reply .. => some reply
  | _ => none

/-- What is handed to the dispatcher at a moment, with the call that does it. -/
def Moment.handedIn (m : Moment) : List (Option CallId × Delivery) :=
  (m.effects.filterMap Effect.delivery?).map (m.actor?, ·)

/-- What is handed to the dispatcher in a history. -/
def handedIn (ms : List Moment) : List (Option CallId × Delivery) := ms.flatMap (·.handedIn)

/-- The results that are given in a history. -/
def verdicts (ms : List Moment) : List (CallId × AttemptResult) := ms.flatMap (·.verdicts)

/-- An attempt has given its result to its continuation. -/
structure Continues (ms : List Moment) (id : CallId) (r : AttemptResult) : Prop where
  /-- The continuation is handed in once, behind everything else that the attempt hands in. -/
  arranged : ∃ ahead behind, handedIn ms = ahead ++ (some id, .outcome id (.attempt r)) :: behind ∧
    (∀ x ∈ behind, x.1 ≠ some id) ∧
    ∀ x ∈ ahead ++ behind, ∀ s, x.2 ≠ .outcome id (.attempt s)
  /-- If all calls return to their callers, this attempt returns just that result. -/
  direct : ∀ s, .returns id (.attempt s) ∈ (ms.map Moment.direct).flatMap (·.effects) ↔ s = r

/-! ## What is handed in -/

section

variable {id : CallId} {r : AttemptResult}

lemma handedIn_snoc (ms : List Moment) (m : Moment) :
    handedIn (ms ++ [m]) = handedIn ms ++ m.handedIn := by
  simp [handedIn]

lemma verdicts_snoc (ms : List Moment) (m : Moment) :
    verdicts (ms ++ [m]) = verdicts ms ++ m.verdicts := by
  simp [verdicts]

lemma verdict_of_delivery {e : Effect} (handed : e.delivery? = some (.outcome id (.attempt r))) :
    e.verdict? = some (id, r) := by
  cases e with
  | dispatches d =>
    obtain rfl := Option.some.inj handed
    rfl
  | asks | returns | broadcasts => cases handed

/-- A continuation that is handed in has been given its result. -/
lemma Moment.verdict_of_handedIn {m : Moment} {tag : Option CallId}
    (handed : (tag, .outcome id (.attempt r)) ∈ m.handedIn) : (id, r) ∈ m.verdicts := by
  obtain ⟨_, handed, eq⟩ := List.mem_map.1 handed
  cases eq
  obtain ⟨e, said, handed⟩ := List.mem_filterMap.1 handed
  exact List.mem_filterMap.2 ⟨e, said, verdict_of_delivery handed⟩

lemma verdict_of_handedIn {ms : List Moment} {tag : Option CallId}
    (handed : (tag, .outcome id (.attempt r)) ∈ handedIn ms) : (id, r) ∈ verdicts ms := by
  obtain ⟨m, member, handed⟩ := List.mem_flatMap.1 handed
  exact List.mem_flatMap.2 ⟨m, member, m.verdict_of_handedIn handed⟩

lemma direct_eq_returns {e : Effect} :
    e.direct = .returns id (.attempt r) ↔ e.verdict? = some (id, r) := by
  cases e with
  | asks | broadcasts => simp [Effect.direct, Effect.verdict?]
  | returns call o => cases o <;> simp [Effect.direct, Effect.verdict?]
  | dispatches d =>
    cases d with
    | event => simp [Effect.direct, Effect.verdict?]
    | outcome call o => cases o <;> simp [Effect.direct, Effect.verdict?]

/-- If all calls return to their callers, just the results are returned that are given. -/
lemma returns_direct_iff {ms : List Moment} :
    .returns id (.attempt r) ∈ (ms.map Moment.direct).flatMap (·.effects) ↔
      (id, r) ∈ verdicts ms := by
  simp only [List.flatMap_map, Moment.direct, verdicts, Moment.verdicts, List.mem_flatMap,
    List.mem_map, List.mem_filterMap, direct_eq_returns]

namespace Continues

variable {ms : List Moment} {m : Moment}

lemma told (continues : Continues ms id r) (s : AttemptResult) : (id, s) ∈ verdicts ms ↔ s = r :=
  returns_direct_iff.symm.trans (continues.direct s)

/-- An attempt that gives its result last of all has given it once. -/
lemma of_last {es : List Effect} (unheard : ∀ s, (id, s) ∉ verdicts ms) (acts : m.actor? = some id)
    (effects : m.effects = es ++ [.dispatches (.outcome id (.attempt r))])
    (silent : es.filterMap Effect.verdict? = []) : Continues (ms ++ [m]) id r := by
  have given : m.verdicts = [(id, r)] := by
    simp [Moment.verdicts, effects, silent, Effect.verdict?]
  have told (s : AttemptResult) : (id, s) ∈ verdicts (ms ++ [m]) ↔ s = r := by
    rw [verdicts_snoc, given, List.mem_append, or_iff_right (unheard s), List.mem_singleton]
    simp
  refine ⟨⟨handedIn ms ++ (es.filterMap Effect.delivery?).map (some id, ·), [], ?_,
      List.forall_mem_nil _, ?_⟩,
    fun s => returns_direct_iff.trans (told s)⟩
  · rw [handedIn_snoc, Moment.handedIn, effects, acts]
    simp [Effect.delivery?]
  · rintro ⟨tag, d⟩ member s rfl
    rw [List.append_nil, List.mem_append] at member
    rcases member with earlier | now
    · exact unheard s (verdict_of_handedIn earlier)
    · -- Before its result, the attempt only tells events.
      obtain ⟨_, handed, eq⟩ := List.mem_map.1 now
      cases eq
      obtain ⟨e, said, handed⟩ := List.mem_filterMap.1 handed
      have verdict := verdict_of_delivery handed
      rw [List.filterMap_eq_nil_iff.1 silent e said] at verdict
      cases verdict

/-- An attempt that has given its result has no part in what happens later. -/
lemma snoc (continues : Continues ms id r) (rests : m.actor? ≠ some id)
    (unjudged : ∀ s, (id, s) ∉ m.verdicts) : Continues (ms ++ [m]) id r := by
  have told (s : AttemptResult) : (id, s) ∈ verdicts (ms ++ [m]) ↔ s = r := by
    rw [verdicts_snoc, List.mem_append, or_iff_left (unjudged s), continues.told]
  obtain ⟨ahead, behind, eq, later, once⟩ := continues.arranged
  refine ⟨⟨ahead, behind ++ m.handedIn, ?_, ?_, ?_⟩, fun s => returns_direct_iff.trans (told s)⟩
  · rw [handedIn_snoc, eq, List.append_assoc, List.cons_append]
  · intro x member
    rcases List.mem_append.1 member with earlier | now
    · exact later x earlier
    · obtain ⟨_, -, rfl⟩ := List.mem_map.1 now
      exact rests
  · rintro x member s
    rw [← List.append_assoc, List.mem_append] at member
    rcases member with earlier | now
    · exact once x earlier s
    · rintro same
      obtain ⟨tag, _⟩ := x
      subst same
      exact unjudged s (m.verdict_of_handedIn now)

end Continues

end

/-- A rehearsal goes through these moments of its client. In between, someone may attend to the
queue of the dispatcher, and anything may happen that concerns neither. -/
inductive Play.Goes (p : Play) : List Moment → Play → Prop where
  | start : Goes p [] p
  | happen {ms : List Moment} {q : Play} {h : Happening} {d : Client} {es : List Effect} :
    Goes p ms q →
    q.client.step? h = some (d, es) →
    Goes p (ms ++ [⟨q.client, h, es, d⟩]) (q.happen h)
  | runNext {ms : List Moment} {q : Play} : Goes p ms q → Goes p ms q.runNext.2
  | runPending {ms : List Moment} {q : Play} : Goes p ms q → Goes p ms q.runPending.2
  | apart {ms : List Moment} {q r : Play} :
    Goes p ms q →
    r.client = q.client →
    r.queue = q.queue →
    r.delivered = q.delivered →
    Goes p ms r

/-- What is handed in during a rehearsal goes to the end of what is arranged. -/
lemma Play.Goes.hands {p q : Play} {ms : List Moment} (goes : p.Goes ms q)
    (attended : p.Attended) : p.Hands q q.client ((handedIn ms).map Prod.snd) := by
  induction goes with
  | start => exact .refl attended
  | @happen ms q h d es _ step ih =>
    have all := ih.trans (hands_happen ih.attended step)
    rw [← all.client] at all
    simpa [handedIn_snoc, Moment.handedIn, Function.comp_def] using all
  | runNext _ ih =>
    have all := ih.trans (hands_runNext ih.attended)
    rwa [← all.client, List.append_nil] at all
  | runPending _ ih =>
    have all := ih.trans (hands_runPending ih.attended).1
    rwa [← all.client, List.append_nil] at all
  | apart _ client queue delivered ih =>
    have all := ih.trans (.of_eq ih.attended client queue delivered)
    rwa [← all.client, List.append_nil] at all

namespace Client

variable {c d : Client} {h : Happening} {es : List Effect} {id : CallId} {r : AttemptResult}

/-! ## Giving results -/

/-- Whoever wants a session to be opened is told at once why not, or lines up with their reply. -/
lemma opening_inv {reply : Reply} (step : c.step? h = some (d, es)) (asks : h.reply? = some reply) :
    (∃ e, es = [reply.effect c.nextCall (.attempt (.error e))] ∧
        d = { c with nextCall := c.nextCall + 1 }) ∨
      (es.filterMap Effect.verdict? = [] ∧ d.nextCall = c.nextCall + 1 ∧
        ∃ g goal, d.line = c.line ++ [⟨c.nextCall, reply, .attempt g goal, .waiting⟩]) := by
  cases h with
  | connect reply' address port =>
    obtain rfl := Option.some.inj asks
    obtain ⟨rfl, rfl⟩ := outcome_eq step
    rw [connect]
    obtain ⟨e, rejected, -⟩ | ⟨-, g, s, -, let_in⟩ := c.takeCall.2.begin_cases
    · simp only [rejected]
      exact .inl ⟨e, rfl, rfl⟩
    · simp only [let_in]
      exact .inr ⟨verdicts_announce _, rfl, g, _, rfl⟩
  | host reply' port draws =>
    obtain rfl := Option.some.inj asks
    rw [step?, host?] at step
    obtain ⟨e, rejected, -⟩ | ⟨-, g, s, -, let_in⟩ := c.takeCall.2.begin_cases
    · simp only [rejected] at step
      cases step
      exact .inl ⟨e, rfl, rfl⟩
    · simp only [let_in] at step
      obtain ⟨⟨code, t⟩, -, e⟩ := Option.map_eq_some_iff.1 step
      cases e
      exact .inr ⟨verdicts_announce _, rfl, g, _, rfl⟩
  | _ => cases asks

/-- A call tells some events and then gives a result. -/
def Concludes (id : CallId) (r : AttemptResult) (reply : Reply) (es : List Effect) : Prop :=
  ∃ (b : Client) (news : List SessionEvent),
    es = b.publishAll news ++ [reply.effect id (.attempt r)]

lemma Concludes.only {reply : Reply} {call : CallId} {s : AttemptResult}
    (concludes : Concludes call s reply es) (given : (id, r) ∈ es.filterMap Effect.verdict?) :
    id = call ∧ r = s := by
  obtain ⟨b, news, rfl⟩ := concludes
  simpa [b.filterMap_publishAll b.verdicts_publish] using given

lemma concludes_fail {call : LifecycleCall} {g : Nat} {e : ConnectionError}
    (failed : c.fail call g e = (d, es)) : Concludes call.id (.error e) call.reply es := by
  rw [fail_eq] at failed
  cases failed
  exact ⟨_, _, rfl⟩

/-- A result is given by the call that acts, at the end of what it does. -/
lemma Shift.gives (shift : c.Shift h es d) (given : (id, r) ∈ es.filterMap Effect.verdict?) :
    Moment.actor? ⟨c, h, es, d⟩ = some id ∧ ∃ reply, Concludes id r reply es ∧
      (h.isOpening ∨ ∃ call ∈ c.line, call.id = id ∧ call.reply = reply) := by
  have nothing (quiet : es.filterMap Effect.deed? = []) : False := by
    rw [verdicts_quiet quiet] at given
    cases given
  have first {call : LifecycleCall} {rest : List LifecycleCall} {s : AttemptResult}
      (line : c.line = call :: rest) (advances : h.advances)
      (concludes : Concludes call.id s call.reply es) :
      Moment.actor? ⟨c, h, es, d⟩ = some id ∧ ∃ reply, Concludes id r reply es ∧
        (h.isOpening ∨ ∃ call ∈ c.line, call.id = id ∧ call.reply = reply) := by
    obtain ⟨rfl, rfl⟩ := concludes.only given
    exact ⟨by simp [Moment.actor?, advances, line], _, concludes,
      .inr ⟨call, by simp [line], rfl, rfl⟩⟩
  cases shift with
  | aside _ apart => exact (nothing apart.quiet).elim
  | rejected opening =>
    obtain ⟨rfl, rfl⟩ : id = c.nextCall ∧ r = .error _ := by simpa using given
    exact ⟨actor_calls (Happening.calls_opening opening), _, ⟨c, [], rfl⟩, .inl opening⟩
  | begun _ _ _ _ told => exact (nothing (told ▸ deeds_announce _)).elim
  | repeated | asked | undone => cases given
  | reset _ closed =>
    obtain ⟨-, -, -, -, -, quiet⟩ := close_inv closed
    exact (nothing quiet).elim
  | passedOver line => exact first line rfl ⟨c, [], rfl⟩
  | succeeded line _ _ _ _ told =>
    exact first line rfl ⟨_, [_], by rw [told, publishAll, List.flatMap_singleton]; rfl⟩
  | refused line _ _ _ failed | takenBack line _ _ _ failed =>
    exact first line rfl (concludes_fail failed)
  | ended _ _ _ ended => exact (nothing (apart_endClose ended).quiet).elim
  | took _ _ received =>
    obtain ⟨-, -, -, -, quiet⟩ := receive_inv received
    exact (nothing quiet).elim

/-- Results are given to calls that have been made. -/
lemma Past.verdict_made {ms : List Moment} (past : Past ms c) (given : (id, r) ∈ verdicts ms) :
    id < c.nextCall := by
  induction ms using List.reverseRecOn generalizing c with
  | nil => cases given
  | append_singleton ms m ih =>
    obtain ⟨before, step, rfl⟩ := past.last
    have shift := shift_of_step step
    rw [verdicts, List.flatMap_append, List.flatMap_singleton, List.mem_append] at given
    rcases given with earlier | now
    · exact Nat.lt_of_lt_of_le (ih before earlier) shift.line_cases.1
    · exact before.numbered.actor_made shift (shift.gives now).1

/-- A call of the line keeps its reply. -/
lemma Shift.keeps_reply (shift : c.Shift h es d) {call : LifecycleCall} (member : call ∈ d.line)
    (made : call.id < c.nextCall) :
    ∃ same ∈ c.line, same.id = call.id ∧ same.reply = call.reply := by
  obtain ⟨-, line | ⟨last, line, id, -⟩ | ⟨first, rest, stage, before, line⟩ | ⟨first, line⟩⟩ :=
    shift.line_cases
  · exact ⟨call, line ▸ member, rfl, rfl⟩
  · rw [line, List.mem_append, List.mem_singleton] at member
    rcases member with member | rfl
    · exact ⟨call, member, rfl, rfl⟩
    · exact absurd id (Nat.ne_of_lt made)
  · rw [line] at member
    rw [before]
    cases member with
    | head => exact ⟨first, .head _, rfl, rfl⟩
    | tail _ member => exact ⟨call, .tail _ member, rfl, rfl⟩
  · exact ⟨call, line ▸ .tail _ member, rfl, rfl⟩

/-! ## The course of an attempt -/

/-- An attempt waits for its result, and will give it to its continuation. -/
structure Expects (ms : List Moment) (c : Client) (a : Attempt) : Prop where
  pending : a ∈ c.attempts
  replies : ∀ call ∈ c.line, call.id = a.call → call.reply = .dispatcher
  unheard : ∀ s, (a.call, s) ∉ verdicts ms

lemma Past.expects_first {older : List Moment} {first : Moment} (past : Past (older ++ [first]) c)
    (asks : first.happening.reply? = some .dispatcher) :
    (∃ g, Expects (older ++ [first]) c ⟨first.before.nextCall, g⟩) ∨
      (c.Gone first.before.nextCall ∧
        ∃ r, Continues (older ++ [first]) first.before.nextCall r) := by
  obtain ⟨before, step, rfl⟩ := past.last
  have unheard (s : AttemptResult) : (first.before.nextCall, s) ∉ verdicts older := fun given =>
    Nat.lt_irrefl _ (before.verdict_made given)
  have below := before.numbered.below
  obtain ⟨e, effects, away⟩ | ⟨silent, -, g, goal, line⟩ := opening_inv step asks
  · right
    have opening : first.happening.isOpening := by
      cases happening : first.happening <;> first | rfl | simp [happening, Happening.reply?] at asks
    have last : first.effects = [] ++ [.dispatches (.outcome _ (.attempt (.error e)))] := effects
    refine ⟨?_, _, .of_last unheard (actor_calls (Happening.calls_opening opening)) last rfl⟩
    rw [away]
    exact ⟨Nat.lt_succ_self _, fun call member => Nat.ne_of_lt (below call member)⟩
  · left
    refine ⟨g, ?_, fun call member same => ?_, fun s => ?_⟩
    · simp [attempts, line, LifecycleCall.attempt?]
    · rw [line, List.mem_append, List.mem_singleton] at member
      rcases member with member | rfl
      · exact absurd same (Nat.ne_of_lt (below call member))
      · rfl
    · rw [verdicts_snoc, show first.verdicts = [] from silent, List.append_nil]
      exact unheard s

/-- From its call on an attempt waits for its result, until it has given it to its continuation. -/
lemma Past.expects {older newer : List Moment} {first : Moment}
    (past : Past (older ++ first :: newer) c) (asks : first.happening.reply? = some .dispatcher) :
    (∃ g, Expects (older ++ first :: newer) c ⟨first.before.nextCall, g⟩) ∨
      (c.Gone first.before.nextCall ∧
        ∃ r, Continues (older ++ first :: newer) first.before.nextCall r) := by
  induction newer using List.reverseRecOn generalizing c with
  | nil => exact past.expects_first asks
  | append_singleton newer m ih =>
    rw [← List.cons_append, ← List.append_assoc] at past ⊢
    obtain ⟨before, step, rfl⟩ := past.last
    have shift := shift_of_step step
    rcases ih before with ⟨g, pending, replies, unheard⟩ | ⟨gone, r, continues⟩
    · have made := before.numbered.attempt_made pending
      rcases before.attempt_step step pending with ⟨stays, -, unjudged⟩ | ⟨gone, r, judged, -⟩
      · refine .inl ⟨g, stays, fun call member same => ?_, fun s => ?_⟩
        · obtain ⟨earlier, member, sameId, sameReply⟩ :=
            shift.keeps_reply member (same ▸ made)
          rw [← sameReply]
          exact replies earlier member (sameId.trans same)
        · rw [verdicts_snoc, List.mem_append, not_or]
          exact ⟨unheard s, unjudged s⟩
      · obtain ⟨acts, reply, ⟨b, news, effects⟩, who⟩ :=
          shift.gives (judged ▸ .head _ : (first.before.nextCall, r) ∈ m.verdicts)
        have dispatcher : reply = .dispatcher := by
          rcases who with opening | ⟨call, member, same, rfl⟩
          · -- Whoever is turned away is called last, and this call was made before.
            rw [actor_calls (Happening.calls_opening opening)] at acts
            exact absurd (Option.some.inj acts) (Nat.ne_of_gt made)
          · exact replies call member same
        subst dispatcher
        exact .inr ⟨gone, r, .of_last unheard acts effects
          (b.filterMap_publishAll b.verdicts_publish news)⟩
    · exact .inr ⟨gone.shift shift, r, continues.snoc gone.rests (gone.not_given shift)⟩

/-- Every attempt with a continuation gives it its result, once, behind every callback for an event
of the attempt, and the result is that which would else have been returned to the caller. Until then
the attempt waits in the line, where it does not wait for ever if the core answers. -/
theorem Past.continues {older newer : List Moment} {first : Moment}
    (past : Past (older ++ first :: newer) c) (asks : first.happening.reply? = some .dispatcher) :
    ((∃ call ∈ c.line, call.id = first.before.nextCall) ∧
        (∀ tag s, (tag, .outcome first.before.nextCall (.attempt s)) ∉
          handedIn (older ++ first :: newer)) ∨
      ∃ r, Continues (older ++ first :: newer) first.before.nextCall r) ∧
    (∀ ns d, History c ns d → 3 * c.line.length ≤ ns.countP (·.happening.advances) →
      ∃ r, Continues (older ++ first :: newer ++ ns) first.before.nextCall r) ∧
    (c.line ≠ [] → ∀ answer delay closing,
      (c.step? .turn).isSome ∨ (c.step? (.opened answer delay)).isSome ∨
        (c.step? (.closed closing)).isSome) ∧
    Past ((older ++ first :: newer).map Moment.direct) c.direct ∧
    ∀ p q, p.Attended → Play.Goes p (older ++ first :: newer) q →
      q.arranged = p.arranged ++ (handedIn (older ++ first :: newer)).map Prod.snd := by
  refine ⟨?_, fun ns d history enough => ?_, fun waits => past.orderly.goes_on waits, past.direct,
    fun p q attended goes => (goes.hands attended).arranged⟩
  · rcases past.expects asks with ⟨g, expects⟩ | ⟨-, continues⟩
    · left
      obtain ⟨call, member, isA⟩ := List.mem_filterMap.1 expects.pending
      refine ⟨⟨call, member, (LifecycleCall.attempt_inv isA).1.symm⟩, fun tag s handed => ?_⟩
      exact expects.unheard s (verdict_of_handedIn handed)
    · exact .inr continues
  · have whole : Past (older ++ first :: (newer ++ ns)) d := by simpa using past.append history
    have made : first.before.nextCall < c.nextCall := by
      rcases past.expects asks with ⟨g, expects⟩ | ⟨gone, -⟩
      · exact past.numbered.attempt_made expects.pending
      · exact gone.made
    have gone := history.leaves past.numbered made enough
    rcases whole.expects asks with ⟨g, expects⟩ | ⟨-, continues⟩
    · exact absurd expects.pending gone.not_mem
    · simpa using continues

/-- A guest gets in. Someone has attended to the queue before that, and the callback for the second
event still waits there, ahead of the continuation. -/
theorem continues_behind_callbacks :
    ∃ older first newer c, Past (older ++ first :: newer) c ∧
      first.happening.reply? = some .dispatcher ∧
      (∃ r, Continues (older ++ first :: newer) first.before.nextCall r) ∧
      ∃ p q : Play, p.Attended ∧ p.Goes (older ++ first :: newer) q ∧
        q.arranged = p.arranged ++ (handedIn (older ++ first :: newer)).map Prod.snd ∧
        q.delivered = [.event 1 (.statusChanged .connecting .none)] ∧
        q.waiting =
          [.event 1 (.statusChanged .connected .guest), .outcome 0 (.attempt (.ok none))] := by
  have lived : (start {} {} {} 0 0).live?
      [.subscribe [.connection], .connect .dispatcher "10.0.0.1" 27015, .turn,
        .opened (.ok true) fun _ => 0] = some (_, _) := rfl
  have past := Past.of_live lived
  have attended : Play.Attended
      { client := start {} {} {} 0 0, core := {}, queue := some {} } := .of_new rfl
  have begins := ((Play.Goes.start (p :=
    { client := start {} {} {} 0 0, core := {}, queue := some {} })).happen
      (h := .subscribe [.connection]) rfl).happen
      (h := .connect .dispatcher "10.0.0.1" 27015) rfl
  have goes := (begins.runNext.happen (h := .turn) rfl).happen
    (h := .opened (.ok true) fun _ => 0) rfl
  obtain ⟨result, -, -, -, arranged⟩ := @Past.continues _ [_] _ _ past rfl
  refine ⟨[_], _, _, _, past, rfl, ?_, _, _, attended, goes, arranged _ _ attended goes, rfl, rfl⟩
  rcases result with ⟨⟨call, member, -⟩, -⟩ | continues
  · cases member
  · exact continues

end Client

end OnlinePlay
