import Mathlib.Data.List.Induction
import OnlinePlay.Proofs.Rehearsal.Dispatcher

/-!
# Subscribers get their events

Subscriptions are made and ended, and events are published, in any order. What has been done so far
tells which subscriptions stand (`Stands`), and an event is told to those of them that have its
topic, oldest first. So whoever has subscribed hears the events of their topics that are published
from then on until they unsubscribe, and nothing else (`heard_since`).

With a queue the events are told later, but to the same subscriptions and in the same order: what
is arranged at any moment does not depend on the queue.
-/

namespace OnlinePlay

/-! ## Topics -/

namespace SessionEvent

variable {e : SessionEvent}

/-- The topic of the connection has what becomes of the session itself. -/
theorem topic_eq_connection_iff : e.topic = .connection ↔
    (∃ status role, e = .statusChanged status role) ∨ (∃ reason, e = .connectionFailed reason) ∨
      e = .gameStarted ∨ e = .nativeDisconnected := by
  cases e <;> simp [topic]

/-- The topic of the players has who is there. -/
theorem topic_eq_player_iff : e.topic = .player ↔
    (∃ player, e = .playerJoined player) ∨ (∃ id, e = .playerLeft id) ∨
      ∃ roster, e = .rosterUpdated roster := by
  cases e <;> simp [topic]

/-- The topic of the chat has its messages, and nothing else. -/
theorem topic_eq_chat_iff : e.topic = .chat ↔ ∃ message, e = .chat message := by
  cases e <;> simp [topic]

end SessionEvent

namespace Play

/-- What may be done with the subscriptions of a client and with the queue of its dispatcher. -/
inductive Use where
  | subscribe (topics : List Topic)
  | unsubscribe (id : Nat)
  | publish (e : SessionEvent)
  | runNext
  | runPending
  deriving DecidableEq

/-- Publishes an event. -/
def publish (p : Play) (e : SessionEvent) : Play := (p.client.publish e).foldl handle p

/-- Does one thing with the subscriptions or the queue. -/
def use (p : Play) : Use → Play
  | .subscribe topics => p.happen (.subscribe topics)
  | .unsubscribe id => p.happen (.unsubscribe id)
  | .publish e => p.publish e
  | .runNext => p.runNext.2
  | .runPending => p.runPending.2

/-- Does one thing after the other. -/
def useAll (p : Play) (us : List Use) : Play := us.foldl use p

/-! ## What was done -/

namespace Use

/-- Whether a subscription is made. -/
def subscribes : Use → Bool
  | subscribe _ => true
  | unsubscribe _ | publish _ | runNext | runPending => false

/-- The event that is published, if one is. -/
def event? : Use → Option SessionEvent
  | publish e => some e
  | subscribe _ | unsubscribe _ | runNext | runPending => none

/-- How many subscriptions were made. The next one gets the number after that. -/
def made (us : List Use) : Nat := us.countP subscribes

/-- The events that were published, in their order. -/
def published (us : List Use) : List SessionEvent := us.filterMap event?

/-- The events that were published before a subscription was ended. -/
def publishedUntil (id : Nat) (us : List Use) : List SessionEvent :=
  published (us.takeWhile (· ≠ unsubscribe id))

/-- A subscription to these topics got this number and was not ended since. -/
def Stands (us : List Use) (id : Nat) (topics : List Topic) : Prop :=
  ∃ older newer, us = older ++ subscribe topics :: newer ∧ id = made older + 1 ∧
    unsubscribe id ∉ newer

variable {us older newer : List Use} {u : Use} {id : Nat} {topics wanted : List Topic}

@[simp]
lemma made_snoc : made (us ++ [u]) = made us + if u.subscribes then 1 else 0 := by
  simp [made, List.countP_cons]

lemma not_stands_nil : ¬ Stands [] id topics := by
  rintro ⟨older, newer, none, -⟩
  simp at none

lemma published_cons : published (u :: us) = u.event?.toList ++ published us := by
  cases event : u.event? <;> simp [published, event]

/-- A subscription stands if it has just been made, or if it stood before and has not just been
ended. -/
lemma stands_snoc :
    Stands (us ++ [u]) id topics ↔
      (u = subscribe topics ∧ id = made us + 1) ∨ (Stands us id topics ∧ u ≠ unsubscribe id) := by
  constructor
  · rintro ⟨older, newer, eq, rfl, kept⟩
    rcases newer.eq_nil_or_concat with rfl | ⟨newer, last, rfl⟩
    · obtain ⟨rfl, one⟩ := List.append_inj' eq rfl
      exact .inl ⟨List.singleton_inj.1 one, rfl⟩
    · rw [List.concat_eq_append] at eq kept
      rw [← List.cons_append, ← List.append_assoc] at eq
      obtain ⟨rfl, one⟩ := List.append_inj' eq rfl
      obtain rfl := List.singleton_inj.1 one
      rw [List.mem_append, not_or, List.mem_singleton] at kept
      exact .inr ⟨⟨older, newer, rfl, rfl, kept.1⟩, Ne.symm kept.2⟩
  · rintro (⟨rfl, rfl⟩ | ⟨⟨older, newer, rfl, rfl, kept⟩, other⟩)
    · exact ⟨us, [], rfl, rfl, List.not_mem_nil⟩
    · refine ⟨older, newer ++ [u], by simp, rfl, ?_⟩
      simpa [kept] using other.symm

lemma Stands.le (stands : Stands us id topics) : id ≤ made us := by
  obtain ⟨older, newer, rfl, rfl, -⟩ := stands
  simp [made, List.countP_append, List.countP_cons, subscribes]

/-- Once a subscription was made, it stands until it is ended. -/
lemma stands_since :
    Stands (older ++ subscribe topics :: newer) (made older + 1) wanted ↔
      wanted = topics ∧ unsubscribe (made older + 1) ∉ newer := by
  induction newer using List.reverseRecOn with
  | nil =>
    have fresh : ¬ Stands older (made older + 1) wanted := fun old => by
      have := old.le
      omega
    simp [stands_snoc, fresh, eq_comm]
  | append_singleton newer u ih =>
    have more : made older ≠ made (older ++ subscribe topics :: newer) := by
      simp [made, List.countP_append, List.countP_cons, subscribes]
    rw [← List.cons_append, ← List.append_assoc, stands_snoc, ih, List.mem_append]
    simp [more, and_assoc, eq_comm]

/-- One more event is published before a subscription is ended, unless it has been ended before. -/
lemma publishedUntil_snoc (newer : List Use) (u : Use) (id : Nat) :
    publishedUntil id (newer ++ [u]) =
      publishedUntil id newer ++ if unsubscribe id ∉ newer then published [u] else [] := by
  simp only [publishedUntil]
  induction newer with
  | nil => by_cases ends : u = unsubscribe id <;> simp [ends, published, event?]
  | cons v newer ih =>
    by_cases ended : v = unsubscribe id
    · simp [ended, published]
    · have other : unsubscribe id ≠ v := Ne.symm ended
      have passes : decide (v ≠ unsubscribe id) = true := decide_eq_true ended
      simp only [List.cons_append, List.takeWhile_cons, passes, if_true, published_cons, ih,
        List.append_assoc, List.mem_cons, other, false_or]

end Use

open Use

end Play

/-! ## What the subscriptions make of it -/

namespace Subscriptions

open Play Use

/-- The subscriptions once something was done. -/
def after (s : Subscriptions) : Use → Subscriptions
  | .subscribe topics => (s.subscribe topics).2
  | .unsubscribe id => (s.unsubscribe id).2
  | .publish _ | .runNext | .runPending => s

/-- What something that is done tells the subscribers. -/
def told (s : Subscriptions) : Use → List Delivery
  | .publish e => (s.listeners e).map (.event · e)
  | .subscribe _ | .unsubscribe _ | .runNext | .runPending => []

/-- What the subscribers are told by one thing after the other. -/
def toldAll (s : Subscriptions) : List Use → List Delivery
  | [] => []
  | u :: us => s.told u ++ (s.after u).toldAll us

/-- The subscriptions are what has come of all that was done. -/
structure Reflects (us : List Use) (s : Subscriptions) : Prop where
  nextId : s.nextId = made us + 1
  standing : ∀ id topics, ⟨id, topics⟩ ∈ s.standing ↔ Stands us id topics
  ordered : s.standing.Pairwise (·.id < ·.id)

variable {us older newer : List Use} {u : Use} {s : Subscriptions}

lemma toldAll_append (s : Subscriptions) (us vs : List Use) :
    s.toldAll (us ++ vs) = s.toldAll us ++ (us.foldl after s).toldAll vs := by
  induction us generalizing s with
  | nil => rfl
  | cons u us ih => simp [toldAll, ih]

lemma Reflects.le (reflects : Reflects us s) {w : Subscription} (member : w ∈ s.standing) :
    w.id ≤ made us :=
  ((reflects.standing w.id w.topics).1 member).le

lemma Reflects.snoc (reflects : Reflects us s) (u : Use) : Reflects (us ++ [u]) (s.after u) := by
  obtain ⟨nextId, standing, ordered⟩ := id reflects
  cases u with
  | subscribe topics =>
    refine ⟨by simp [after, Subscriptions.subscribe, nextId, subscribes], ?_, ?_⟩
    · intro id wanted
      simp only [after, Subscriptions.subscribe, List.mem_append, List.mem_singleton, standing,
        Subscription.mk.injEq, nextId, stands_snoc, Use.subscribe.injEq]
      grind
    · refine List.pairwise_append.2 ⟨ordered, List.pairwise_singleton _ _, ?_⟩
      intro w member next isNext
      obtain rfl := List.mem_singleton.1 isNext
      have := reflects.le member
      dsimp only
      omega
  | unsubscribe ended =>
    refine ⟨by simp [after, Subscriptions.unsubscribe, nextId, subscribes], ?_,
      ordered.filter _⟩
    intro id wanted
    simp only [after, Subscriptions.unsubscribe, List.mem_filter, decide_eq_true_eq, standing,
      stands_snoc, reduceCtorEq, false_and, false_or, Use.unsubscribe.injEq, ne_eq, ne_comm]
  | publish _ | runNext | runPending =>
    exact ⟨by simp [after, nextId, subscribes], by simp [after, stands_snoc, standing], ordered⟩

lemma reflects (us : List Use) : Reflects us (us.foldl after {}) := by
  induction us using List.reverseRecOn with
  | nil => exact ⟨rfl, by simp [not_stands_nil], .nil⟩
  | append_singleton us u ih =>
    rw [List.foldl_append]
    exact ih.snoc u

lemma Reflects.contains_iff (reflects : Reflects us s) (id : Nat) :
    s.contains id ↔ ∃ topics, Stands us id topics := by
  simp only [contains, List.any_eq_true, decide_eq_true_eq, ← reflects.standing]
  constructor
  · rintro ⟨w, member, rfl⟩
    exact ⟨w.topics, member⟩
  · rintro ⟨topics, member⟩
    exact ⟨_, member, rfl⟩

/-- An event is told to the subscriptions that stand and have its topic, in their order. -/
lemma Reflects.listeners (reflects : Reflects us s) (e : SessionEvent) :
    (s.listeners e).Pairwise (· < ·) ∧
      ∀ id, id ∈ s.listeners e ↔ ∃ topics, Stands us id topics ∧ e.topic ∈ topics := by
  refine ⟨(reflects.ordered.filter _).map _ fun _ _ => id, fun id => ?_⟩
  simp only [Subscriptions.listeners, List.mem_map, List.mem_filter, List.contains_iff_mem,
    ← reflects.standing]
  constructor
  · rintro ⟨w, ⟨member, asked⟩, rfl⟩
    exact ⟨w.topics, member, asked⟩
  · rintro ⟨topics, member, asked⟩
    exact ⟨_, ⟨member, asked⟩, rfl⟩

/-! ## What one subscriber hears -/

/-- The events that are told to a subscription. -/
def heard (id : Nat) (ds : List Delivery) : List SessionEvent :=
  ds.filterMap fun
    | .event told e => if told = id then some e else none
    | .outcome .. => none

lemma heard_append (id : Nat) (ds es : List Delivery) :
    heard id (ds ++ es) = heard id ds ++ heard id es := List.filterMap_append

/-- A subscriber is called once at most for an event. -/
lemma heard_event {ids : List Nat} (ordered : ids.Pairwise (· < ·)) (id : Nat) (e : SessionEvent) :
    heard id (ids.map (.event · e)) = if id ∈ ids then [e] else [] := by
  induction ids with
  | nil => rfl
  | cons first ids ih =>
    obtain ⟨less, ordered⟩ := List.pairwise_cons.1 ordered
    have rest := ih ordered
    rcases eq_or_ne first id with rfl | other
    · have absent : first ∉ ids := fun member => Nat.lt_irrefl _ (less _ member)
      simpa [heard, absent] using rest
    · simpa [heard, other, other.symm] using rest

/-- What a subscription hears of something that is done, if it can only be one for these topics. -/
lemma Reflects.heard_told (reflects : Reflects us s) {id : Nat} {topics : List Topic}
    {stands : Prop} [Decidable stands]
    (only : ∀ wanted, Stands us id wanted ↔ wanted = topics ∧ stands) (u : Use) :
    heard id (s.told u) =
      if stands then (Use.published [u]).filter (·.topic ∈ topics) else [] := by
  cases u with
  | publish e =>
    obtain ⟨ordered, member⟩ := reflects.listeners e
    have told : id ∈ s.listeners e ↔ stands ∧ e.topic ∈ topics := by
      simp [member, only, and_assoc]
    rw [Subscriptions.told, heard_event ordered, if_congr told rfl rfl, ite_and]
    simp [Use.published, event?, List.filter_cons]
  | subscribe _ | unsubscribe _ | runNext | runPending =>
    simp [Subscriptions.told, heard, Use.published, event?]

/-- Nothing is told to a subscription that has not been made. -/
lemma heard_unmade {id : Nat} (unmade : made us < id) : heard id (toldAll {} us) = [] := by
  induction us using List.reverseRecOn with
  | nil => rfl
  | append_singleton us u ih =>
    rw [made_snoc] at unmade
    have nobody (wanted : List Topic) : Stands us id wanted ↔ wanted = [] ∧ False := by
      simp only [and_false, iff_false]
      intro stands
      have := stands.le
      omega
    rw [toldAll_append, heard_append, ih (by omega), toldAll, toldAll, List.append_nil,
      (reflects us).heard_told nobody u]
    rfl

/-- Whoever has subscribed hears the events of their topics that are published until they
unsubscribe, each once and in their order. -/
lemma heard_since (older newer : List Use) (topics : List Topic) :
    heard (made older + 1) (toldAll {} (older ++ .subscribe topics :: newer)) =
      (publishedUntil (made older + 1) newer).filter (·.topic ∈ topics) := by
  induction newer using List.reverseRecOn with
  | nil =>
    have fresh : heard (made older + 1) (toldAll {} older) = [] :=
      heard_unmade (Nat.lt_succ_self _)
    simpa [toldAll_append, heard_append, toldAll, told, publishedUntil, Use.published] using fresh
  | append_singleton newer u ih =>
    have before := reflects (older ++ .subscribe topics :: newer)
    have now := before.heard_told (fun _ => stands_since) u
    rw [← List.cons_append, ← List.append_assoc, toldAll_append, heard_append, ih, toldAll, toldAll,
      List.append_nil, now, publishedUntil_snoc, List.filter_append]
    split <;> rfl

end Subscriptions

/-! ## What the dispatcher runs -/

namespace Play

open Use Subscriptions

variable {p : Play}

/-- What is done hands to the dispatcher what it tells the subscribers. -/
lemma hands_use (attended : p.Attended) (u : Use) :
    ∃ c, Hands p (p.use u) c (p.client.subscriptions.told u) ∧
      c.subscriptions = p.client.subscriptions.after u := by
  cases u with
  | subscribe topics =>
    have happened : Hands p (p.happen (.subscribe topics)) _ _ := hands_happen attended rfl
    exact ⟨_, happened, rfl⟩
  | unsubscribe id =>
    have happened : Hands p (p.happen (.unsubscribe id)) _ _ := hands_happen attended rfl
    exact ⟨_, happened, rfl⟩
  | publish e =>
    have handled := hands_handleAll attended (p.client.publish e)
    have told : (p.client.publish e).filterMap Effect.delivery? =
        p.client.subscriptions.told (.publish e) := by
      simp [Client.publish, Subscriptions.told, Effect.delivery?, List.filterMap_map,
        Function.comp_def]
    rw [told] at handled
    exact ⟨_, handled, rfl⟩
  | runNext => exact ⟨_, hands_runNext attended, rfl⟩
  | runPending => exact ⟨_, (hands_runPending attended).1, rfl⟩

lemma hands_useAll (attended : p.Attended) (us : List Use) :
    ∃ c, Hands p (p.useAll us) c (p.client.subscriptions.toldAll us) ∧
      c.subscriptions = us.foldl after p.client.subscriptions := by
  induction us generalizing p with
  | nil => exact ⟨_, .refl attended, rfl⟩
  | cons u us ih =>
    obtain ⟨c, first, next⟩ := hands_use attended u
    obtain ⟨d, rest, last⟩ := ih first.attended
    rw [first.client, next] at rest last
    exact ⟨d, first.trans rest, last⟩

lemma useAll_snoc (p : Play) (us : List Use) (u : Use) :
    p.useAll (us ++ [u]) = (p.useAll us).use u := by
  simp [useAll]

/-- After all that was done, the dispatcher has served the subscribers as it should, and will serve
the next event to them in this way. -/
structure Serves (us : List Use) (p : Play) : Prop where
  /-- No two subscriptions get the same number. -/
  numbered : ∀ topics, (p.client.subscriptions.subscribe topics).1 = made us + 1
  /-- Whoever ends a subscription is told whether it still stood. -/
  standing : ∀ id, (p.client.subscriptions.unsubscribe id).1 ↔ ∃ topics, Stands us id topics
  /-- An event is told to those who want it, in the order in which they have subscribed. -/
  tells : ∀ e, ∃ ids : List Nat, ids.Pairwise (· < ·) ∧
    (∀ id, id ∈ ids ↔ ∃ topics, Stands us id topics ∧ e.topic ∈ topics) ∧
    (p.use (.publish e)).delivered = p.delivered ++ ids.map (.event · e)
  /-- Nothing else is told. -/
  quiet : ∀ u : Use, u.event? = none → (p.use u).delivered = p.delivered
  /-- One who has subscribed hears what is published until they unsubscribe. -/
  hears : ∀ older topics newer, us = older ++ .subscribe topics :: newer →
    Subscriptions.heard (made older + 1) p.delivered =
      (publishedUntil (made older + 1) newer).filter (·.topic ∈ topics)

/-- Subscribers are served what they have asked for, and nothing else. With a queue to which someone
attends now and then, some of that is still to come; once it has been run at the end, everything
has been told in the same order as without a queue. -/
theorem serves_subscribers (nobody : p.client.subscriptions = {}) (nothing : p.delivered = [])
    (us : List Use) :
    Serves us ({ p with queue := none }.useAll us) ∧
      ({ p with queue := some {} }.useAll us).delivered <+:
        ({ p with queue := none }.useAll us).delivered ∧
      ({ p with queue := some {} }.useAll (us ++ [Use.runPending])).delivered =
        ({ p with queue := none }.useAll us).delivered := by
  have inline (vs : List Use) :
      ({ p with queue := none }.useAll vs).client.subscriptions = vs.foldl after {} ∧
      ({ p with queue := none }.useAll vs).delivered = toldAll {} vs := by
    obtain ⟨c, hands, same⟩ := hands_useAll (p := { p with queue := none }) (.of_none rfl) vs
    rw [hands.client, same, nobody, ← arranged_of_none (hands.inline rfl), hands.arranged,
      arranged_of_none rfl, nothing, nobody]
    exact ⟨rfl, rfl⟩
  have queued (vs : List Use) :
      ({ p with queue := some {} }.useAll vs).Attended ∧
      ({ p with queue := some {} }.useAll vs).arranged = toldAll {} vs := by
    have attended : Attended { p with queue := some {} } := .of_new rfl
    obtain ⟨c, hands, same⟩ := hands_useAll attended vs
    refine ⟨hands.attended, ?_⟩
    rw [hands.arranged, arranged, waiting, nothing, nobody]
    rfl
  have table := reflects us
  rw [← (inline us).1] at table
  refine ⟨⟨?_, table.contains_iff, ?_, ?_, ?_⟩, ?_, ?_⟩
  · intro topics
    exact table.nextId
  · intro e
    obtain ⟨ordered, member⟩ := table.listeners e
    refine ⟨_, ordered, member, ?_⟩
    rw [← useAll_snoc, (inline _).2, (inline us).2, toldAll_append, (inline us).1]
    simp [toldAll, told]
  · intro u quiet
    rw [← useAll_snoc, (inline _).2, (inline us).2, toldAll_append]
    cases u <;> simp_all [toldAll, told, event?]
  · rintro older topics newer rfl
    rw [(inline _).2]
    exact heard_since older newer topics
  · rw [(inline us).2, ← (queued us).2]
    exact List.prefix_append _ _
  · rw [useAll_snoc, (inline us).2, ← (queued us).2]
    obtain ⟨ran, empty⟩ := hands_runPending (queued us).1
    rw [← List.append_nil (arranged _), ← ran.arranged, arranged, empty, List.append_nil]
    rfl

/-- The first of two subscribers names a topic twice and still hears its event once. Later they have
gone, and only the second one hears the next event. -/
theorem serves_two_subscribers :
    Serves [.subscribe [.player, .player], .subscribe [.connection, .player],
        .publish (.playerLeft ⟨7⟩), .unsubscribe 1, .publish .gameStarted]
      (useAll { client := {}, core := {} }
        [.subscribe [.player, .player], .subscribe [.connection, .player],
          .publish (.playerLeft ⟨7⟩), .unsubscribe 1, .publish .gameStarted]) ∧
    (useAll { client := {}, core := {}, queue := some {} }
        [.subscribe [.player, .player], .subscribe [.connection, .player],
          .publish (.playerLeft ⟨7⟩), .unsubscribe 1, .publish .gameStarted,
          .runPending]).delivered =
      [.event 1 (.playerLeft ⟨7⟩), .event 2 (.playerLeft ⟨7⟩), .event 2 .gameStarted] := by
  obtain ⟨serves, -, same⟩ := serves_subscribers
    (p := { client := {}, core := {} }) rfl rfl
    [.subscribe [.player, .player], .subscribe [.connection, .player],
      .publish (.playerLeft ⟨7⟩), .unsubscribe 1, .publish .gameStarted]
  exact ⟨serves, same.trans rfl⟩

end Play

end OnlinePlay
