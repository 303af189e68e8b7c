import Mathlib.Tactic.Common
import OnlinePlay.Session.Store

/-!
# Store inversion

What each operation of a store does when it does something: the state it needs, and the store that
comes of it. The proofs about sessions use these facts and do not open the operations again.

An operation with several outcomes has one lemma for each (`begin_inv`, `finish_inv`, `abort_inv`),
and one that says when it does nothing. `setStatus` is first brought to a plain record, so that the
other fields of its result can be read off.
-/

namespace OnlinePlay.Store

/-- Setting the status changes nothing but the status and the watch. -/
lemma setStatus_eq (s : Store) (status : Status) :
    s.setStatus status =
      { s with
        status
        watch := if s.status = status then s.watch else ⟨status, s.watch.version + 1⟩ } := by
  rw [setStatus]
  split
  case isTrue e => subst e; rfl
  case isFalse => rfl

lemma isAttempt_iff {s : Store} {g : Nat} :
    s.isAttempt g = true ↔ s.generation = g ∧ s.status = .connecting := by
  simp [isAttempt]

lemma isCurrent_iff {s : Store} {g : Nat} :
    s.isCurrent g = true ↔ s.generation = g ∧ s.status ≠ .disconnected := by
  simp [isCurrent]

/-- An attempt opens the next generation of a disconnected session. -/
lemma begin_inv {s t : Store} {g : Nat} (h : s.begin = .ok (g, t)) :
    s.status = .disconnected ∧ g = s.generation + 1 ∧
      t = { s with
            generation := g
            status := .connecting
            lostWhileConnecting := false
            watch := ⟨.connecting, s.watch.version + 1⟩ } := by
  rw [begin] at h
  split at h
  case isTrue idle =>
    simp only [Except.ok.injEq, Prod.mk.injEq] at h
    obtain ⟨eg, et⟩ := h
    refine ⟨idle, eg.symm, ?_⟩
    rw [← et, setStatus_eq]
    simp [idle, eg]
  case isFalse => cases h

/-- A code is issued for the attempt under way and kept as the newest one. -/
lemma issueCode_inv {s t : Store} {draws : List (Fin 16)} {code : HostCode}
    (h : s.issueCode? draws = some (code, t)) :
    t = { s with pendingCode := some code, lastCode := some code } := by
  rw [issueCode?] at h
  obtain ⟨_, _, e⟩ := Option.map_eq_some_iff.1 h
  cases e
  rfl

/-- An attempt ends well only in its own generation, while it is under way and its link stands. -/
lemma finish_inv {s t : Store} {g : Nat} {role : Role} (h : s.finish? g role = some t) :
    s.generation = g ∧ s.status = .connecting ∧ s.lostWhileConnecting = false ∧
      t = { s with
            status := .connected
            role
            hostCode := if role = .host then s.pendingCode else s.hostCode
            pendingCode := none
            watch := ⟨.connected, s.watch.version + 1⟩ } := by
  rw [finish?] at h
  split at h
  case isTrue ready =>
    simp only [Bool.and_eq_true, isAttempt_iff, Bool.not_eq_true'] at ready
    obtain ⟨⟨eg, underway⟩, stands⟩ := ready
    refine ⟨eg, underway, stands, ?_⟩
    rw [← Option.some.inj h, setStatus_eq]
    simp [underway]
  case isFalse => cases h

/-- There is nothing to end well in another generation, after the attempt, or without a link. -/
lemma finish_eq_none_iff {s : Store} {g : Nat} {role : Role} :
    s.finish? g role = none ↔ ¬ (s.generation = g ∧ s.status = .connecting) ∨
      s.lostWhileConnecting = true := by
  rw [← isAttempt_iff]
  rw [finish?]
  cases s.isAttempt g <;> cases s.lostWhileConnecting <;> simp

/-- An attempt fails only in its own generation and while it is under way. -/
lemma abort_inv {s t : Store} {g : Nat} (h : s.abort? g = some t) :
    s.generation = g ∧ s.status = .connecting ∧
      t = { s with
            status := .disconnected
            role := .none
            hostCode := none
            pendingCode := none
            lostWhileConnecting := false
            watch := ⟨.disconnected, s.watch.version + 1⟩ } := by
  rw [abort?] at h
  split at h
  case isTrue underway =>
    obtain ⟨eg, underway⟩ := isAttempt_iff.1 underway
    refine ⟨eg, underway, ?_⟩
    rw [← Option.some.inj h, setStatus_eq]
    simp [underway]
  case isFalse => cases h

lemma abort_eq_none_iff {s : Store} {g : Nat} :
    s.abort? g = none ↔ ¬ (s.generation = g ∧ s.status = .connecting) := by
  rw [← isAttempt_iff]
  rw [abort?]
  cases s.isAttempt g <;> simp

/-- The loss of the link ends an open session, leaves a note for an attempt, and is else ignored. -/
lemma markLost_cases (s : Store) :
    (s.status = .connected ∧
      s.markLost =
        (true, { s with status := .lost, watch := ⟨.lost, s.watch.version + 1⟩ })) ∨
    (s.status = .connecting ∧ s.markLost = (false, { s with lostWhileConnecting := true })) ∨
    ((s.status = .disconnected ∨ s.status = .lost) ∧ s.markLost = (false, s)) := by
  rw [markLost]
  cases e : s.status with
  | disconnected => exact .inr (.inr ⟨.inl rfl, rfl⟩)
  | connecting => exact .inr (.inl ⟨rfl, rfl⟩)
  | connected =>
    refine .inl ⟨rfl, ?_⟩
    simp [setStatus_eq, e]
  | lost => exact .inr (.inr ⟨.inr rfl, rfl⟩)

/-- A reset leaves nothing but the newest code, the next generation and the next revision. -/
lemma reset_eq (s : Store) :
    s.reset =
      { s with
        status := .disconnected
        generation := s.generation + 1
        role := .none
        roster := .empty
        playerCount := 0
        revision := s.revision + 1
        chat := s.chat.clear
        hostCode := none
        pendingCode := none
        lostWhileConnecting := false
        watch :=
          if s.status = .disconnected then s.watch
          else ⟨.disconnected, s.watch.version + 1⟩ } := by
  rw [reset]
  rw [setStatus_eq]

/-! ## Players and chat -/

lemma upsert_inv {s t : Store} {p : Player} (h : s.upsert? p = some t) :
    s.roster.changedBy p ∧ t = s.revise (s.roster.upsert p) (s.roster.upsert p).size := by
  rw [upsert?] at h
  split at h
  case isTrue changed =>
    cases h
    exact ⟨changed, rfl⟩
  case isFalse => cases h

lemma remove_inv {s t : Store} {id : PlayerId} (h : s.remove? id = some t) :
    s.roster.contains id ∧ t = s.revise (s.roster.remove id) (s.roster.remove id).size := by
  rw [remove?] at h
  split at h
  case isTrue present =>
    cases h
    exact ⟨present, rfl⟩
  case isFalse => cases h

lemma refresh_inv {s t : Store} {playerCount : Nat} {ps : List Player}
    (h : s.refresh? playerCount ps = some t) :
    ¬ (s.playerCount = playerCount ∧ s.roster.isList ps) ∧
      t = s.revise (Roster.replace ps) playerCount := by
  rw [refresh?] at h
  split at h
  case isTrue => cases h
  case isFalse other =>
    cases h
    exact ⟨by simpa using other, rfl⟩

lemma appendChat_inv {s t : Store} {m : ChatMessage} (h : s.appendChat? m = some t) :
    s.chat.accepts m ∧ t = { s with chat := s.chat.push m } := by
  rw [appendChat?] at h
  split at h
  case isTrue fresh =>
    cases h
    exact ⟨fresh, rfl⟩
  case isFalse => cases h

/-- Two stores that differ in nothing but players, chat and revision. -/
def SameSession (s t : Store) : Prop :=
  ∃ roster playerCount revision chat, t = { s with roster, playerCount, revision, chat }

lemma SameSession.refl (s : Store) : s.SameSession s :=
  ⟨s.roster, s.playerCount, s.revision, s.chat, rfl⟩

lemma SameSession.ite {s t u : Store} {p : Prop} [Decidable p] (yes : s.SameSession t)
    (no : s.SameSession u) : s.SameSession (if p then t else u) := by
  split
  · exact yes
  · exact no

lemma sameSession_upsert (s : Store) (p : Player) : s.SameSession ((s.upsert? p).getD s) := by
  rw [upsert?]
  split
  · exact ⟨_, _, _, _, rfl⟩
  · exact .refl s

lemma sameSession_remove (s : Store) (id : PlayerId) : s.SameSession ((s.remove? id).getD s) := by
  rw [remove?]
  split
  · exact ⟨_, _, _, _, rfl⟩
  · exact .refl s

lemma sameSession_refresh (s : Store) (playerCount : Nat) (ps : List Player) :
    s.SameSession ((s.refresh? playerCount ps).getD s) := by
  rw [refresh?]
  split
  · exact .refl s
  · exact ⟨_, _, _, s.chat, rfl⟩

lemma sameSession_appendChat (s : Store) (m : ChatMessage) :
    s.SameSession ((s.appendChat? m).getD s) := by
  rw [appendChat?]
  split
  · exact ⟨s.roster, s.playerCount, s.revision, _, rfl⟩
  · exact .refl s

end OnlinePlay.Store
