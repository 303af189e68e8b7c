import OnlinePlay.Proofs.Store.Inversion

/-!
# Sound stores

What the fields of a store say of each other. A session has a role exactly while it is open or
lost, it shows a code exactly while its role is to host, and the watch shows its status. `Sound`
holds of the initial store, and every operation keeps it; an attempt that ends well needs a role,
and to host it needs a code.
-/

namespace OnlinePlay.Store

/-- The fields of a store agree with each other. -/
structure Sound (s : Store) : Prop where
  role : s.role ≠ .none ↔ s.status = .connected ∨ s.status = .lost
  hostCode : s.hostCode.isSome ↔ s.role = .host
  watch : s.watch.value = s.status

lemma Sound.initial : Sound .initial := by
  constructor <;> simp [Store.initial]

/-- Outside an open or lost session there is neither a role nor a code. -/
lemma Sound.bare {s : Store} (sound : s.Sound)
    (away : s.status = .disconnected ∨ s.status = .connecting) :
    s.role = .none ∧ s.hostCode = none := by
  have role : s.role = .none := by
    by_contra some_role
    have := sound.role.1 some_role
    rcases away with away | away <;> simp [away] at this
  refine ⟨role, ?_⟩
  rw [← Option.not_isSome_iff_eq_none, sound.hostCode, role]
  simp

/-- An operation keeps a store sound if it leaves role, code and watch alone and the status too. -/
lemma Sound.of_eq {s t : Store} (sound : s.Sound) (status : t.status = s.status)
    (role : t.role = s.role) (hostCode : t.hostCode = s.hostCode) (watch : t.watch = s.watch) :
    t.Sound := by
  constructor
  · rw [role, status]
    exact sound.role
  · rw [hostCode, role]
    exact sound.hostCode
  · rw [watch, status]
    exact sound.watch

lemma Sound.finish {s t : Store} {g : Nat} {role : Role} (sound : s.Sound)
    (part : role ≠ .none) (code : role = .host → s.pendingCode.isSome)
    (h : s.finish? g role = some t) : t.Sound := by
  obtain ⟨-, underway, -, rfl⟩ := finish_inv h
  obtain ⟨-, noCode⟩ := sound.bare (.inr underway)
  constructor
  · simp [part]
  · by_cases host : role = .host
    · simp [host, code]
    · simp [host, noCode]
  · rfl

lemma Sound.abort {s t : Store} {g : Nat} (h : s.abort? g = some t) : t.Sound := by
  obtain ⟨-, -, rfl⟩ := abort_inv h
  constructor <;> simp

lemma Sound.markLost {s : Store} (sound : s.Sound) : s.markLost.2.Sound := by
  rcases s.markLost_cases with ⟨isOpen, e⟩ | ⟨-, e⟩ | ⟨-, e⟩ <;> rw [e]
  · have role := sound.role.2 (.inl isOpen)
    exact ⟨by simp [role], sound.hostCode, rfl⟩
  · exact sound.of_eq rfl rfl rfl rfl
  · exact sound

lemma Sound.reset {s : Store} (sound : s.Sound) : s.reset.Sound := by
  rw [reset_eq]
  constructor
  · simp
  · simp
  · by_cases idle : s.status = .disconnected
    · simp [idle, sound.watch]
    · simp [idle]

end OnlinePlay.Store
