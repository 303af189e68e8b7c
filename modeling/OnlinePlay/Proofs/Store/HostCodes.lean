import Mathlib.Data.List.Induction
import Mathlib.Logic.Function.Basic
import OnlinePlay.Proofs.Store.Inversion

/-!
# Codes of attempts that overlap

Several attempts share one store. Each of them opens a generation, has a code issued if it is to
host, and ends well or fails; between any two of these operations the others may do theirs, and the
session may be reset or lost. `Shared` keeps beside the store what each attempt knows of itself, and
`Shared.Does` lists what one operation does.

A code is issued without a word on the attempt that it is for, and the store has room for one code
that waits. So an attempt that was reset before it had its code may still have one issued while a
newer one is under way, and the newer one then shows that code in place of its own
(`other_code_shown`). `alwaysShowsOwn_iff` says exactly when this happens: when the newest code is
not the attempt's own at the moment at which the attempt ends well. It never happens as long as
every code is issued in the generation of its attempt.
-/

namespace OnlinePlay

/-- What an attempt knows of itself. -/
inductive Shared.Attempt where
  | guest
  /-- It is to host, with this code once one has been issued to it. -/
  | host (code : Option HostCode)
  deriving DecidableEq

/-- A store that several attempts share. -/
structure Shared where
  store : Store := .initial
  /-- The attempts by their generations. -/
  attempts : Nat → Option Shared.Attempt := fun _ => none
  /-- The generation of the attempt that has ended well as host, until the next reset. -/
  hosting : Option Nat := none

namespace Shared

/-- An operation, and the generation of the attempt that does it. `join` and `host` begin attempts;
`lose` is the loss of the link. -/
inductive Act where
  | join
  | host
  | issue (g : Nat) (draws : List (Fin 16))
  | finish (g : Nat)
  | abort (g : Nat)
  | reset
  | lose
  deriving DecidableEq

/-- The code that has been issued to an attempt. -/
def codeOf? (d : Shared) (g : Nat) : Option HostCode :=
  match d.attempts g with
  | some (.host code) => code
  | _ => none

/-- An attempt begins; it is none if the store is busy. -/
def begin (d : Shared) (a : Attempt) : Shared :=
  match d.store.begin with
  | .ok (g, store) => { d with store, attempts := Function.update d.attempts g (some a) }
  | .error _ => d

/-- An operation on the shared store. An attempt to host has one code issued after it has begun, and
ends only after that. -/
def act? (d : Shared) : Act → Option Shared
  | .join => some (d.begin .guest)
  | .host => some (d.begin (.host none))
  | .issue g draws =>
    match d.attempts g with
    | some (.host none) =>
      (d.store.issueCode? draws).map fun (code, store) =>
        { d with store, attempts := Function.update d.attempts g (some (.host (some code))) }
    | _ => none
  | .finish g =>
    match d.attempts g with
    | some .guest => some { d with store := (d.store.finish? g .guest).getD d.store }
    | some (.host (some _)) =>
      match d.store.finish? g .host with
      | some store => some { d with store, hosting := some g }
      | none => some d
    | _ => none
  | .abort g =>
    match d.attempts g with
    | some .guest | some (.host (some _)) =>
      some { d with store := (d.store.abort? g).getD d.store }
    | _ => none
  | .reset => some { d with store := d.store.reset, hosting := none }
  | .lose => some { d with store := d.store.markLost.2 }

def run? (d : Shared) (acts : List Act) : Option Shared := acts.foldlM act? d

/-- The attempt ends well now, as host. -/
def Opens (d : Shared) (g : Nat) : Prop :=
  ∃ code, d.attempts g = some (.host (some code)) ∧ (d.store.finish? g .host).isSome

/-! ## What an operation does -/

/-- How an operation gets from one shared store to another. -/
inductive Does (d : Shared) : Act → Shared → Prop where
  /-- Nothing is done, for want of an open attempt. -/
  | rests {act : Act} :
    (∀ g, act = .finish g → ¬ d.Opens g) →
    (∀ g draws, act ≠ .issue g draws) →
    act ≠ .reset →
    Does d act d
  | begun {act : Act} {a : Attempt} {g : Nat} {s : Store} :
    (act = .join ∧ a = .guest ∨ act = .host ∧ a = .host none) →
    d.store.begin = .ok (g, s) →
    Does d act { d with store := s, attempts := Function.update d.attempts g (some a) }
  | issued {g : Nat} {draws : List (Fin 16)} {code : HostCode} {s : Store} :
    d.attempts g = some (.host none) →
    d.store.issueCode? draws = some (code, s) →
    Does d (.issue g draws)
      { d with
        store := s
        attempts := Function.update d.attempts g (some (.host (some code))) }
  | joined {g : Nat} {s : Store} :
    d.attempts g = some .guest →
    d.store.finish? g .guest = some s →
    Does d (.finish g) { d with store := s }
  | opened {g : Nat} {code : HostCode} {s : Store} :
    d.attempts g = some (.host (some code)) →
    d.store.finish? g .host = some s →
    Does d (.finish g) { d with store := s, hosting := some g }
  | aborted {g : Nat} {s : Store} :
    d.store.abort? g = some s →
    Does d (.abort g) { d with store := s }
  | reset : Does d .reset { d with store := d.store.reset, hosting := none }
  | lost : Does d .lose { d with store := d.store.markLost.2 }

lemma does_begin {d : Shared} {act : Act} {a : Attempt}
    (begins : act = .join ∧ a = .guest ∨ act = .host ∧ a = .host none) :
    d.Does act (d.begin a) := by
  rw [begin]
  split
  case h_1 begun => exact .begun begins begun
  case h_2 => rcases begins with ⟨rfl, -⟩ | ⟨rfl, -⟩ <;> exact .rests (by simp) (by simp) (by simp)

/-- An operation does what `Does` lists, and nothing else. -/
theorem does_of_act {d e : Shared} {act : Act} (h : d.act? act = some e) : d.Does act e := by
  cases act with
  | join =>
    cases h
    exact does_begin (.inl ⟨rfl, rfl⟩)
  | host =>
    cases h
    exact does_begin (.inr ⟨rfl, rfl⟩)
  | issue g draws =>
    simp only [act?] at h
    split at h
    case h_1 waits =>
      obtain ⟨⟨code, s⟩, issued, rfl⟩ := Option.map_eq_some_iff.1 h
      exact .issued waits issued
    case h_2 => cases h
  | finish g =>
    simp only [act?] at h
    split at h
    case h_1 guest =>
      cases h
      cases finished : d.store.finish? g .guest with
      | some s => exact .joined guest finished
      | none => exact .rests (by simp [Opens, guest]) (by simp) (by simp)
    case h_2 code hosts =>
      split at h
      case h_1 finished =>
        cases h
        exact .opened hosts finished
      case h_2 unfinished =>
        cases h
        exact .rests (by simp [Opens, unfinished]) (by simp) (by simp)
    case h_3 => cases h
  | abort g =>
    simp only [act?] at h
    split at h
    case h_1 | h_2 =>
      cases h
      cases aborted : d.store.abort? g with
      | some s => exact .aborted aborted
      | none => exact .rests (by simp) (by simp) (by simp)
    case h_3 => cases h
  | reset =>
    cases h
    exact .reset
  | lose =>
    cases h
    exact .lost

/-! ## What always holds -/

/-- While an attempt that has its code is under way, the newest code waits. A host is there only
while its session is open or lost. -/
structure Sound (d : Shared) : Prop where
  waits : d.store.status = .connecting →
    ∀ code, d.attempts d.store.generation = some (.host (some code)) →
      d.store.pendingCode = d.store.lastCode
  hosting : ∀ g, d.hosting = some g →
    d.store.generation = g ∧ (d.store.status = .connected ∨ d.store.status = .lost)

/-- Nobody hosts before the session is open. -/
lemma Sound.no_host {d : Shared} (sound : d.Sound)
    (notOpen : d.store.status = .disconnected ∨ d.store.status = .connecting) (g : Nat) :
    d.hosting ≠ some g := by
  intro hosts
  rcases (sound.hosting g hosts).2 with isOpen | isLost
  · simp [isOpen] at notOpen
  · simp [isLost] at notOpen

lemma Sound.initial : Sound {} := ⟨nofun, nofun⟩

lemma Does.sound {d e : Shared} {act : Act} (does : d.Does act e) (sound : d.Sound) : e.Sound := by
  cases does with
  | rests => exact sound
  | begun begins begun =>
    obtain ⟨idle, rfl, rfl⟩ := Store.begin_inv begun
    refine ⟨fun _ code has => ?_, fun g hosts => absurd hosts (sound.no_host (.inl idle) g)⟩
    -- The attempt that has just begun has no code yet.
    dsimp only at has
    rw [Function.update_self] at has
    rcases begins with ⟨-, rfl⟩ | ⟨-, rfl⟩ <;> cases has
  | issued _ issued =>
    obtain rfl := Store.issueCode_inv issued
    exact ⟨fun _ _ _ => rfl, sound.hosting⟩
  | joined _ finished =>
    obtain ⟨-, underway, -, rfl⟩ := Store.finish_inv finished
    exact ⟨nofun, fun g hosts => absurd hosts (sound.no_host (.inr underway) g)⟩
  | opened _ finished =>
    obtain ⟨own, -, -, rfl⟩ := Store.finish_inv finished
    refine ⟨nofun, fun g hosts => ?_⟩
    obtain rfl := Option.some.inj hosts
    exact ⟨own, .inl rfl⟩
  | aborted aborted =>
    obtain ⟨-, underway, rfl⟩ := Store.abort_inv aborted
    exact ⟨nofun, fun g hosts => absurd hosts (sound.no_host (.inr underway) g)⟩
  | reset =>
    rw [Store.reset_eq]
    exact ⟨nofun, nofun⟩
  | lost =>
    rcases d.store.markLost_cases with ⟨-, e⟩ | ⟨-, e⟩ | ⟨-, e⟩ <;> rw [e]
    · exact ⟨nofun, fun g hosts => ⟨(sound.hosting g hosts).1, .inr rfl⟩⟩
    · exact ⟨sound.waits, sound.hosting⟩
    · exact sound

/-! ## The code that is shown -/

/-- The host, if there is one, is shown the code that was issued to its attempt. -/
def ShowsOwn (d : Shared) : Prop :=
  ∀ g, d.hosting = some g → ∃ code, d.codeOf? g = some code ∧ d.store.hostCode = some code

/-- Something holds of each operation and the shared store that it finds. -/
def AtEach (d : Shared) (acts : List Act) (P : Shared → Act → Prop) : Prop :=
  ∀ older a newer m, acts = older ++ a :: newer → d.run? older = some m → P m a

/-- After each operation the host is shown the code of its own attempt. -/
def AlwaysShowsOwn (d : Shared) (acts : List Act) : Prop :=
  d.AtEach acts fun m a => ∀ e, m.act? a = some e → e.ShowsOwn

/-- Whenever an attempt ends well as host, the newest code is the one that was issued to it. -/
def NewestIsOwn (d : Shared) (acts : List Act) : Prop :=
  d.AtEach acts fun m a => ∀ g, a = .finish g → m.Opens g → m.store.lastCode = m.codeOf? g

/-- Codes are issued in the generations of their attempts only. -/
def IssuesInTime (d : Shared) (acts : List Act) : Prop :=
  d.AtEach acts fun m a => ∀ g draws, a = .issue g draws → m.store.generation = g

lemma atEach_nil {d : Shared} {P : Shared → Act → Prop} : d.AtEach [] P := by
  intro older a newer m split
  simp at split

lemma atEach_cons {d : Shared} {a : Act} {acts : List Act} {P : Shared → Act → Prop} :
    d.AtEach (a :: acts) P ↔ P d a ∧ ∀ e, d.act? a = some e → e.AtEach acts P := by
  constructor
  · intro each
    refine ⟨each [] a acts d rfl rfl, fun e acted older x newer m split run => ?_⟩
    exact each (a :: older) x newer m (by simp [split]) (by simp [run?, acted, ← run])
  · rintro ⟨first, rest⟩ older x newer m split run
    cases older with
    | nil =>
      cases split
      cases run
      exact first
    | cons b older =>
      obtain ⟨rfl, later⟩ := List.cons.inj split
      obtain ⟨e, acted, run⟩ := Option.bind_eq_some_iff.1 run
      exact rest e acted older x newer m later run

lemma AtEach.cons {d e : Shared} {a : Act} {acts : List Act} {P : Shared → Act → Prop}
    (acted : d.act? a = some e) (first : P d a) (rest : e.AtEach acts P) :
    d.AtEach (a :: acts) P := by
  refine atEach_cons.2 ⟨first, fun e' acted' => ?_⟩
  rw [acted] at acted'
  cases acted'
  exact rest

lemma codeOf_host {d : Shared} {g : Nat} {code : Option HostCode}
    (is : d.attempts g = some (.host code)) : d.codeOf? g = code := by
  rw [codeOf?, is]

/-- After an operation the host is still shown its own code; one that has just opened the session is
so exactly if the newest code is its own. -/
lemma Does.showsOwn_iff {d e : Shared} {act : Act} (does : d.Does act e) (sound : d.Sound)
    (shows : d.ShowsOwn) :
    e.ShowsOwn ↔ ∀ g, act = .finish g → d.Opens g → d.store.lastCode = d.codeOf? g := by
  cases does with
  | rests closed => exact ⟨fun _ g is opens => absurd opens (closed g is), fun _ => shows⟩
  | begun begins begun =>
    obtain ⟨idle, -, rfl⟩ := Store.begin_inv begun
    refine ⟨fun _ g is => ?_, fun _ g hosts => absurd hosts (sound.no_host (.inl idle) g)⟩
    rcases begins with ⟨rfl, -⟩ | ⟨rfl, -⟩ <;> cases is
  | @issued g draws code s uncoded issued =>
    obtain rfl := Store.issueCode_inv issued
    refine ⟨fun _ => nofun, fun _ g' hosts => ?_⟩
    obtain ⟨own, is, shown⟩ := shows g' hosts
    -- The host has its code already, so that this one is issued to another attempt.
    have other : g' ≠ g := by
      rintro rfl
      simp [codeOf_host uncoded] at is
    refine ⟨own, ?_, shown⟩
    rw [codeOf?] at is ⊢
    dsimp only
    rw [Function.update_of_ne other, is]
  | @joined g s guest finished =>
    obtain ⟨-, underway, -, rfl⟩ := Store.finish_inv finished
    refine ⟨fun _ g' is opens => ?_, fun _ g' hosts =>
      absurd hosts (sound.no_host (.inr underway) g')⟩
    obtain rfl := Act.finish.inj is
    obtain ⟨code, hosts, -⟩ := opens
    rw [guest] at hosts
    cases hosts
  | @opened g code s hosts finished =>
    have opens : d.Opens g := ⟨code, hosts, by simp [finished]⟩
    obtain ⟨rfl, underway, -, rfl⟩ := Store.finish_inv finished
    -- What is shown from now on is the code that waits, and that is the newest one.
    have waits := sound.waits underway code hosts
    have own : d.codeOf? d.store.generation = some code := codeOf_host hosts
    constructor
    · intro after g is _
      obtain rfl := Act.finish.inj is
      obtain ⟨_, is, shown⟩ := after _ rfl
      exact waits.symm.trans (shown.trans is.symm)
    · intro newest g is
      obtain rfl := Option.some.inj is
      exact ⟨code, own, waits.trans ((newest _ rfl opens).trans own)⟩
  | aborted aborted =>
    obtain ⟨-, underway, rfl⟩ := Store.abort_inv aborted
    exact ⟨fun _ => nofun, fun _ g hosts => absurd hosts (sound.no_host (.inr underway) g)⟩
  | reset => exact ⟨fun _ => nofun, fun _ => nofun⟩
  | lost =>
    refine ⟨fun _ => nofun, fun _ => ?_⟩
    rcases d.store.markLost_cases with ⟨-, e⟩ | ⟨-, e⟩ | ⟨-, e⟩ <;> rw [e] <;> exact shows

/-- While an attempt that has its code is under way, the newest code is its own. -/
def OwnIsNewest (d : Shared) : Prop :=
  d.store.status = .connecting →
    ∀ code, d.attempts d.store.generation = some (.host (some code)) → d.store.lastCode = some code

/-- A code that is issued in the generation of its attempt belongs to the attempt under way. -/
lemma Does.ownIsNewest {d e : Shared} {act : Act} (does : d.Does act e) (own : d.OwnIsNewest)
    (inTime : ∀ g draws, act = .issue g draws → d.store.generation = g) : e.OwnIsNewest := by
  cases does with
  | rests => exact own
  | begun begins begun =>
    obtain ⟨-, rfl, rfl⟩ := Store.begin_inv begun
    intro _ code has
    dsimp only at has
    rw [Function.update_self] at has
    rcases begins with ⟨-, rfl⟩ | ⟨-, rfl⟩ <;> cases has
  | issued _ issued =>
    obtain rfl := Store.issueCode_inv issued
    obtain rfl := inTime _ _ rfl
    intro _ code has
    dsimp only at has ⊢
    rw [Function.update_self] at has
    cases has
    rfl
  | joined _ finished | opened _ finished =>
    obtain ⟨-, -, -, rfl⟩ := Store.finish_inv finished
    exact nofun
  | aborted aborted =>
    obtain ⟨-, -, rfl⟩ := Store.abort_inv aborted
    exact nofun
  | reset =>
    rw [Store.reset_eq]
    exact nofun
  | lost =>
    rcases d.store.markLost_cases with ⟨-, e⟩ | ⟨-, e⟩ | ⟨-, e⟩ <;> rw [e]
    · exact nofun
    · exact own
    · exact own

lemma IssuesInTime.newestIsOwn {d : Shared} {acts : List Act} (inTime : d.IssuesInTime acts)
    (own : d.OwnIsNewest) : d.NewestIsOwn acts := by
  induction acts generalizing d with
  | nil => exact atEach_nil
  | cons a acts ih =>
    obtain ⟨first, rest⟩ := atEach_cons.1 inTime
    refine atEach_cons.2 ⟨?_, fun e acted => ?_⟩
    · rintro g - ⟨code, hosts, finishes⟩
      obtain ⟨s, finished⟩ := Option.isSome_iff_exists.1 finishes
      obtain ⟨rfl, underway, -⟩ := Store.finish_inv finished
      rw [codeOf_host hosts]
      exact own underway code hosts
    · exact ih (rest e acted) ((does_of_act acted).ownIsNewest own first)

lemma act_of_opens {d : Shared} {g : Nat} (opens : d.Opens g) :
    ∃ e, d.act? (.finish g) = some e := by
  obtain ⟨code, hosts, finishes⟩ := opens
  obtain ⟨s, finished⟩ := Option.isSome_iff_exists.1 finishes
  simp [act?, hosts, finished]

/-- One operation leaves the host with its own code exactly if the newest code is that of the
attempt that ends well by it. -/
lemma showsOwn_after_iff {d : Shared} {a : Act} (sound : d.Sound) (shows : d.ShowsOwn) :
    (∀ e, d.act? a = some e → e.ShowsOwn) ↔
      ∀ g, a = .finish g → d.Opens g → d.store.lastCode = d.codeOf? g := by
  cases acted : d.act? a with
  | none =>
    constructor
    · rintro - g rfl opens
      obtain ⟨e, possible⟩ := act_of_opens opens
      rw [acted] at possible
      cases possible
    · rintro - e ⟨⟩
  | some e =>
    rw [← (does_of_act acted).showsOwn_iff sound shows]
    simp

lemma Sound.shows_iff {d : Shared} {acts : List Act} (sound : d.Sound)
    (shows : d.ShowsOwn) : d.AlwaysShowsOwn acts ↔ d.NewestIsOwn acts := by
  induction acts generalizing d with
  | nil => exact ⟨fun _ => atEach_nil, fun _ => atEach_nil⟩
  | cons a acts ih =>
    rw [AlwaysShowsOwn, NewestIsOwn, atEach_cons, atEach_cons, ← showsOwn_after_iff sound shows]
    refine and_congr_right fun after => forall₂_congr fun e acted => ?_
    exact ih ((does_of_act acted).sound sound) (after e acted)

/-- Whatever the order of the operations, a host is always shown the code that was issued to its own
attempt exactly if that code is the newest one whenever an attempt ends well as host. It is if no
code is issued to an attempt whose generation is over. -/
theorem alwaysShowsOwn_iff (acts : List Act) :
    (AlwaysShowsOwn {} acts ↔ NewestIsOwn {} acts) ∧
      (IssuesInTime {} acts → AlwaysShowsOwn {} acts) := by
  have exactly : AlwaysShowsOwn {} acts ↔ NewestIsOwn {} acts :=
    Sound.initial.shows_iff nofun
  exact ⟨exactly, fun inTime => exactly.2 (inTime.newestIsOwn nofun)⟩

/-- The first attempt has its code when it is reset; the second one has its own, and shows it. -/
theorem own_code_shown :
    ∃ acts d, run? {} acts = some d ∧ d.hosting = some 3 ∧ d.codeOf? 1 ≠ d.codeOf? 3 ∧
      AlwaysShowsOwn {} acts := by
  have run : run? {} [.host, .issue 1 (List.replicate 8 0), .reset, .host,
    .issue 3 (List.replicate 8 1), .abort 1, .finish 3] = some _ := rfl
  refine ⟨_, _, run, rfl, by decide, (alwaysShowsOwn_iff _).2 ?_⟩
  refine .cons rfl nofun (.cons rfl ?first (.cons rfl nofun (.cons rfl nofun
    (.cons rfl ?second (.cons rfl nofun (.cons rfl nofun atEach_nil))))))
  case first | second =>
    rintro _ _ ⟨⟩
    rfl

/-- The first attempt is reset, and has its code issued when the second one already has its own. The
second one then shows the code of the first. -/
theorem other_code_shown :
    ∃ acts d, run? {} acts = some d ∧ d.hosting = some 3 ∧ d.store.hostCode = d.codeOf? 1 ∧
      d.codeOf? 3 ≠ d.codeOf? 1 ∧ ¬ AlwaysShowsOwn {} acts := by
  have before : run? {} [.host, .reset, .host, .issue 3 (List.replicate 8 1),
    .issue 1 (List.replicate 8 0)] = some _ := rfl
  have run : run? {} [.host, .reset, .host, .issue 3 (List.replicate 8 1),
    .issue 1 (List.replicate 8 0), .finish 3] = some _ := rfl
  refine ⟨_, _, run, rfl, rfl, by decide, fun always => ?_⟩
  obtain ⟨code, own, shown⟩ := always _ (.finish 3) [] _ rfl before _ rfl 3 rfl
  have same := own.trans shown.symm
  revert same
  decide

end Shared

end OnlinePlay
