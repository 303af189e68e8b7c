import Mathlib.Algebra.GroupWithZero.Nat
import Mathlib.Data.List.Chain
import OnlinePlay.Poll.Cadence

/-!
# The accounts of a cadence

A timer over all the ways in which it can be woken up: each cycle fires at some time that is not
before it is due, however late that is. `Cadence.Firing` keeps beside each cycle when it was due and
when it fired.

`Firing.Fair` says what is reported of a single cycle: whether it was late, and how many whole
intervals fit into its lateness. As each cycle is due one interval after the cycle before it fired,
the time that passes between two cycles is one interval and the lateness of the second. Both bounds
on the time that all cycles take together come from that (`elapsed_bounds`), and `keeps_accounts`
puts everything together.
-/

namespace OnlinePlay.Cadence

/-- A cycle that fired, when it was due and when it fired. -/
structure Firing where
  due : Nat
  time : Nat
  cycle : Cycle

namespace Firing

def lateness (f : Firing) : Nat := f.time - f.due

/-- What is reported of the cycle is right: it was late by more than a tenth of an interval or not,
and so many whole intervals fit into its lateness. -/
structure Fair (interval : Nat) (f : Firing) : Prop where
  late_iff : f.cycle.late ↔ interval < 10 * f.lateness
  skipped_le : f.cycle.skipped * interval ≤ f.lateness
  lt_skipped : f.lateness < (f.cycle.skipped + 1) * interval

end Firing

/-- The cycles that fire at these times, one after the other. -/
def firings (c : Cadence) : List Nat → List Firing
  | [] => []
  | t :: ts => ⟨c.due, t, (c.fire t).1⟩ :: (c.fire t).2.firings ts

/-- The timer after its cycles have fired at these times. -/
def fireAll (c : Cadence) : List Nat → Cadence
  | [] => c
  | t :: ts => (c.fire t).2.fireAll ts

/-- None of the cycles fires before it is due. -/
def Waits (c : Cadence) (ts : List Nat) : Prop := ∀ f ∈ c.firings ts, f.due ≤ f.time

instance (c : Cadence) (ts : List Nat) : Decidable (c.Waits ts) :=
  inferInstanceAs (Decidable (∀ f ∈ c.firings ts, f.due ≤ f.time))

/-- The whole intervals that the cycles skip which fire at these times. -/
def skippedIn (c : Cadence) (ts : List Nat) : Nat :=
  ((c.firings ts).map (·.cycle.skipped)).sum

variable {c : Cadence} {t : Nat} {ts : List Nat}

lemma waits_cons : c.Waits (t :: ts) ↔ c.due ≤ t ∧ (c.fire t).2.Waits ts := by
  simp [Waits, firings]

lemma skippedIn_cons : c.skippedIn (t :: ts) = c.skips t + (c.fire t).2.skippedIn ts := rfl

/-! ## A single cycle -/

@[simp]
lemma interval_fire : (c.fire t).2.interval = c.interval := rfl

@[simp]
lemma due_fire : (c.fire t).2.due = t + c.interval := rfl

lemma isLate_iff : c.isLate t ↔ c.interval < 10 * c.lateness t := by
  rw [isLate, decide_eq_true_iff, Nat.div_lt_iff_lt_mul (by decide), Nat.mul_comm]

/-- A cycle that is not late skips nothing, and is less than an interval late. -/
lemma skips_bounds (positive : 0 < c.interval) :
    c.skips t * c.interval ≤ c.lateness t ∧ c.lateness t < (c.skips t + 1) * c.interval := by
  rw [skips]
  split
  case isTrue late =>
    rw [Nat.max_eq_left positive, Nat.add_one_mul]
    exact ⟨Nat.div_mul_le_self _ _, Nat.lt_div_mul_add positive⟩
  case isFalse timely =>
    rw [isLate_iff] at timely
    omega

lemma fair_fire (positive : 0 < c.interval) :
    Firing.Fair c.interval ⟨c.due, t, (c.fire t).1⟩ := by
  obtain ⟨skipped_le, lt_skipped⟩ := skips_bounds (t := t) positive
  exact ⟨isLate_iff, skipped_le, lt_skipped⟩

/-! ## All cycles -/

lemma times_firings : (c.firings ts).map (·.time) = ts := by
  induction ts generalizing c with
  | nil => rfl
  | cons t ts ih => rw [firings, List.map_cons, ih]

lemma numbers_firings :
    (c.firings ts).map (·.cycle.number) = List.range' (c.cycles + 1) ts.length := by
  induction ts generalizing c with
  | nil => rfl
  | cons t ts ih =>
    rw [firings, List.map_cons, ih]
    rfl

lemma fair_firings (positive : 0 < c.interval) : ∀ f ∈ c.firings ts, f.Fair c.interval := by
  induction ts generalizing c with
  | nil => exact nofun
  | cons t ts ih =>
    rw [firings, List.forall_mem_cons]
    exact ⟨fair_fire positive, ih positive⟩

/-- Each cycle is due one interval after the cycle before it fired. -/
lemma dues_firings {s : Nat} (due : c.due = s + c.interval) :
    (c.firings ts).map (·.due) = (s :: ts).dropLast.map (· + c.interval) := by
  induction ts generalizing c s with
  | nil => rfl
  | cons t ts ih =>
    rw [firings, List.map_cons, ih due_fire, due]
    rfl

lemma apart_of_waits {s : Nat} (due : c.due = s + c.interval) (waits : c.Waits ts) :
    (s :: ts).IsChain (· + c.interval ≤ ·) := by
  induction ts generalizing c s with
  | nil => exact .singleton s
  | cons t ts ih =>
    obtain ⟨first, rest⟩ := waits_cons.1 waits
    have later := ih (c := (c.fire t).2) rfl rest
    exact .cons_cons (due ▸ first) later

lemma cycles_fireAll : (c.fireAll ts).cycles = c.cycles + ts.length := by
  induction ts generalizing c with
  | nil => rfl
  | cons t ts ih =>
    rw [fireAll, ih, List.length_cons, Nat.add_comm ts.length, ← Nat.add_assoc]
    rfl

lemma lateCycles_fireAll :
    (c.fireAll ts).lateCycles = c.lateCycles + (c.firings ts).countP (·.cycle.late) := by
  induction ts generalizing c with
  | nil => rfl
  | cons t ts ih =>
    rw [fireAll, ih, firings, List.countP_cons, Nat.add_comm (List.countP ..), ← Nat.add_assoc]
    rfl

lemma skipped_fireAll : (c.fireAll ts).skipped = c.skipped + c.skippedIn ts := by
  induction ts generalizing c with
  | nil => rfl
  | cons t ts ih =>
    rw [fireAll, ih, skippedIn_cons, ← Nat.add_assoc]
    rfl

/-- From one cycle to the next it takes one interval and the lateness of the next. -/
lemma step_bounds {s : Nat} (positive : 0 < c.interval) (due : c.due = s + c.interval)
    (waits : c.due ≤ t) :
    s + (1 + c.skips t) * c.interval ≤ t ∧ t < s + (2 + c.skips t) * c.interval := by
  obtain ⟨skipped_le, lt_skipped⟩ := skips_bounds (t := t) positive
  have lateness : c.due + c.lateness t = t := Nat.add_sub_cancel' waits
  rw [Nat.add_mul] at lt_skipped ⊢
  rw [Nat.add_mul]
  omega

/-- All cycles together take an interval each, the intervals that were skipped, and less than one
more interval each. -/
lemma elapsed_bounds {s last : Nat} (positive : 0 < c.interval) (due : c.due = s + c.interval)
    (waits : c.Waits ts) (isLast : ts.getLast? = some last) :
    s + (ts.length + c.skippedIn ts) * c.interval ≤ last ∧
      last < s + (2 * ts.length + c.skippedIn ts) * c.interval := by
  induction ts generalizing c s with
  | nil => cases isLast
  | cons t ts ih =>
    obtain ⟨first, rest⟩ := waits_cons.1 waits
    have step := step_bounds positive due first
    cases ts with
    | nil =>
      cases isLast
      exact step
    | cons u us =>
      have later := ih (c := (c.fire t).2) positive rfl rest isLast
      rw [interval_fire] at later
      rw [skippedIn_cons, List.length_cons]
      simp only [Nat.add_mul, Nat.mul_add] at step later ⊢
      omega

/-- A timer that starts without an extra delay is woken up for its cycles at any times, none of them
before the cycle is due. The cycles are numbered from one, and each is due one interval after the
cycle before it fired, so that two cycles are never closer than that. What is reported of a cycle is
right, and the totals are the sums over the cycles. At the last cycle, which may be any, the time
since the start is an interval for each cycle and for each interval skipped, and beyond that less
than one interval for each cycle. -/
theorem keeps_accounts {t₀ interval : Nat} (positive : 0 < interval)
    (waits : (start t₀ interval 0).Waits ts) :
    let c := start t₀ interval 0
    (c.firings ts).map (·.time) = ts ∧
    (c.firings ts).map (·.cycle.number) = List.range' 1 ts.length ∧
    (c.firings ts).map (·.due) = (t₀ :: ts).dropLast.map (· + interval) ∧
    (t₀ :: ts).IsChain (· + interval ≤ ·) ∧
    (∀ f ∈ c.firings ts, f.Fair interval) ∧
    (c.fireAll ts).cycles = ts.length ∧
    (c.fireAll ts).lateCycles = (c.firings ts).countP (·.cycle.late) ∧
    (c.fireAll ts).skipped = ((c.firings ts).map (·.cycle.skipped)).sum ∧
    ∀ last, ts.getLast? = some last →
      (ts.length + (c.fireAll ts).skipped) * interval ≤ last - t₀ ∧
      last - t₀ < (2 * ts.length + (c.fireAll ts).skipped) * interval := by
  intro c
  have due : c.due = t₀ + c.interval := rfl
  have cycles : (c.fireAll ts).cycles = ts.length := by
    rw [cycles_fireAll]
    exact Nat.zero_add _
  have lateCycles : (c.fireAll ts).lateCycles = (c.firings ts).countP (·.cycle.late) := by
    rw [lateCycles_fireAll]
    exact Nat.zero_add _
  have skipped : (c.fireAll ts).skipped = c.skippedIn ts := by
    rw [skipped_fireAll]
    exact Nat.zero_add _
  refine ⟨times_firings, numbers_firings, dues_firings due, apart_of_waits due waits,
    fair_firings positive, cycles, lateCycles, skipped, fun last isLast => ?_⟩
  have bounds := elapsed_bounds positive due waits isLast
  rw [skipped]
  show _ * c.interval ≤ _ ∧ _ < _ * c.interval
  omega

/-- The second cycle comes after a stall of three and a half intervals. The third comes exactly a
tenth of an interval after it was due, which is not late yet, and the fourth a little later. -/
theorem keeps_accounts_after_stall :
    (start 7 100 0).Waits [107, 560, 670, 781] ∧
      ((start 7 100 0).firings [107, 560, 670, 781]).map (·.cycle) =
        [⟨1, false, 0⟩, ⟨2, true, 3⟩, ⟨3, false, 0⟩, ⟨4, true, 0⟩] ∧
      (4 + 3) * 100 ≤ 781 - 7 ∧ 781 - 7 < (2 * 4 + 3) * 100 := by
  have waits : (start 7 100 0).Waits [107, 560, 670, 781] := by decide
  obtain ⟨-, -, -, -, -, -, -, -, bounds⟩ := keeps_accounts (by decide : 0 < 100) waits
  exact ⟨waits, rfl, bounds 781 rfl⟩

end OnlinePlay.Cadence
