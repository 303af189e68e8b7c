import Mathlib.Data.List.Induction
import OnlinePlay.Client.Step

/-!
# Histories

What has happened to a client, moment by moment. A moment keeps the state before it and the state
after it beside what happened and what the client did, so that a property of a history can speak of
the state in which something was said or done.

`History c ms d` is `Run` with these moments in place of the bare lists (`run_iff`), and grows at
its end, as an invariant is carried on. `Past ms c` says that nothing but `ms` has happened to `c`
since it started; what holds of every past holds in every state that a client can reach.
-/

namespace OnlinePlay

/-- One step of a client. -/
structure Moment where
  before : Client
  happening : Happening
  effects : List Effect
  after : Client

namespace Client

/-- A client that has just started. -/
def start (settings : Settings) (pollConfig : PollConfig) (lobby : LobbyClient) (now : Nat)
    (wall : Int) : Client :=
  { settings, pollConfig, lobby, now, wall }

/-- A client gets from one state to another through these moments. -/
inductive History (c : Client) : List Moment → Client → Prop where
  | nil : History c [] c
  | snoc {ms : List Moment} {d e : Client} {h : Happening} {es : List Effect} :
    History c ms d → d.step? h = some (e, es) → History c (ms ++ [⟨d, h, es, e⟩]) e

/-- The moments through which a client has gone since it started. -/
def Past (ms : List Moment) (c : Client) : Prop :=
  ∃ settings pollConfig lobby now wall, History (start settings pollConfig lobby now wall) ms c

/-! ## Putting histories together and taking them apart -/

lemma History.append {c d e : Client} {ms ns : List Moment}
    (first : History c ms d) (second : History d ns e) : History c (ms ++ ns) e := by
  induction second with
  | nil => simpa using first
  | snoc _ step ih =>
    rw [← List.append_assoc]
    exact .snoc ih step

lemma History.cons {c d e : Client} {h : Happening} {es : List Effect} {ms : List Moment}
    (step : c.step? h = some (d, es)) (rest : History d ms e) :
    History c (⟨c, h, es, d⟩ :: ms) e := by
  have first : History c [⟨c, h, es, d⟩] d := History.nil.snoc step
  exact first.append rest

/-- A history can be cut anywhere. -/
lemma History.split {c e : Client} {ms ns : List Moment} (history : History c (ms ++ ns) e) :
    ∃ d, History c ms d ∧ History d ns e := by
  induction ns using List.reverseRecOn generalizing e with
  | nil => exact ⟨e, by simpa using history, .nil⟩
  | append_singleton ns m ih =>
    rw [← List.append_assoc] at history
    generalize eq : ms ++ ns ++ [m] = all at history
    cases history with
    | nil => simp at eq
    | snoc history step =>
      obtain ⟨same, rfl⟩ := List.append_inj' eq rfl |>.imp_right List.singleton_inj.1
      subst same
      obtain ⟨d, first, second⟩ := ih history
      exact ⟨d, first, .snoc second step⟩

lemma History.of_nil {c d : Client} (history : History c [] d) : d = c := by
  generalize eq : ([] : List Moment) = ms at history
  cases history with
  | nil => rfl
  | snoc => simp at eq

/-- A history of one moment is that step. -/
lemma History.step {c d : Client} {m : Moment} (history : History c [m] d) :
    m.before = c ∧ m.after = d ∧ c.step? m.happening = some (d, m.effects) := by
  generalize eq : [m] = all at history
  cases history with
  | nil => cases eq
  | @snoc ms _ _ _ _ history step =>
    obtain ⟨rfl, rfl⟩ : ms = [] ∧ _ := by
      cases ms with
      | nil => exact ⟨rfl, List.singleton_inj.1 eq⟩
      | cons _ ms => simp at eq
    obtain rfl := history.of_nil
    exact ⟨rfl, rfl, step⟩

/-- A history can be cut at each of its moments. -/
lemma History.moment {c d : Client} {older newer : List Moment} {m : Moment}
    (history : History c (older ++ m :: newer) d) :
    History c older m.before ∧ m.before.step? m.happening = some (m.after, m.effects) ∧
      History m.after newer d := by
  obtain ⟨e, first, rest⟩ := history.split
  obtain ⟨f, one, last⟩ := (show m :: newer = [m] ++ newer from rfl) ▸ rest |>.split
  obtain ⟨rfl, rfl, step⟩ := one.step
  exact ⟨first, step, last⟩

/-- Every moment of a past comes after a past of its own. -/
lemma Past.moment {c : Client} {older newer : List Moment} {m : Moment}
    (past : Past (older ++ m :: newer) c) :
    Past older m.before ∧ m.before.step? m.happening = some (m.after, m.effects) ∧
      History m.after newer c := by
  obtain ⟨settings, pollConfig, lobby, now, wall, history⟩ := past
  obtain ⟨first, step, last⟩ := history.moment
  exact ⟨⟨settings, pollConfig, lobby, now, wall, first⟩, step, last⟩

/-- Every moment of a past is a step that comes after a past of its own. -/
lemma Past.of_mem {c : Client} {ms : List Moment} (past : Past ms c) {m : Moment}
    (member : m ∈ ms) :
    ∃ earlier, Past earlier m.before ∧ m.before.step? m.happening = some (m.after, m.effects) := by
  obtain ⟨older, newer, rfl⟩ := List.append_of_mem member
  obtain ⟨earlier, step, -⟩ := past.moment
  exact ⟨older, earlier, step⟩

/-- The last moment of a past ends in its state. -/
lemma Past.last {c : Client} {ms : List Moment} {m : Moment} (past : Past (ms ++ [m]) c) :
    Past ms m.before ∧ m.before.step? m.happening = some (c, m.effects) ∧ m.after = c := by
  obtain ⟨first, step, rest⟩ := past.moment
  obtain rfl := rest.of_nil
  exact ⟨first, step, rfl⟩

lemma Past.snoc {c d : Client} {ms : List Moment} {h : Happening} {es : List Effect}
    (past : Past ms c) (step : c.step? h = some (d, es)) : Past (ms ++ [⟨c, h, es, d⟩]) d := by
  obtain ⟨settings, pollConfig, lobby, now, wall, history⟩ := past
  exact ⟨settings, pollConfig, lobby, now, wall, history.snoc step⟩

lemma Past.append {c d : Client} {ms ns : List Moment} (past : Past ms c)
    (history : History c ns d) : Past (ms ++ ns) d := by
  obtain ⟨settings, pollConfig, lobby, now, wall, first⟩ := past
  exact ⟨settings, pollConfig, lobby, now, wall, first.append history⟩

/-- What holds at the start and is kept by every step holds after every past. -/
theorem Past.induct {motive : List Moment → Client → Prop}
    (start : ∀ settings pollConfig lobby now wall,
      motive [] (Client.start settings pollConfig lobby now wall))
    (step : ∀ ms c h es d, Past ms c → motive ms c → c.step? h = some (d, es) →
      motive (ms ++ [⟨c, h, es, d⟩]) d)
    {ms : List Moment} {c : Client} (past : Past ms c) : motive ms c := by
  obtain ⟨settings, pollConfig, lobby, now, wall, history⟩ := past
  induction history with
  | nil => exact start _ _ _ _ _
  | snoc history next ih =>
    exact step _ _ _ _ _ ⟨settings, pollConfig, lobby, now, wall, history⟩ ih next

/-! ## Histories and runs -/

lemma History.run {c d : Client} {ms : List Moment} (history : History c ms d) :
    Run c (ms.map (·.happening)) (ms.flatMap (·.effects)) d := by
  suffices joined : ∀ {d e : Client} {hs : List Happening} {es : List Effect} {ms : List Moment},
      History c ms d → Run d hs es e →
        Run c (ms.map (·.happening) ++ hs) (ms.flatMap (·.effects) ++ es) e by
    simpa using joined history (.nil d)
  intro d e hs es ms history
  induction history generalizing hs es with
  | nil => exact id
  | snoc _ step ih =>
    intro rest
    simpa using ih (.cons step rest)

/-- A run is what is left of a history when the states in between are forgotten. -/
theorem run_iff {c d : Client} {hs : List Happening} {es : List Effect} :
    Run c hs es d ↔
      ∃ ms, History c ms d ∧ ms.map (·.happening) = hs ∧ ms.flatMap (·.effects) = es := by
  constructor
  · intro run
    induction run with
    | nil c => exact ⟨[], .nil, rfl, rfl⟩
    | cons step _ ih =>
      obtain ⟨ms, history, rfl, rfl⟩ := ih
      exact ⟨_ :: ms, .cons step history, by simp, by simp⟩
  · rintro ⟨ms, history, rfl, rfl⟩
    exact history.run

/-! ## Histories that are computed -/

/-- Lets things happen to a client one after the other, and fails if one of them cannot. -/
def live? (c : Client) : List Happening → Option (List Moment × Client)
  | [] => some ([], c)
  | h :: hs =>
    match c.step? h with
    | none => none
    | some (d, es) => (d.live? hs).map fun (ms, e) => (⟨c, h, es, d⟩ :: ms, e)

lemma History.of_live {c d : Client} {hs : List Happening} {ms : List Moment}
    (h : c.live? hs = some (ms, d)) : History c ms d := by
  induction hs generalizing c ms with
  | nil =>
    simp only [live?, Option.some.injEq, Prod.mk.injEq] at h
    obtain ⟨rfl, rfl⟩ := h
    exact .nil
  | cons first hs ih =>
    simp only [live?] at h
    split at h
    case h_1 => cases h
    case h_2 d es step =>
      obtain ⟨⟨ns, e⟩, rest, eq⟩ := Option.map_eq_some_iff.1 h
      cases eq
      exact .cons step (ih rest)

lemma Past.of_live {settings : Settings} {pollConfig : PollConfig} {lobby : LobbyClient}
    {now : Nat} {wall : Int} {hs : List Happening} {ms : List Moment} {d : Client}
    (h : (start settings pollConfig lobby now wall).live? hs = some (ms, d)) : Past ms d :=
  ⟨settings, pollConfig, lobby, now, wall, .of_live h⟩

/-- A past goes on as is computed from its state. -/
lemma Past.live {ms ns : List Moment} {c d : Client} (past : Past ms c) (hs : List Happening)
    (h : c.live? hs = some (ns, d)) : History c ns d ∧ Past (ms ++ ns) d :=
  ⟨.of_live h, past.append (.of_live h)⟩

end Client

end OnlinePlay
