import OnlinePlay.Proofs.Wire.Record
import OnlinePlay.Proofs.Wire.Tokens

/-!
# Records in any layout

An object may show the members of a record in any order and have others among them. The reader goes
through them one after the other (`Runs`), and all that one member changes is its own slot. While
the members that are known have different names and values that can be read, the slots that are
filled are those of the names seen so far (`Has`), each with the value that was shown (`Agrees`);
this is carried along by `runs_fine`.

A layout of a record (`Layout`) shows every member that has no default. It is read as the record.
If a required member is taken from it, or a known one is given twice, or one has a value that is
refused, then reading ends with a flaw.
-/

namespace OnlinePlay.Wire

/-- A member of an object as it is written. -/
abbrev Entry := Literal × Json

/-- The tokens of a member. -/
def Entry.tokens (e : Entry) : List Bytes := e.1.text :: [colon] :: e.2.tokens

namespace Members

variable {ρ : Type} {m : Members ρ} {slots : m.Slots} {key : String} {j : Json}

/-! ## One member -/

/-- The member of this name was found. -/
def Has {ρ : Type} : (m : Members ρ) → m.Slots → String → Prop
  | .none, _, _ => False
  | .cons name _ _ rest, slots, key =>
    if key = name then slots.1.isSome = true else rest.Has slots.2 key

/-- All values found so far are those of a record. -/
def Agrees {ρ : Type} : (m : Members ρ) → m.Slots → ρ → Prop
  | .none, _, _ => True
  | .cons _ _ _ rest, slots, r => (∀ a ∈ slots.1, a = r.1) ∧ rest.Agrees slots.2 r.2

/-- Something is true of the member of this name: of its format, of what stands for it where it is
missing, and of the way in which a record holds its value. -/
def Under {ρ : Type} : Members ρ → String →
    (∀ α : Type, Format α → Absence α → (ρ → α) → Prop) → Prop
  | .none, _, _ => False
  | .cons name f absence rest, key, rule =>
    if key = name then rule _ f absence (·.1)
    else rest.Under key fun α g absence get => rule α g absence fun r => get r.2

/-- A JSON value is read as what a record has under this name. -/
def Holds (m : Members ρ) (r : ρ) (key : String) (j : Json) : Prop :=
  m.Under key fun _ f _ get => Reads f.read j.tokens (.ok (get r))

/-- A JSON value can be read under this name. -/
def Takes (m : Members ρ) (key : String) (j : Json) : Prop :=
  m.Under key fun _ f _ _ => ∃ a, Reads f.read j.tokens (.ok a)

/-- A JSON value is refused under this name. -/
def Refuses (m : Members ρ) (key : String) (j : Json) (flaw : Flaw) : Prop :=
  m.Under key fun _ f _ _ => Reads f.read j.tokens (.error flaw)

/-- An object need not show what a record has under this name. -/
def Spares (m : Members ρ) (r : ρ) (key : String) : Prop :=
  m.Under key fun _ _ absence get => absence.inObject? = some (get r)

/-- No object may lack the member of this name. -/
def Requires (m : Members ρ) (key : String) : Prop :=
  m.Under key fun _ _ absence _ => absence.inObject? = Option.none

lemma not_has_unfilled (m : Members ρ) (key : String) : ¬ m.Has m.unfilled key := by
  induction m with
  | none => exact id
  | cons name f absence rest ih =>
    rw [Has]
    split
    · exact Bool.false_ne_true
    · exact ih

lemma agrees_unfilled (m : Members ρ) (r : ρ) : m.Agrees m.unfilled r := by
  induction m with
  | none => trivial
  | cons name f absence rest ih => exact ⟨nofun, ih r.2⟩

section

variable {rule rule' : ∀ α : Type, Format α → Absence α → (ρ → α) → Prop}

lemma Under.known (under : m.Under key rule) : key ∈ m.names := by
  induction m with
  | none => exact under.elim
  | cons name f absence rest ih =>
    rw [Under] at under
    split at under
    case isTrue same => exact same ▸ .head _
    case isFalse other => exact .tail _ (ih under)

lemma Under.imp (under : m.Under key rule)
    (weaker : ∀ α f absence get, rule α f absence get → rule' α f absence get) :
    m.Under key rule' := by
  induction m with
  | none => exact under.elim
  | cons name f absence rest ih =>
    rw [Under] at under ⊢
    split
    case isTrue same =>
      rw [if_pos same] at under
      exact weaker _ _ _ _ under
    case isFalse other =>
      rw [if_neg other] at under
      exact ih under fun α g absence get => weaker α g absence fun r => get r.2

end

lemma Holds.takes {r : ρ} (holds : m.Holds r key j) : m.Takes key j :=
  holds.imp fun _ _ _ get reads => ⟨get r, reads⟩

/-- The colon before a value. -/
lemma readColon_tokens {ts : List Bytes} {text : Bytes} (spaced : Spaced ([colon] :: ts) text)
    (rest : Bytes) : ∃ value, readColon (text ++ rest) = .ok (value ++ rest) ∧ Spaced ts value := by
  obtain ⟨gap, value, rfl, blank, later⟩ := spaced_cons spaced
  refine ⟨value, ?_, later⟩
  rw [List.append_assoc, List.append_assoc, List.singleton_append, readColon,
    skipBlank_mark blank rfl]
  rfl

/-- A member of an unknown name is passed over. -/
lemma reads_unknown (unknown : key ∉ m.names) (slots : m.Slots) :
    Reads (m.readMember key slots) ([colon] :: j.tokens) (.ok slots) := by
  intro text spaced rest follows
  induction m with
  | none =>
    obtain ⟨value, toValue, spaced⟩ := readColon_tokens spaced rest
    simp only [readMember, toValue, bind, Except.bind, skipValue_text j spaced follows]
    rfl
  | cons name f absence others ih =>
    rw [names, List.mem_cons, not_or] at unknown
    simp only [readMember, unknown.1, if_false, ih unknown.2 slots.2, bind, Except.bind]
    rfl

/-- A member that was found before is refused, whatever its value is. -/
lemma reads_again (has : m.Has slots key) (ts : List Bytes) :
    Reads (m.readMember key slots) ts (.error .mismatched) := by
  intro text spaced rest follows
  induction m with
  | none => exact has.elim
  | cons name f absence others ih =>
    rw [Has] at has
    split at has
    case isTrue same =>
      simp only [readMember, same, if_true, has]
      rfl
    case isFalse other =>
      simp only [readMember, other, if_false, ih has, bind, Except.bind, Except.map]

/-- A member with a value that is refused. -/
lemma reads_refused {flaw : Flaw} (refuses : m.Refuses key j flaw) (fresh : ¬ m.Has slots key) :
    Reads (m.readMember key slots) ([colon] :: j.tokens) (.error flaw) := by
  intro text spaced rest follows
  induction m with
  | none => exact refuses.elim
  | cons name f absence others ih =>
    rw [Refuses, Under] at refuses
    rw [Has] at fresh
    by_cases same : key = name
    · rw [if_pos same] at refuses fresh
      obtain ⟨value, toValue, spaced⟩ := readColon_tokens spaced rest
      simp only [readMember, same, if_true, fresh, toValue, bind, Except.bind,
        refuses value spaced rest follows]
      rfl
    · rw [if_neg same] at refuses fresh
      simp only [readMember, same, if_false, ih refuses fresh, bind, Except.bind, Except.map]

/-- A member that was not found before fills its slot with its value. -/
lemma reads_fresh (takes : m.Takes key j) (fresh : ¬ m.Has slots key) :
    ∃ after, Reads (m.readMember key slots) ([colon] :: j.tokens) (.ok after) ∧
      (∀ k, m.Has after k ↔ k = key ∨ m.Has slots k) ∧
      ∀ r, m.Agrees slots r → m.Holds r key j → m.Agrees after r := by
  induction m with
  | none => exact takes.elim
  | cons name f absence others ih =>
    rw [Takes, Under] at takes
    rw [Has] at fresh
    by_cases same : key = name
    · rw [if_pos same] at takes fresh
      obtain ⟨a, takes⟩ := takes
      refine ⟨(some a, slots.2), ?_, fun k => ?_, fun r agrees holds => ?_⟩
      · intro text spaced rest follows
        obtain ⟨value, toValue, spaced⟩ := readColon_tokens spaced rest
        simp only [readMember, same, if_true, fresh, toValue, bind, Except.bind,
          takes value spaced rest follows]
        rfl
      · subst same
        by_cases here : k = key <;> simp [Has, here]
      · rw [Holds, Under, if_pos same] at holds
        refine ⟨fun b here => ?_, agrees.2⟩
        cases here
        exact takes.unique holds
    · rw [if_neg same] at takes fresh
      obtain ⟨after, reads, has, agrees⟩ := ih takes fresh
      refine ⟨(slots.1, after), ?_, fun k => ?_, fun r agrees' holds => ?_⟩
      · intro text spaced rest follows
        simp only [readMember, same, if_false, reads text spaced rest follows, bind, Except.bind,
          Except.map]
      · by_cases here : k = name
        · have other : k ≠ key := fun e => same (e ▸ here)
          simp [Has, here, Ne.symm same]
        · simp [Has, here, has]
      · rw [Holds, Under, if_neg same] at holds
        exact ⟨agrees'.1, agrees r.2 agrees'.2 holds⟩

/-! ## The end of an object -/

lemma close_agrees {r : ρ} (distinct : m.names.Nodup) (agrees : m.Agrees slots r)
    (spares : ∀ k ∈ m.names, ¬ m.Has slots k → m.Spares r k) : m.close slots = .ok r := by
  induction m with
  | none => rfl
  | cons name f absence rest ih =>
    obtain ⟨fresh, distinct⟩ := List.nodup_cons.1 distinct
    have others : rest.close slots.2 = .ok r.2 := by
      refine ih distinct agrees.2 fun k known missing => ?_
      have other : k ≠ name := fun e => fresh (e ▸ known)
      have spared := spares k (.tail _ known)
      simpa [Has, Spares, Under, other, missing] using spared
    have own : slots.1.or absence.inObject? = some r.1 := by
      cases found : slots.1 with
      | some a => rw [agrees.1 a found, Option.some_or]
      | none =>
        have spared := spares name (.head _)
        simpa [Has, Spares, Under, found] using spared
    simp only [close, own, others, bind, Except.bind]

lemma close_missing (required : m.Requires key) (missing : ¬ m.Has slots key) :
    m.close slots = .error .mismatched := by
  induction m with
  | none => exact required.elim
  | cons name f absence rest ih =>
    rw [Requires, Under] at required
    rw [Has] at missing
    by_cases same : key = name
    · rw [if_pos same] at required missing
      have own : slots.1.or absence.inObject? = Option.none := by
        rw [required, Option.or_none]
        simpa using missing
      rw [close, own]
    · rw [if_neg same] at required missing
      rw [close]
      split
      · rfl
      · rw [ih required missing]
        rfl

/-! ## Several members -/

/-- What the reader makes of several members: it reads them in order, up to the first flaw. -/
inductive Runs {ρ : Type} (m : Members ρ) : m.Slots → List Entry → Except Flaw m.Slots → Prop where
  | nil (slots : m.Slots) : Runs m slots [] (.ok slots)
  | cons {before between : m.Slots} {e : Entry} {es : List Entry} {result : Except Flaw m.Slots} :
    Reads (m.readEntry before) e.tokens (.ok between) →
    Runs m between es result →
    Runs m before (e :: es) result
  | fail {before : m.Slots} {e : Entry} {es : List Entry} {flaw : Flaw} :
    Reads (m.readEntry before) e.tokens (.error flaw) →
    Runs m before (e :: es) (.error flaw)

/-- A member is read by the name that it spells. -/
lemma reads_entry {e : Entry} {result : Except Flaw m.Slots} (spells : e.1.Spells key)
    (reads : Reads (m.readMember key slots) ([colon] :: e.2.tokens) result) :
    Reads (m.readEntry slots) e.tokens result := by
  intro text spaced rest follows
  obtain ⟨gap, more, rfl, blank, later⟩ := spaced_cons spaced
  have opened : skipBlank (gap ++ (e.1.text ++ more) ++ rest) =
      quote :: (e.1.tail ++ (more ++ rest)) := by
    rw [List.append_assoc, List.append_assoc]
    exact skipBlank_mark blank rfl _
  simp only [readEntry, opened, ne_eq, not_true_eq_false, if_false, readText_spelled spells, bind,
    Except.bind, reads more later rest follows]

lemma readMembers_flaw {input : Bytes} {flaw : Flaw} (fuel : Nat)
    (fails : m.readEntry slots input = .error flaw) :
    m.readMembers (fuel + 1) slots input = .error flaw := by
  rw [readMembers_eq, fails]
  rfl

/-- The members of an object are read one after the other, up to its end or the first flaw. -/
lemma readMembers_tokens {es : List Entry} {result : Except Flaw m.Slots}
    (runs : Runs m slots es result) (nonempty : es ≠ []) {fuel : Nat} {text : Bytes}
    (enough : text.length ≤ fuel)
    (spaced : Spaced (commas (Json.members es) ++ [[closeObject]]) text) (rest : Bytes) :
    m.readMembers fuel slots (text ++ rest) = (result.bind m.close).map (·, rest) := by
  induction runs generalizing fuel text with
  | nil => exact absurd rfl nonempty
  | @cons before between e es result reads runs ih =>
    obtain ⟨first, gap, mark, more, rfl, member, blank, -, follows, ends⟩ :=
      spaced_commas (.inr rfl) spaced
    simp only [List.length_append, List.length_cons] at enough
    obtain ⟨fuel, rfl⟩ : ∃ n, fuel = n + 1 := ⟨fuel - 1, by omega⟩
    have read := reads first member _ (follows (more ++ rest))
    rw [List.append_assoc, List.append_assoc, List.cons_append]
    rcases ends with ⟨none, rfl, rfl⟩ | ⟨goesOn, rfl, later⟩
    · rw [readMembers_end fuel gap blank read]
      cases runs with
      | nil => rfl
      | _ => cases none
    · rw [readMembers_comma fuel gap blank read]
      exact ih (by rintro rfl; exact goesOn rfl) (by omega) later
  | @fail before e es flaw fails =>
    obtain ⟨first, gap, mark, more, rfl, member, blank, -, follows, -⟩ :=
      spaced_commas (.inr rfl) spaced
    simp only [List.length_append, List.length_cons] at enough
    obtain ⟨fuel, rfl⟩ : ∃ n, fuel = n + 1 := ⟨fuel - 1, by omega⟩
    have read := fails first member _ (follows (more ++ rest))
    rw [List.append_assoc, List.append_assoc, List.cons_append, readMembers_flaw fuel read]
    rfl

/-- An object is read member by member. -/
lemma Runs.reads {es : List Entry} {result : Except Flaw m.Slots}
    (runs : Runs m m.unfilled es result) :
    Reads (Format.record m).read (Json.object es).tokens (result.bind m.close) := by
  intro text spaced rest _
  obtain ⟨gap, more, rfl, blank, later⟩ := spaced_cons spaced
  have opened :
      skipBlank (gap ++ ([openObject] ++ more) ++ rest) = openObject :: (more ++ rest) := by
    rw [List.append_assoc, List.append_assoc]
    exact skipBlank_mark blank rfl _
  simp only [Format.record, opened, if_true, readObject]
  cases es with
  | nil =>
    have solid : isBlank closeObject = false := rfl
    cases runs
    simp only [skipBlank_close solid later rest, if_true, Except.bind]
    cases m.close m.unfilled <;> rfl
  | cons e es =>
    have within : more.length ≤ (more ++ rest).length + 1 := by
      rw [List.length_append]
      omega
    have read := readMembers_tokens runs (List.cons_ne_nil _ _) within later rest
    have solid : isBlank quote = false := rfl
    have goesOn : quote ≠ closeObject := by decide
    obtain ⟨tail, first⟩ := skipBlank_commas solid later rest
    simp only [first, goesOn, if_false, read]

/-! ## Layouts -/

/-- Two members do not have the same known name. -/
def Apart (m : Members ρ) (e e' : Entry) : Prop :=
  ∀ k ∈ m.names, e.1.Spells k → ¬ e'.1.Spells k

/-- A member can be read: its name is unknown, or its value is of the kind that goes with it. -/
def Fine (m : Members ρ) (e : Entry) : Prop :=
  ∃ key, e.1.Spells key ∧ (key ∉ m.names ∨ m.Takes key e.2)

lemma Apart.symm {e e' : Entry} (apart : m.Apart e e') : m.Apart e' e :=
  fun k known second first => apart k known first second

/-- Members that can be read, no two of them of the same known name, fill the slots of the names
that they show. -/
lemma runs_fine {es : List Entry} (fine : ∀ e ∈ es, m.Fine e) (apart : es.Pairwise m.Apart)
    (fresh : ∀ e ∈ es, ∀ k, e.1.Spells k → ¬ m.Has slots k) :
    ∃ after, (∀ more result, Runs m after more result → Runs m slots (es ++ more) result) ∧
      (∀ k, m.Has after k ↔ m.Has slots k ∨ k ∈ m.names ∧ ∃ e ∈ es, e.1.Spells k) ∧
      ∀ r, m.Agrees slots r → (∀ e ∈ es, ∀ k ∈ m.names, e.1.Spells k → m.Holds r k e.2) →
        m.Agrees after r := by
  induction es generalizing slots with
  | nil => exact ⟨slots, fun _ _ runs => runs, by simp, fun r agrees _ => agrees⟩
  | cons e es ih =>
    obtain ⟨others, apart⟩ := List.pairwise_cons.1 apart
    have fineLater : ∀ e ∈ es, m.Fine e := fun e member => fine e (.tail _ member)
    obtain ⟨key, spells, unknown | takes⟩ := fine e (.head _)
    · obtain ⟨after, runs, has, agrees⟩ :=
        ih fineLater apart fun e member => fresh e (.tail _ member)
      refine ⟨after, fun more result rest => ?_, fun k => ?_, fun r agrees' holds => ?_⟩
      · exact .cons (reads_entry spells (reads_unknown unknown slots)) (runs more result rest)
      · rw [has, List.exists_mem_cons_iff]
        refine or_congr_right (and_congr_right fun known => (or_iff_right ?_).symm)
        exact fun same => unknown (spells.unique same ▸ known)
      · exact agrees r agrees' fun e member => holds e (.tail _ member)
    · have known := takes.known
      obtain ⟨between, read, filled, kept⟩ := reads_fresh takes (fresh e (.head _) key spells)
      have freshLater : ∀ e' ∈ es, ∀ k, e'.1.Spells k → ¬ m.Has between k := by
        intro e' member k spells' found
        rcases (filled k).1 found with rfl | before
        · exact others e' member k known spells spells'
        · exact fresh e' (.tail _ member) k spells' before
      obtain ⟨after, runs, has, agrees⟩ := ih fineLater apart freshLater
      refine ⟨after, fun more result rest => ?_, fun k => ?_, fun r agrees' holds => ?_⟩
      · exact .cons (reads_entry spells read) (runs more result rest)
      · rw [has, filled, List.exists_mem_cons_iff]
        have own : e.1.Spells k ↔ k = key :=
          ⟨fun same => same.unique spells, fun same => same ▸ spells⟩
        rw [own]
        constructor
        · rintro ((rfl | before) | ⟨isKnown, shown⟩)
          · exact .inr ⟨known, .inl rfl⟩
          · exact .inl before
          · exact .inr ⟨isKnown, .inr shown⟩
        · rintro (before | ⟨isKnown, rfl | shown⟩)
          · exact .inl (.inr before)
          · exact .inl (.inl rfl)
          · exact .inr ⟨isKnown, shown⟩
      · exact agrees r (kept r agrees' (holds e (.head _) key known spells))
          fun e member => holds e (.tail _ member)

/-- An object shows the members of a record, in any order and with others among them. What it does
not show is what its absence means. -/
structure Layout (m : Members ρ) (r : ρ) (es : List Entry) : Prop where
  shows : ∀ e ∈ es, ∃ key, e.1.Spells key ∧ (key ∉ m.names ∨ m.Holds r key e.2)
  apart : es.Pairwise m.Apart
  complete : ∀ k ∈ m.names, (∀ e ∈ es, ¬ e.1.Spells k) → m.Spares r k

namespace Layout

variable {r : ρ} {es es₁ es₂ : List Entry}

lemma fine (layout : m.Layout r es) : ∀ e ∈ es, m.Fine e := by
  intro e member
  obtain ⟨key, spells, meaning⟩ := layout.shows e member
  exact ⟨key, spells, meaning.imp_right Holds.takes⟩

lemma holds (layout : m.Layout r es) : ∀ e ∈ es, ∀ k ∈ m.names, e.1.Spells k → m.Holds r k e.2 := by
  intro e member k known spells
  obtain ⟨key, spells', unknown | holds⟩ := layout.shows e member
  · exact absurd (spells.unique spells' ▸ known) unknown
  · rwa [spells.unique spells']

/-- The reader of an object starts with no slots filled. -/
lemma runs {m : Members ρ} {es : List Entry} (fine : ∀ e ∈ es, m.Fine e)
    (apart : es.Pairwise m.Apart) :
    ∃ after, (∀ more result, Runs m after more result → Runs m m.unfilled (es ++ more) result) ∧
      (∀ k, m.Has after k ↔ k ∈ m.names ∧ ∃ e ∈ es, e.1.Spells k) ∧
      ∀ r, (∀ e ∈ es, ∀ k ∈ m.names, e.1.Spells k → m.Holds r k e.2) → m.Agrees after r := by
  obtain ⟨after, runs, has, agrees⟩ :=
    runs_fine fine apart fun _ _ k _ => m.not_has_unfilled k
  refine ⟨after, runs, fun k => ?_, fun r => agrees r (m.agrees_unfilled r)⟩
  rw [has, or_iff_right (m.not_has_unfilled k)]

/-- A layout of a record is read as the record. -/
theorem reads (layout : m.Layout r es) (distinct : m.names.Nodup) :
    Reads (Format.record m).read (Json.object es).tokens (.ok r) := by
  obtain ⟨after, runs, has, agrees⟩ := runs layout.fine layout.apart
  have all := runs [] _ (.nil after)
  rw [List.append_nil] at all
  have closes : m.close after = .ok r := by
    refine close_agrees distinct (agrees r layout.holds) fun k known missing => ?_
    refine layout.complete k known fun e member spells => missing ?_
    exact (has k).2 ⟨known, e, member, spells⟩
  have read := all.reads
  rwa [Except.bind, closes] at read

/-- Without a required member it is none. -/
theorem reads_lacking {e : Entry} (layout : m.Layout r (es₁ ++ e :: es₂))
    (spells : e.1.Spells key) (required : m.Requires key) :
    Reads (Format.record m).read (Json.object (es₁ ++ es₂)).tokens (.error .mismatched) := by
  have fewer : (es₁ ++ es₂).Sublist (es₁ ++ e :: es₂) :=
    (List.Sublist.refl es₁).append (List.sublist_cons_self e es₂)
  have others := (List.pairwise_middle (fun apart => apart.symm)).1 layout.apart
  obtain ⟨alone, apart⟩ := List.pairwise_cons.1 others
  obtain ⟨after, runs, has, -⟩ := runs (fun e member => layout.fine e (fewer.subset member)) apart
  have all := runs [] _ (.nil after)
  rw [List.append_nil] at all
  have closes : m.close after = .error .mismatched := by
    refine close_missing required fun found => ?_
    obtain ⟨-, e', member, spells'⟩ := (has key).1 found
    exact alone e' member key required.known spells spells'
  have read := all.reads
  rwa [Except.bind, closes] at read

/-- If a known member is given twice, it is none. It is so where the name comes again. -/
lemma reads_twice {e : Entry} (fine : ∀ e ∈ es₁, m.Fine e) (apart : es₁.Pairwise m.Apart)
    (known : key ∈ m.names) (before : ∃ e' ∈ es₁, e'.1.Spells key) (spells : e.1.Spells key) :
    Reads (Format.record m).read (Json.object (es₁ ++ e :: es₂)).tokens (.error .mismatched) := by
  obtain ⟨after, runs, has, -⟩ := runs fine apart
  have again := reads_again ((has key).2 ⟨known, before⟩) ([colon] :: e.2.tokens)
  exact (runs _ _ (.fail (reads_entry spells again))).reads

/-- A known member that is given again behind itself, with any value. -/
theorem reads_again {e e' : Entry} (layout : m.Layout r (es₁ ++ es₂)) (known : key ∈ m.names)
    (member : e' ∈ es₁) (spells' : e'.1.Spells key) (spells : e.1.Spells key) :
    Reads (Format.record m).read (Json.object (es₁ ++ e :: es₂)).tokens (.error .mismatched) := by
  refine reads_twice (fun e member => layout.fine e (List.mem_append_left _ member)) ?_ known
    ⟨e', member, spells'⟩ spells
  exact layout.apart.sublist (List.sublist_append_left es₁ es₂)

/-- The reader stops at a member with a value that is refused. -/
lemma reads_flawed {e : Entry} {flaw : Flaw} (fine : ∀ e ∈ es₁, m.Fine e)
    (apart : es₁.Pairwise m.Apart) (fresh : ∀ e' ∈ es₁, ¬ e'.1.Spells key)
    (spells : e.1.Spells key) (refuses : m.Refuses key e.2 flaw) :
    Reads (Format.record m).read (Json.object (es₁ ++ e :: es₂)).tokens (.error flaw) := by
  obtain ⟨after, runs, has, -⟩ := runs fine apart
  have missing : ¬ m.Has after key := by
    intro found
    obtain ⟨-, e', member, spells'⟩ := (has key).1 found
    exact fresh e' member spells'
  exact (runs _ _ (.fail (reads_entry spells (Members.reads_refused refuses missing)))).reads

/-- A member with a value that is refused, in place of another value. -/
theorem reads_refused {l : Literal} {j' : Json} {flaw : Flaw}
    (layout : m.Layout r (es₁ ++ (l, j) :: es₂)) (spells : l.Spells key)
    (refuses : m.Refuses key j' flaw) :
    Reads (Format.record m).read (Json.object (es₁ ++ (l, j') :: es₂)).tokens (.error flaw) := by
  obtain ⟨front, -, between⟩ := List.pairwise_append.1 layout.apart
  refine reads_flawed (fun e member => layout.fine e (List.mem_append_left _ member)) front
    (fun e member spells' => ?_) spells refuses
  exact between e member _ (.head _) key refuses.known spells' spells

end Layout

end Members

end OnlinePlay.Wire
