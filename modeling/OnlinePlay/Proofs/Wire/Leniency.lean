import Mathlib.Data.List.Forall2
import Mathlib.Data.List.Nodup
import Mathlib.Data.List.TakeWhile
import OnlinePlay.Proofs.Wire.Verdict
import OnlinePlay.Wire.Payload

/-!
# Payloads in any layout

What a directory sends need not look like what is written here. An object shows a value if it has
the members of the value, in any order and written in any way, with any members of other names
among them, and without those whose value is what their absence means (`Shows`). What is written of
a value is such an object, and whatever shows it is read as the value.

An object from which a required member was taken is of another kind, and so is one in which a known
member comes again behind itself (`Spoiled`). Where the first of two members of one name is not the
one that the value has (`Fronted`), the object is not read either, but it is of another kind for
sure only if what this member holds is plain. Anything else may stop the reader before it comes to
the second of the two.

The members of the formats are compared with the fields of the values by `Meets`, and then the
layouts of a record are those of its fields.
-/

namespace OnlinePlay

open Wire

/-! ## What an object shows -/

/-- A field of a value: its name, the JSON values that stand for what it holds, and whether it may
be left out. -/
structure Field where
  name : String
  shows : Json → Prop
  spare : Prop

/-- The members of an object are some fields in this order, each left out only if it may be. -/
inductive Kept : List Field → List Entry → Prop where
  | nil : Kept [] []
  | shown {field : Field} {fields : List Field} {e : Entry} {es : List Entry} :
    e.1.Spells field.name → field.shows e.2 → Kept fields es → Kept (field :: fields) (e :: es)
  | left {field : Field} {fields : List Field} {es : List Entry} :
    field.spare → Kept fields es → Kept (field :: fields) es

/-- The members of an object are some fields and any members of other names, in any order. -/
def Shows (fields : List Field) (es : List Entry) : Prop :=
  ∃ kept others, es.Perm (kept ++ others) ∧ Kept fields kept ∧
    ∀ e ∈ others, ∃ name, e.1.Spells name ∧ name ∉ fields.map (·.name)

/-- A value is an object that shows some fields. -/
def Wire.Json.IsObject (fields : List Field) (j : Json) : Prop :=
  ∃ es, j = .object es ∧ Shows fields es

/-- Some value has a field of this name. -/
def Known {α : Type} (fields : α → List Field) (name : String) : Prop :=
  ∃ a, ∃ field ∈ fields a, field.name = name

/-- From an object with some fields a required member is taken, or a known one is given to it again
behind the one that it has, with any value. -/
inductive Spoiled {α : Type} (fields : α → List Field) (required : List String) :
    List Entry → List Entry → Prop where
  | lacking {es₁ es₂ : List Entry} {e : Entry} {name : String} :
    name ∈ required → e.1.Spells name → Spoiled fields required (es₁ ++ e :: es₂) (es₁ ++ es₂)
  | again {es₁ es₂ : List Entry} {e : Entry} {name : String} :
    Known fields name →
    e.1.Spells name →
    (∃ e' ∈ es₁, e'.1.Spells name) →
    Spoiled fields required (es₁ ++ es₂) (es₁ ++ e :: es₂)

/-- An object with some fields is given a member of a known name in front of the one that it has, or
two members of a known name where it has none. The first of the two has this name and holds this
value. -/
inductive Fronted {α : Type} (fields : α → List Field) :
    List Entry → List Entry → String → Json → Prop where
  | ahead {es₁ es₂ : List Entry} {e : Entry} {name : String} :
    Known fields name →
    e.1.Spells name →
    (∃ e' ∈ es₂, e'.1.Spells name) →
    Fronted fields (es₁ ++ es₂) (es₁ ++ e :: es₂) name e.2
  | both {es₁ es₂ es₃ : List Entry} {e e' : Entry} {name : String} :
    Known fields name →
    e.1.Spells name →
    e'.1.Spells name →
    (∀ x ∈ es₁ ++ (es₂ ++ es₃), ¬ x.1.Spells name) →
    Fronted fields (es₁ ++ (es₂ ++ es₃)) (es₁ ++ e :: (es₂ ++ e' :: es₃)) name e.2

section

variable {fields : List Field} {es : List Entry}

lemma Kept.shows (kept : Kept fields es) :
    ∀ e ∈ es, ∃ field ∈ fields, e.1.Spells field.name ∧ field.shows e.2 := by
  induction kept with
  | nil => nofun
  | @shown field fields e es spells shows _ ih =>
    intro e' member
    rcases List.mem_cons.1 member with rfl | later
    · exact ⟨field, .head _, spells, shows⟩
    · obtain ⟨field', inside, shown⟩ := ih e' later
      exact ⟨field', .tail _ inside, shown⟩
  | left _ _ ih =>
    intro e' member
    obtain ⟨field', inside, shown⟩ := ih e' member
    exact ⟨field', .tail _ inside, shown⟩

lemma Kept.apart (kept : Kept fields es) (distinct : (fields.map (·.name)).Nodup) :
    es.Pairwise fun e e' => ∀ k, e.1.Spells k → ¬ e'.1.Spells k := by
  induction kept with
  | nil => exact .nil
  | @shown field fields e es spells _ others ih =>
    obtain ⟨fresh, distinct⟩ := List.nodup_cons.1 distinct
    refine List.pairwise_cons.2 ⟨fun e' member k first second => ?_, ih distinct⟩
    obtain ⟨field', inside, spells', -⟩ := others.shows e' member
    rw [first.unique spells] at second
    exact fresh (List.mem_map.2 ⟨field', inside, (second.unique spells').symm⟩)
  | left _ _ ih => exact ih (List.nodup_cons.1 distinct).2

lemma Kept.complete (kept : Kept fields es) :
    ∀ field ∈ fields, (∀ e ∈ es, ¬ e.1.Spells field.name) → field.spare := by
  induction kept with
  | nil => nofun
  | @shown field fields e es spells _ _ ih =>
    intro field' member missing
    rcases List.mem_cons.1 member with rfl | later
    · exact absurd spells (missing e (.head _))
    · exact ih field' later fun e' inside => missing e' (.tail _ inside)
  | left spare _ ih =>
    intro field' member missing
    rcases List.mem_cons.1 member with rfl | later
    · exact spare
    · exact ih field' later missing

/-- Whatever goes by the name of a field shows it. -/
lemma Shows.value (shows : Shows fields es) (distinct : (fields.map (·.name)).Nodup)
    {field : Field} (member : field ∈ fields) {e : Entry} (inside : e ∈ es)
    (spells : e.1.Spells field.name) : field.shows e.2 := by
  obtain ⟨kept, others, perm, keeps, unknown⟩ := shows
  rcases List.mem_append.1 (perm.mem_iff.1 inside) with isKept | isOther
  · obtain ⟨field', member', spells', shown⟩ := keeps.shows e isKept
    have same := List.inj_on_of_nodup_map distinct member member' (spells.unique spells')
    rwa [same]
  · obtain ⟨name, spells', isUnknown⟩ := unknown e isOther
    rw [spells'.unique spells] at isUnknown
    exact absurd (List.mem_map_of_mem member) isUnknown

end

/-! ## Formats that present their values -/

namespace Wire

/-- A format writes values in a way that shows them, and reads them from whatever shows them. -/
structure Format.Presents {α : Type} (f : Format α) (shows : α → Json → Prop)
    (fits : α → Prop := fun _ => True) : Prop where
  reads : ∀ a j, fits a → shows a j → Reads f.read j.tokens (.ok a)
  writes : ∀ a, fits a → ∃ j, shows a j ∧ Spaced j.tokens (f.write a)

/-- Each element of a list that shows some values shows one of them. -/
lemma Json.IsList.element {α : Type} {shows : α → Json → Prop} {as : List α} {js₁ js₂ : List Json}
    {j : Json} (isList : (Json.list (js₁ ++ j :: js₂)).IsList shows as) : ∃ a, shows a j := by
  obtain ⟨js, same, all⟩ := isList
  cases same
  have behind := List.forall₂_drop_append as js₁ (j :: js₂) all
  obtain ⟨a, -, shown, -⟩ := List.forall₂_cons_right_iff.1 behind
  exact ⟨a, shown⟩

lemma spaced_token (token : Bytes) : Spaced [token] token := by
  have spaced := spaced_flatten [token]
  rwa [List.flatten_singleton] at spaced

namespace Format

lemma presents_text : text.Presents fun s j => j.IsString s where
  reads _ _ _ := reads_text
  writes s _ := by
    obtain ⟨l, written, spells⟩ := exists_literal s
    refine ⟨.text l, ⟨l, rfl, spells⟩, ?_⟩
    rw [Json.tokens, written]
    exact spaced_token _

lemma presents_flag : flag.Presents fun b j => j.IsFlag b where
  reads _ _ _ := reads_flag
  writes b _ := ⟨.flag b, rfl, spaced_token _⟩

lemma presents_natural {bound : Nat} (narrow : bound ≤ wordLimit) :
    (natural bound).Presents (fun n j => j.IsNatural n) (· < bound) where
  reads _ _ inRange isNatural := reads_natural isNatural narrow inRange
  writes n _ := by
    refine ⟨_, rfl, ?_⟩
    rw [Json.tokens, Number.natural, text_ofRow]
    exact spaced_token _

lemma Presents.via {α β : Type} {f : Format α} {make : α → β} {parts : β → α}
    {shows : α → Json → Prop} {fits : α → Prop} (presents : f.Presents shows fits)
    (same : ∀ b, make (parts b) = b) :
    (f.via make parts).Presents (fun b j => shows (parts b) j) (fun b => fits (parts b)) where
  reads b j fitting shown := by
    have read : Reads (f.via make parts).read j.tokens (.ok (make (parts b))) :=
      (presents.reads _ j fitting shown).via
    rwa [same] at read
  writes b fitting := presents.writes (parts b) fitting

lemma presents_word16 : word16.Presents fun w j => j.IsNatural w.toNat := by
  have presents : word16.Presents (fun w j => j.IsNatural w.toNat) (·.toNat < UInt16.size) :=
    (presents_natural (by decide)).via fun _ => UInt16.ofNat_toNat
  exact ⟨fun w j _ => presents.reads w j w.toNat_lt, fun w _ => presents.writes w w.toNat_lt⟩

lemma presents_word32 : word32.Presents fun w j => j.IsNatural w.toNat := by
  have presents : word32.Presents (fun w j => j.IsNatural w.toNat) (·.toNat < UInt32.size) :=
    (presents_natural (by decide)).via fun _ => UInt32.ofNat_toNat
  exact ⟨fun w j _ => presents.reads w j w.toNat_lt, fun w _ => presents.writes w w.toNat_lt⟩

lemma presents_choice {α : Type} {all : List α} {name : α → String}
    (known : ∀ a, all.find? (name · = name a) = some a) :
    (choice all name).Presents fun a j => j.IsString (name a) where
  reads a _ _ := reads_choice (known a)
  writes a _ := presents_text.writes (name a) trivial

end Format

/-! ### Lists -/

lemma Spaced.append {ts us : List Bytes} {first second : Bytes} (front : Spaced ts first)
    (behind : Spaced us second) : Spaced (ts ++ us) (first ++ second) := by
  induction front with
  | nil => exact behind
  | @cons gap token text ts blank _ ih =>
    rw [List.cons_append, List.append_assoc, List.append_assoc]
    exact .cons gap blank ih

/-- What is written of several values has their tokens with commas between them. -/
lemma spaced_separated {tss : List (List Bytes)} {texts : List Bytes}
    (all : List.Forall₂ Spaced tss texts) : Spaced (commas tss) (Format.separated texts) := by
  induction all with
  | nil => exact .nil
  | @cons ts text tss texts first others ih =>
    cases others with
    | nil => exact first
    | cons second others => exact first.append ih.next

namespace Format

lemma Presents.list {α : Type} {f : Format α} {shows : α → Json → Prop} {fits : α → Prop}
    (presents : f.Presents shows fits) :
    f.list.Presents (fun as j => j.IsList shows as) (fun as => ∀ a ∈ as, fits a) where
  reads as j fitting isList := by
    obtain ⟨js, rfl, all⟩ := isList
    exact (elements_of_shows presents.reads fitting all).reads
  writes as fitting := by
    suffices all : ∃ js, List.Forall₂ shows as js ∧
        List.Forall₂ Spaced (Json.elements js) (as.map f.write) by
      obtain ⟨js, shown, spaced⟩ := all
      exact ⟨.list js, ⟨js, rfl, shown⟩, (spaced_separated spaced).append (spaced_token _) |>.next⟩
    induction as with
    | nil => exact ⟨[], .nil, .nil⟩
    | cons a as ih =>
      obtain ⟨j, shown, spaced⟩ := presents.writes a (fitting a (.head _))
      obtain ⟨js, others, spacedOthers⟩ := ih fun a member => fitting a (.tail _ member)
      exact ⟨j :: js, .cons shown others, .cons spaced spacedOthers⟩

/-- One element that is refused in place of another is a flaw of the list. -/
lemma Presents.refuses_list {α : Type} {f : Format α} {shows : α → Json → Prop} {fits : α → Prop}
    (presents : f.Presents shows fits) {as : List α} (fitting : ∀ a ∈ as, fits a)
    {js₁ js₂ : List Json} {good bad : Json} {flaw : Flaw}
    (isList : (Json.list (js₁ ++ good :: js₂)).IsList shows as)
    (refuses : Reads f.read bad.tokens (.error flaw)) :
    Reads f.list.read (Json.list (js₁ ++ bad :: js₂)).tokens (.error flaw) := by
  obtain ⟨js, same, all⟩ := isList
  cases same
  have front := List.forall₂_take_append as js₁ (good :: js₂) all
  have later : Elements f (bad :: js₂) (.error flaw) := .fail refuses
  have elements := elements_append presents.reads
    (fun a inside => fitting a (List.mem_of_mem_take inside)) front later
  exact elements.reads

end Format

/-! ## Members of records and fields of values -/

namespace Members

/-- The members of a record are those of the fields of its values: each is required, or means its
default if it is left out. -/
inductive Meets : {ρ : Type} → Members ρ → (ρ → List Field) → (ρ → Prop) → Prop where
  | none : Meets .none (fun _ => []) (fun _ => True)
  | required {α ρ : Type} {name : String} {f : Format α} {rest : Members ρ}
      {shows : α → Json → Prop} {fits : α → Prop} {fields : ρ → List Field} {others : ρ → Prop} :
    f.Presents shows fits →
    Meets rest fields others →
    Meets (.cons name f .refused rest)
      (fun r => ⟨name, shows r.1, False⟩ :: fields r.2) (fun r => fits r.1 ∧ others r.2)
  | defaulted {α ρ : Type} {name : String} {f : Format α} {default : α} {rest : Members ρ}
      {shows : α → Json → Prop} {fits : α → Prop} {fields : ρ → List Field} {others : ρ → Prop} :
    f.Presents shows fits →
    Meets rest fields others →
    Meets (.cons name f (.means default) rest)
      (fun r => ⟨name, shows r.1, r.1 = default⟩ :: fields r.2) (fun r => fits r.1 ∧ others r.2)

variable {ρ : Type} {m : Members ρ} {fields : ρ → List Field} {fits : ρ → Prop} {r : ρ}

lemma Meets.names (meets : m.Meets fields fits) (r : ρ) : (fields r).map (·.name) = m.names := by
  induction meets with
  | none => rfl
  | required _ _ ih | defaulted _ _ ih => exact congrArg _ (ih r.2)

/-- The member of a field reads what shows the field as what the record holds. If the field may be
left out, the record holds what stands for it. -/
lemma Meets.under (meets : m.Meets fields fits) (distinct : m.names.Nodup) (fitting : fits r)
    {field : Field} (member : field ∈ fields r) :
    m.Under field.name fun _ f absence get =>
      (∀ j, field.shows j → Reads f.read j.tokens (.ok (get r))) ∧
        (field.spare → absence.inObject? = some (get r)) := by
  induction meets with
  | none => cases member
  | required presents rest ih | defaulted presents rest ih =>
    obtain ⟨fresh, distinct⟩ := List.nodup_cons.1 distinct
    rw [Under]
    rcases List.mem_cons.1 member with rfl | later
    · rw [if_pos rfl]
      refine ⟨fun j => presents.reads _ j fitting.1, fun spare => ?_⟩
      first
        | exact spare.elim
        | exact congrArg some (Eq.symm spare)
    · have known : field.name ∈ _ := rest.names r.2 ▸ List.mem_map_of_mem later
      rw [if_neg (ne_of_mem_of_not_mem known fresh)]
      exact ih distinct fitting.2 later

lemma Meets.holds (meets : m.Meets fields fits) (distinct : m.names.Nodup) (fitting : fits r)
    {field : Field} (member : field ∈ fields r) {j : Json} (shown : field.shows j) :
    m.Holds r field.name j :=
  (meets.under distinct fitting member).imp fun _ _ _ _ both => both.1 j shown

lemma Meets.spares (meets : m.Meets fields fits) (distinct : m.names.Nodup) (fitting : fits r)
    {field : Field} (member : field ∈ fields r) (spare : field.spare) : m.Spares r field.name :=
  (meets.under distinct fitting member).imp fun _ _ _ _ both => both.2 spare

/-- What is written of a record keeps all its fields. -/
lemma Meets.writes (meets : m.Meets fields fits) (fitting : fits r) :
    ∃ es, Kept (fields r) es ∧ List.Forall₂ Spaced (Json.members es) (m.write r) := by
  induction meets with
  | none => exact ⟨[], .nil, .nil⟩
  | @required _ _ name f rest _ _ _ _ presents _ ih
  | @defaulted _ _ name f _ rest _ _ _ _ presents _ ih =>
    obtain ⟨a, r⟩ := r
    obtain ⟨l, written, spells⟩ := exists_literal name
    obtain ⟨j, shown, value⟩ := presents.writes a fitting.1
    obtain ⟨es, kept, others⟩ := ih fitting.2
    refine ⟨(l, j) :: es, .shown spells shown kept, .cons ?_ others⟩
    rw [← written]
    exact (spaced_token l.text).append value.next

/-- An object that shows the fields of a record is a layout of it. -/
lemma Meets.layout (meets : m.Meets fields fits) (distinct : m.names.Nodup) (fitting : fits r)
    {es : List Entry} (shows : Shows (fields r) es) : m.Layout r es := by
  obtain ⟨kept, others, perm, keeps, unknown⟩ := shows
  have names := meets.names r
  rw [names] at unknown
  have strange : ∀ e ∈ others, ∀ k ∈ m.names, ¬ e.1.Spells k := by
    intro e member k known spells
    obtain ⟨name, spells', isUnknown⟩ := unknown e member
    exact isUnknown (spells'.unique spells ▸ known)
  refine ⟨fun e member => ?_, ?_, fun k known missing => ?_⟩
  · rcases List.mem_append.1 (perm.mem_iff.1 member) with isKept | isOther
    · obtain ⟨field, inside, spells, shown⟩ := keeps.shows e isKept
      exact ⟨field.name, spells, .inr (meets.holds distinct fitting inside shown)⟩
    · obtain ⟨name, spells, isUnknown⟩ := unknown e isOther
      exact ⟨name, spells, .inl isUnknown⟩
  · refine (perm.pairwise_iff fun apart => apart.symm).2 (List.pairwise_append.2 ⟨?_, ?_, ?_⟩)
    · exact (keeps.apart (names ▸ distinct)).imp fun apart k _ => apart k
    · exact List.pairwise_of_forall_mem_list fun e member _ _ k known spells =>
        absurd spells (strange e member k known)
    · exact fun _ _ e' isOther k known _ => strange e' isOther k known
  · rw [← names] at known
    obtain ⟨field, inside, rfl⟩ := List.mem_map.1 known
    refine meets.spares distinct fitting inside (keeps.complete field inside fun e isKept => ?_)
    exact missing e (perm.mem_iff.2 (List.mem_append_left _ isKept))

/-- The members of a record are those of the fields of the values that consist of them. -/
structure Describes {ρ β : Type} (m : Members ρ) (parts : β → ρ) (fields : β → List Field)
    (fits : β → Prop := fun _ => True) : Prop where
  distinct : m.names.Nodup
  meets : ∃ fieldsOf fitting, m.Meets fieldsOf fitting ∧ (∀ b, fieldsOf (parts b) = fields b) ∧
    ∀ b, fits b → fitting (parts b)

section

variable {ρ β : Type} {m : Members ρ} {parts : β → ρ} {fields : β → List Field} {fits : β → Prop}
  {b : β}

lemma Describes.layout (describes : m.Describes parts fields fits) (fitting : fits b)
    {es : List Entry} (shows : Shows (fields b) es) : m.Layout (parts b) es := by
  obtain ⟨distinct, fieldsOf, into, meets, shape, fit⟩ := describes
  rw [← shape] at shows
  exact meets.layout distinct (fit b fitting) shows

lemma Describes.known (describes : m.Describes parts fields fits) {name : String}
    (known : Known fields name) : name ∈ m.names := by
  obtain ⟨-, fieldsOf, into, meets, shape, -⟩ := describes
  obtain ⟨b, field, member, rfl⟩ := known
  rw [← shape] at member
  exact meets.names (parts b) ▸ List.mem_map_of_mem member

lemma Describes.value (describes : m.Describes parts fields fits) {es : List Entry}
    (shows : Shows (fields b) es) {field : Field} (member : field ∈ fields b) {e : Entry}
    (inside : e ∈ es) (spells : e.1.Spells field.name) : field.shows e.2 := by
  obtain ⟨distinct, fieldsOf, into, meets, shape, -⟩ := describes
  rw [← shape] at shows member
  exact shows.value (meets.names (parts b) ▸ distinct) member inside spells

end

end Members

namespace Format

/-- A format reads a value from whatever shows its fields, and nothing from what is spoiled. If the
first of two members of one name is plain, it finds them to be of another kind. -/
structure Lenient {α : Type} (f : Format α) (fields : α → List Field) (required : List String)
    (isPlain : String → Json → Prop) : Prop where
  presents : f.Presents fun a j => j.IsObject (fields a)
  refuses : ∀ a good bad, Shows (fields a) good → Spoiled fields required good bad →
    Reads f.read (Json.object bad).tokens (.error .mismatched)
  fails : ∀ a good bad name j, Shows (fields a) good → Fronted fields good bad name j →
    ∃ flaw, Fair (isPlain name j) (.error flaw : Except Flaw Unit) ∧
      Reads f.read (Json.object bad).tokens (.error flaw)

section

variable {ρ β : Type} {m : Members ρ} {make : ρ → β} {parts : β → ρ} {fields : β → List Field}

/-- The format of a type whose values consist of the members of a record. -/
lemma presents_record {fits : β → Prop} (describes : m.Describes parts fields fits)
    (same : ∀ b, make (parts b) = b) :
    ((record m).via make parts).Presents (fun b j => j.IsObject (fields b)) fits where
  reads b j fitting isObject := by
    obtain ⟨es, rfl, shows⟩ := isObject
    have read := (describes.layout fitting shows).reads describes.distinct
    have value : Reads ((record m).via make parts).read (Json.object es).tokens
        (.ok (make (parts b))) := read.via
    rwa [same] at value
  writes b fitting := by
    obtain ⟨-, fieldsOf, into, meets, shape, fit⟩ := describes
    obtain ⟨es, kept, spaced⟩ := meets.writes (fit b fitting)
    rw [shape] at kept
    refine ⟨.object es, ⟨es, rfl, es, [], by simp, kept, nofun⟩, ?_⟩
    exact ((spaced_separated spaced).append (spaced_token _)).next

/-- The reader of a record gets as far as the first of two members of one name, at least. -/
lemma fails_record {isPlain : String → Json → Prop} (describes : m.Describes parts fields)
    (judges : m.Judges isPlain) {b : β} {good bad : List Entry} {name : String} {j : Json}
    (shows : Shows (fields b) good) (fronted : Fronted fields good bad name j) :
    ∃ flaw, Fair (isPlain name j) (.error flaw : Except Flaw Unit) ∧
      Reads (record m).read (Json.object bad).tokens (.error flaw) := by
  have layout := describes.layout trivial shows
  cases fronted with
  | @ahead es₁ es₂ e _ isKnown spells behind =>
    obtain ⟨e', member, spells'⟩ := behind
    obtain ⟨between, es₃, rfl⟩ := List.append_of_mem member
    have known := describes.known isKnown
    have genuine : (e' :: (es₁ ++ between ++ es₃)).Pairwise m.Apart := by
      refine (List.pairwise_middle fun apart => apart.symm).1 ?_
      simpa using layout.apart
    obtain ⟨alone, apart⟩ := List.pairwise_cons.1 genuine
    refine judges.reads_twice (fun x member => layout.fine x ?_) ?_ known (fun x member => ?_)
      spells spells'
    · rcases List.mem_append.1 member with inFront | inBetween
      · exact List.mem_append_left _ inFront
      · exact List.mem_append_right _ (List.mem_append_left _ inBetween)
    · exact apart.sublist (List.sublist_append_left _ _)
    · exact alone x (List.mem_append_left _ member) name known spells'
  | @both es₁ es₂ es₃ e e' _ isKnown spells spells' others =>
    have front : (es₁ ++ es₂).Sublist (es₁ ++ (es₂ ++ es₃)) :=
      (List.Sublist.refl es₁).append (List.sublist_append_left es₂ es₃)
    exact judges.reads_twice (fun x member => layout.fine x (front.subset member))
      (layout.apart.sublist front) (describes.known isKnown)
      (fun x member => others x (front.subset member)) spells spells'

lemma lenient_record {required : List String} {isPlain : String → Json → Prop}
    (describes : m.Describes parts fields) (same : ∀ b, make (parts b) = b)
    (requires : ∀ name ∈ required, m.Requires name) (judges : m.Judges isPlain) :
    ((record m).via make parts).Lenient fields required isPlain where
  presents := presents_record describes same
  refuses b good bad shows spoiled := by
    have layout := describes.layout trivial shows
    refine Reads.via_flaw ?_
    cases spoiled with
    | lacking isRequired spells => exact layout.reads_lacking spells (requires _ isRequired)
    | again known spells before =>
      obtain ⟨e', member, spells'⟩ := before
      exact layout.reads_again (describes.known known) member spells' spells
  fails b good bad name j shows fronted := by
    obtain ⟨flaw, fair, reads⟩ := fails_record describes judges shows fronted
    exact ⟨flaw, fair, reads.via_flaw⟩

end

/-- Nothing but white space is left behind a value. -/
lemma decode_of_reads {α : Type} {f : Format α} {j : Json} {result : Except Flaw α}
    (reads : Reads f.read j.tokens result) {text : Bytes} (isText : j.IsText text) :
    f.decode text = result := by
  obtain ⟨front, gap, rfl, spaced, blank⟩ := isText
  have follows : Follows gap := by
    cases gap with
    | nil => exact follows_nil
    | cons b gap => exact fun b' starts => .inl (blank b' (List.mem_of_mem_head? starts))
  have ends : skipBlank gap = [] := List.dropWhile_eq_nil_iff.2 blank
  rw [decode, reads front spaced gap follows]
  cases result with
  | error flaw => rfl
  | ok a => simp [Except.map, bind, Except.bind, ends]

end Format

end Wire

/-! ## The fields of the payloads -/

/-- The last four may be missing from the entries of older directories. -/
def LobbySession.fields (s : LobbySession) : List Field :=
  [⟨"server_id", Json.IsString s.serverId, False⟩,
    ⟨"name", Json.IsString s.name, False⟩,
    ⟨"port", Json.IsNatural s.port.toNat, False⟩,
    ⟨"game", Json.IsString s.game, False⟩,
    ⟨"player_count", Json.IsNatural s.playerCount.toNat, False⟩,
    ⟨"in_game", Json.IsFlag s.inGame, False⟩,
    ⟨"version", Json.IsString s.version, s.version = ""⟩,
    ⟨"region", Json.IsString s.region, s.region = ""⟩,
    ⟨"method", Json.IsString s.method, s.method = ""⟩,
    ⟨"password", Json.IsFlag s.hasPassword, s.hasPassword = false⟩]

/-- A listing without sessions need not show them. -/
def LobbyListing.fields (l : LobbyListing) : List Field :=
  [⟨"status", Json.IsString l.status, False⟩,
    ⟨"sessions", Json.IsList (fun (s : LobbySession) j => j.IsObject s.fields) l.sessions,
      l.sessions = []⟩]

/-- All of them have defaults. -/
def Settings.fields (s : Settings) : List Field :=
  [⟨"username", Json.IsString s.username, s.username = "Player"⟩,
    ⟨"server_address", Json.IsString s.serverAddress, s.serverAddress = "127.0.0.1"⟩,
    ⟨"server_port", Json.IsNatural s.serverPort.toNat, s.serverPort = 2626⟩,
    ⟨"room_visibility", Json.IsString s.roomVisibility.name, s.roomVisibility = .everyone⟩,
    ⟨"connection_type", Json.IsString s.connectionType.name, s.connectionType = .direct⟩,
    ⟨"server_name", Json.IsString s.serverName, s.serverName = ""⟩]

/-- The fields of a session that no entry may lack. -/
def LobbySession.required : List String :=
  ["server_id", "name", "port", "game", "player_count", "in_game"]

/-- Strings, flags and numbers are wanted. -/
def LobbySession.IsPlain (_name : String) (j : Json) : Prop := j.IsPlain

/-- In the list of sessions, what goes by the name of a member of a session is to be plain. -/
def LobbyListing.IsPlain (name : String) (j : Json) : Prop :=
  if name = "sessions" then
    Json.IsPlainList (Json.IsPlainRecord LobbySession.members.names LobbySession.IsPlain) j
  else j.IsPlain

/-- Two of the members are choices. -/
def Settings.IsPlain (name : String) (j : Json) : Prop :=
  if name = "room_visibility" ∨ name = "connection_type" then j.IsPlainChoice else j.IsPlain

section

open Wire.Format

lemma LobbySession.describes : LobbySession.members.Describes
    (fun s => (s.serverId, s.name, s.port, s.game, s.playerCount, s.inGame, s.version, s.region,
      s.method, s.hasPassword, ())) LobbySession.fields where
  distinct := by decide
  meets := ⟨_, _, .required presents_text <| .required presents_text <|
    .required presents_word16 <| .required presents_text <| .required presents_word32 <|
    .required presents_flag <| .defaulted presents_text <| .defaulted presents_text <|
    .defaulted presents_text <| .defaulted presents_flag .none, fun _ => rfl, by simp⟩

lemma LobbySession.judges : LobbySession.members.Judges LobbySession.IsPlain :=
  ⟨judges_text, judges_text, (judges_natural _).via, judges_text, (judges_natural _).via,
    judges_flag, judges_text, judges_text, judges_text, judges_flag, trivial⟩

lemma LobbySession.lenient_format :
    LobbySession.format.Lenient LobbySession.fields LobbySession.required LobbySession.IsPlain :=
  lenient_record LobbySession.describes (fun _ => rfl)
    (by simp [LobbySession.required, LobbySession.members, Members.Requires, Members.Under,
      Absence.inObject?])
    LobbySession.judges

lemma LobbyListing.describes : LobbyListing.members.Describes
    (fun l => (l.status, l.sessions, ())) LobbyListing.fields where
  distinct := by decide
  meets := ⟨_, _, .required presents_text <|
    .defaulted LobbySession.lenient_format.presents.list .none, fun _ => rfl, by simp⟩

lemma LobbyListing.judges : LobbyListing.members.Judges LobbyListing.IsPlain :=
  ⟨judges_text, (judges_record LobbySession.judges).via.list, trivial⟩

lemma LobbyListing.lenient_format :
    LobbyListing.format.Lenient LobbyListing.fields ["status"] LobbyListing.IsPlain :=
  lenient_record LobbyListing.describes (fun _ => rfl)
    (by simp [LobbyListing.members, Members.Requires, Members.Under, Absence.inObject?])
    LobbyListing.judges

lemma Settings.describes : Settings.members.Describes
    (fun s => (s.username, s.serverAddress, s.serverPort, s.roomVisibility, s.connectionType,
      s.serverName, ())) Settings.fields where
  distinct := by decide
  meets := ⟨_, _, .defaulted presents_text <| .defaulted presents_text <|
    .defaulted presents_word16 <|
    .defaulted (presents_choice fun v => by cases v <;> decide) <|
    .defaulted (presents_choice fun l => by cases l <;> decide) <|
    .defaulted presents_text .none, fun _ => rfl, by simp⟩

lemma Settings.judges : Settings.members.Judges Settings.IsPlain :=
  ⟨judges_text, judges_text, (judges_natural _).via, judges_choice, judges_choice, judges_text,
    trivial⟩

lemma Settings.lenient_format : Settings.format.Lenient Settings.fields [] Settings.IsPlain :=
  lenient_record Settings.describes (fun _ => rfl) nofun Settings.judges

end

/-! ## Payloads -/

namespace Payload

/-- A payload is read from every text of every object that shows it, among which is what is written
of it. A text of a spoiled object is of another kind. So is a text of an object with two members of
one name if the first of them is plain; if it is not, the text may be malformed instead. -/
structure Lenient (α : Type) [Payload α] (fields : α → List Field) (required : List String)
    (isPlain : String → Json → Prop) : Prop where
  decodes : ∀ (a : α) (es : List Entry) (text : Bytes), Shows (fields a) es →
    (Json.object es).IsText text → decode text = .ok a
  encodes : ∀ a : α, ∃ es, Shows (fields a) es ∧ (Json.object es).IsText (encode a)
  refuses : ∀ (a : α) (good bad : List Entry) (text : Bytes), Shows (fields a) good →
    Spoiled fields required good bad → (Json.object bad).IsText text →
      (decode text : Except ProtocolError α) = .error (.decode .mismatched)
  fails : ∀ (a : α) (good bad : List Entry) (name : String) (j : Json) (text : Bytes),
    Shows (fields a) good → Fronted fields good bad name j → (Json.object bad).IsText text →
      (decode text : Except ProtocolError α) = .error (.decode .mismatched) ∨
        ¬ isPlain name j ∧ (decode text : Except ProtocolError α) = .error (.decode .malformed)

section

variable {α : Type} [Payload α]

lemma decode_of_reads {j : Json} {result : Except Flaw α}
    (reads : Reads (format : Format α).read j.tokens result) {text : Bytes}
    (isText : j.IsText text) : decode text = result.mapError .decode := by
  rw [decode, Format.decode_of_reads reads isText]

/-- A flaw is of one of two classes, and of the first if what was found is plain. -/
lemma decode_of_fails {j : Json} {p : Prop}
    (fails : ∃ flaw, Fair p (.error flaw : Except Flaw Unit) ∧
      Reads (format : Format α).read j.tokens (.error flaw)) {text : Bytes}
    (isText : j.IsText text) :
    (decode text : Except ProtocolError α) = .error (.decode .mismatched) ∨
      ¬ p ∧ (decode text : Except ProtocolError α) = .error (.decode .malformed) := by
  obtain ⟨flaw, fair, reads⟩ := fails
  have decoded := decode_of_reads reads isText
  cases flaw with
  | truncated => exact absurd rfl fair.whole
  | malformed => exact .inr ⟨fun plain => fair.sound plain rfl, decoded⟩
  | mismatched => exact .inl decoded

lemma lenient_of_format {fields : α → List Field} {required : List String}
    {isPlain : String → Json → Prop}
    (lenient : (format : Format α).Lenient fields required isPlain) :
    Lenient α fields required isPlain where
  decodes a es text shows isText :=
    decode_of_reads (lenient.presents.reads a _ trivial ⟨es, rfl, shows⟩) isText
  encodes a := by
    obtain ⟨j, ⟨es, rfl, shows⟩, spaced⟩ := lenient.presents.writes a trivial
    exact ⟨es, shows, encode a, [], (List.append_nil _).symm, spaced, nofun⟩
  refuses a good bad text shows spoiled isText :=
    decode_of_reads (lenient.refuses a good bad shows spoiled) isText
  fails a good bad name j text shows fronted isText :=
    decode_of_fails (lenient.fails a good bad name j shows fronted) isText

end

/-- A session in a listing, and what becomes of the listing if another object stands in its place
that is refused. -/
lemma reads_other_session {l : LobbyListing} {key : Literal} {es₁ es₂ : List Entry}
    {js₁ js₂ : List Json} {good : List Entry}
    (shows : Shows l.fields (es₁ ++ (key, .list (js₁ ++ .object good :: js₂)) :: es₂))
    (spells : key.Spells "sessions") :
    (∃ s : LobbySession, Shows s.fields good) ∧ ∀ bad flaw,
      Reads LobbySession.format.read (Json.object bad).tokens (.error flaw) →
      Reads LobbyListing.format.read
        (Json.object (es₁ ++ (key, .list (js₁ ++ .object bad :: js₂)) :: es₂)).tokens
        (.error flaw) := by
  have sessions := LobbyListing.describes.value shows (.tail _ (.head _))
    (List.mem_append_right es₁ (.head es₂)) spells
  refine ⟨?_, fun bad flaw refused => ?_⟩
  · obtain ⟨s, es, same, showsGood⟩ := sessions.element
    cases same
    exact ⟨s, showsGood⟩
  · have presents := LobbySession.lenient_format.presents
    have refuses : LobbyListing.members.Refuses "sessions"
        (.list (js₁ ++ .object bad :: js₂)) flaw := by
      simpa [LobbyListing.members, Members.Refuses, Members.Under] using
        presents.refuses_list (fun _ _ => trivial) sessions refused
    exact ((LobbyListing.describes.layout trivial shows).reads_refused spells refuses).via_flaw

/-- In whatever layout a listing, a session or the settings come, they are read. If a required
member is missing or a known one comes twice, of them or of a session in a listing, then they are
not. -/
theorem payloads_lenient :
    Lenient LobbyListing LobbyListing.fields ["status"] LobbyListing.IsPlain ∧
      Lenient LobbySession LobbySession.fields LobbySession.required LobbySession.IsPlain ∧
      Lenient Settings Settings.fields [] Settings.IsPlain ∧
      ∀ (l : LobbyListing) (key : Literal) (es₁ es₂ : List Entry) (js₁ js₂ : List Json)
        (good bad : List Entry) (text : Bytes),
        Shows l.fields (es₁ ++ (key, .list (js₁ ++ .object good :: js₂)) :: es₂) →
        key.Spells "sessions" →
        (Json.object (es₁ ++ (key, .list (js₁ ++ .object bad :: js₂)) :: es₂)).IsText text →
        (Spoiled LobbySession.fields LobbySession.required good bad →
          (decode text : Except ProtocolError LobbyListing) = .error (.decode .mismatched)) ∧
        ∀ (name : String) (j : Json), Fronted LobbySession.fields good bad name j →
          (decode text : Except ProtocolError LobbyListing) = .error (.decode .mismatched) ∨
            ¬ LobbySession.IsPlain name j ∧
              (decode text : Except ProtocolError LobbyListing) = .error (.decode .malformed) := by
  refine ⟨?_, ?_, ?_, ?_⟩
  · exact lenient_of_format LobbyListing.lenient_format
  · exact lenient_of_format LobbySession.lenient_format
  · exact lenient_of_format Settings.lenient_format
  · intro l key es₁ es₂ js₁ js₂ good bad text shows spells isText
    obtain ⟨⟨s, showsGood⟩, reads⟩ := reads_other_session shows spells
    constructor
    · intro spoiled
      have refused := LobbySession.lenient_format.refuses s good bad showsGood spoiled
      exact decode_of_reads (reads bad _ refused) isText
    · intro name j fronted
      obtain ⟨flaw, fair, refused⟩ :=
        LobbySession.lenient_format.fails s good bad name j showsGood fronted
      exact decode_of_fails ⟨flaw, fair, reads bad flaw refused⟩ isText

/-- The number minus a half times a hundred. -/
def minusFifty : Number where
  negative := true
  whole := [0]
  tidy := ⟨⟨by decide, by decide⟩, by decide⟩
  fraction := some [5]
  isRow := by
    rintro ds ⟨⟩
    exact ⟨by decide, by decide⟩
  exponent := some ⟨true, some false, [2], by decide, by decide⟩

/-- Among the members is one of another name; or the status is missing, or comes twice, the one that
counts before or behind the other; or a session has no port. -/
theorem strange_lenient :
    decode (utf8 "\x7b \"mood\" :\n-0.5E+2, \"status\":\"\"\x7d\n") =
        .ok (⟨"", []⟩ : LobbyListing) ∧
      (decode (utf8 "\x7b\"mood\":-0.5E+2\x7d") : Except ProtocolError LobbyListing) =
        .error (.decode .mismatched) ∧
      (decode (utf8 "\x7b\"status\":\"\",\"status\":-0.5E+2\x7d") :
        Except ProtocolError LobbyListing) = .error (.decode .mismatched) ∧
      (decode (utf8 "\x7b\"status\":-0.5E+2,\"status\":\"\"\x7d") :
        Except ProtocolError LobbyListing) = .error (.decode .mismatched) ∧
      (decode (utf8 ("\x7b\"status\":\"\",\"sessions\":[\x7b\"server_id\":\"\",\"name\":\"\"," ++
        "\"game\":\"\",\"player_count\":2,\"in_game\":false\x7d]\x7d")) :
        Except ProtocolError LobbyListing) = .error (.decode .mismatched) := by
  obtain ⟨mood, moodText, moodSpells⟩ := exists_literal "mood"
  obtain ⟨status, statusText, statusSpells⟩ := exists_literal "status"
  obtain ⟨none, noneText, noneSpells⟩ := exists_literal ""
  obtain ⟨lenient, -, -, nested⟩ := payloads_lenient
  have space : ∀ b ∈ [(0x20 : UInt8)], isBlank b := List.forall_mem_singleton.2 rfl
  have newline : ∀ b ∈ [(0x0A : UInt8)], isBlank b := List.forall_mem_singleton.2 rfl
  have shows (others : List Entry) (strange : ∀ e ∈ others, e.1 = mood) :
      Shows (LobbyListing.fields ⟨"", []⟩) (others ++ [(status, .text none)]) := by
    refine ⟨[(status, .text none)], others, List.perm_append_comm, ?_, fun e member => ?_⟩
    · exact .shown statusSpells ⟨none, rfl, noneSpells⟩ (.left rfl .nil)
    · exact ⟨"mood", strange e member ▸ moodSpells, by decide⟩
  have known : Known LobbyListing.fields "status" := ⟨⟨"", []⟩, _, .head _, rfl⟩
  refine ⟨?_, ?_, ?_, ?_, ?_⟩
  · have spaced :
        Spaced (Json.object [(mood, .number minusFifty), (status, .text none)]).tokens _ :=
      .next <| .cons _ space <| .cons _ space <| .cons _ newline <| .next <| .cons _ space <|
      spaced_flatten _
    refine lenient.decodes _ _ _ (shows [(mood, .number minusFifty)] (by simp))
      ⟨_, _, ?_, spaced, newline⟩
    simp only [Json.tokens, moodText, statusText, noneText]
    decide +kernel
  · refine lenient.refuses _ _ _ _ (shows [(mood, .number minusFifty)] (by simp))
      (.lacking (.head _) statusSpells) ⟨_, [], ?_, spaced_flatten _, List.forall_mem_nil _⟩
    simp only [List.append_nil, Json.tokens, Json.members, moodText]
    decide +kernel
  · have again : Spoiled LobbyListing.fields ["status"] ([(status, .text none)] ++ [])
        ([(status, .text none)] ++ (status, .number minusFifty) :: []) :=
      .again known statusSpells ⟨_, .head _, statusSpells⟩
    refine lenient.refuses _ _ _ _ (shows [] (List.forall_mem_nil _)) again
      ⟨_, [], ?_, spaced_flatten _, List.forall_mem_nil _⟩
    simp only [List.cons_append, List.nil_append, Json.tokens, Json.members, statusText, noneText]
    decide +kernel
  · have fronted : Fronted LobbyListing.fields ([] ++ [(status, .text none)])
        ([] ++ (status, .number minusFifty) :: [(status, .text none)]) "status"
        (.number minusFifty) :=
      .ahead (e := (status, .number minusFifty)) known statusSpells ⟨_, .head _, statusSpells⟩
    have notHuge : minusFifty.numeral.isHuge = false := by decide
    have plain : LobbyListing.IsPlain "status" (.number minusFifty) := by
      simp [LobbyListing.IsPlain, Json.IsPlain, notHuge]
    refine (lenient.fails _ _ _ _ _ _ (shows [] (List.forall_mem_nil _)) fronted
      ⟨_, [], ?_, spaced_flatten _, List.forall_mem_nil _⟩).resolve_right fun odd => odd.1 plain
    simp only [List.nil_append, Json.tokens, Json.members, statusText, noneText]
    decide +kernel
  · obtain ⟨sessions, sessionsText, sessionsSpells⟩ := exists_literal "sessions"
    obtain ⟨serverId, serverIdText, serverIdSpells⟩ := exists_literal "server_id"
    obtain ⟨name, nameText, nameSpells⟩ := exists_literal "name"
    obtain ⟨port, -, portSpells⟩ := exists_literal "port"
    obtain ⟨game, gameText, gameSpells⟩ := exists_literal "game"
    obtain ⟨count, countText, countSpells⟩ := exists_literal "player_count"
    obtain ⟨inGame, inGameText, inGameSpells⟩ := exists_literal "in_game"
    let s : LobbySession := ⟨"", "", 1, "", 2, false, "", "", "", false⟩
    have session : Shows s.fields
        ([(serverId, .text none), (name, .text none)] ++ (port, .number (.natural 1)) ::
          [(game, .text none), (count, .number (.natural 2)), (inGame, .flag false)]) := by
      refine ⟨_, [], .of_eq (List.append_nil _).symm, ?_, List.forall_mem_nil _⟩
      exact .shown serverIdSpells ⟨none, rfl, noneSpells⟩ <|
        .shown nameSpells ⟨none, rfl, noneSpells⟩ <| .shown portSpells rfl <|
        .shown gameSpells ⟨none, rfl, noneSpells⟩ <| .shown countSpells rfl <|
        .shown inGameSpells rfl <| .left rfl <| .left rfl <| .left rfl <| .left rfl .nil
    have listing (es : List Entry) (session : Shows s.fields es) :
        Shows (LobbyListing.fields ⟨"", [s]⟩)
          ([(status, .text none)] ++ (sessions, .list ([] ++ .object es :: [])) :: []) := by
      refine ⟨_, [], .of_eq (List.append_nil _).symm, ?_, List.forall_mem_nil _⟩
      exact .shown statusSpells ⟨none, rfl, noneSpells⟩ <|
        .shown sessionsSpells ⟨_, rfl, .cons ⟨es, rfl, session⟩ .nil⟩ .nil
    refine (nested _ sessions _ _ _ _ _ _ _ (listing _ session) sessionsSpells
      ⟨_, [], ?_, spaced_flatten _, List.forall_mem_nil _⟩).1 (.lacking (by decide) portSpells)
    simp only [List.cons_append, List.nil_append, Json.tokens, Json.members, Json.elements,
      statusText, noneText, sessionsText, serverIdText, nameText, gameText, countText, inGameText]
    decide +kernel

/-- A listing decodes. Behind a status that is a number beyond the largest double it counts as
malformed, and not as a listing with a member too many; and so do settings behind a visibility that
is not given by a name. -/
theorem odd_first_malformed :
    decode (utf8 "\x7b\"status\":\"OK\"\x7d") = .ok (⟨"OK", []⟩ : LobbyListing) ∧
      (decode (utf8 "\x7b\"status\":1e999,\"status\":\"OK\"\x7d") :
        Except ProtocolError LobbyListing) = .error (.decode .malformed) ∧
      decode (utf8 "\x7b\"room_visibility\":\"public\"\x7d") = .ok ({} : Settings) ∧
      (decode (utf8 "\x7b\"room_visibility\":2,\"room_visibility\":\"public\"\x7d") :
        Except ProtocolError Settings) = .error (.decode .malformed) := by
  decide +kernel

end Payload

end OnlinePlay
