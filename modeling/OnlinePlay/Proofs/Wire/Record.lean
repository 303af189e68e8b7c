import OnlinePlay.Proofs.Wire.Format
import OnlinePlay.Wire.Record

/-!
# Sound records

A record is written as an object of its members. `Members.Fills` says that the reader of a member
takes the text of each of several members, one after the other, and which slots are filled in the
end; what an object makes of a record is then read off the slots. The members that a record writes
fill all slots, each with its own value (`fills_entries`), as no two of them have the same name.

So a record of sound formats is sound, and its text shows its end by the closing brace.
-/

namespace OnlinePlay.Wire.Members

/-- The names of the members. -/
def names {ρ : Type} : Members ρ → List String
  | .none => []
  | .cons name _ _ rest => name :: rest.names

/-- The members of a record with their written values. -/
def entries {ρ : Type} : Members ρ → ρ → List (String × Bytes)
  | .none, _ => []
  | .cons name f _ rest, (a, r) => (name, f.write a) :: rest.entries r

/-- The slots of a record whose members were all found. -/
def filled {ρ : Type} : (m : Members ρ) → ρ → m.Slots
  | .none, _ => ()
  | .cons _ _ _ rest, (a, r) => (some a, rest.filled r)

/-- The members of a record have sound formats, and what stands for a missing one fits it. -/
inductive Sound : {ρ : Type} → Members ρ → (ρ → Prop) → Prop where
  | none : Sound .none fun _ => True
  | cons {α ρ : Type} {name : String} {f : Format α} {absence : Absence α} {rest : Members ρ}
      {fits : α → Prop} {others : ρ → Prop} :
    f.Sound fits →
    (∀ a, absence.inObject? = some a → fits a) →
    Sound rest others →
    Sound (.cons name f absence rest) fun r => fits r.1 ∧ others r.2

/-- The text of a member. -/
def entry : String × Bytes → Bytes
  | (name, value) => writeText name ++ colon :: value

lemma write_eq {ρ : Type} (m : Members ρ) (r : ρ) : m.write r = (m.entries r).map entry := by
  induction m with
  | none => rfl
  | cons name f absence rest ih =>
    obtain ⟨a, r⟩ := r
    rw [write, entries, List.map_cons, ih]
    rfl

lemma names_entries {ρ : Type} (m : Members ρ) (r : ρ) : (m.entries r).map (·.1) = m.names := by
  induction m with
  | none => rfl
  | cons name f absence rest ih =>
    obtain ⟨a, r⟩ := r
    rw [entries, List.map_cons, ih, names]

lemma close_filled {ρ : Type} (m : Members ρ) (r : ρ) : m.close (m.filled r) = .ok r := by
  induction m with
  | none => rfl
  | cons name f absence rest ih =>
    obtain ⟨a, r⟩ := r
    simp [close, filled, ih, bind, Except.bind]

/-! ## Filling the slots -/

/-- The texts of several members fill slots, one after the other. -/
inductive Fills {ρ : Type} (m : Members ρ) : m.Slots → List (String × Bytes) → m.Slots → Prop where
  | nil (slots : m.Slots) : Fills m slots [] slots
  | cons {before between after : m.Slots} {name : String} {value : Bytes}
      {others : List (String × Bytes)} :
    Takes (m.readMember name before) (colon :: value) between →
    Fills m between others after →
    Fills m before ((name, value) :: others) after

section

variable {α ρ : Type} {name : String} {f : Format α} {absence : Absence α} {rest : Members ρ}

/-- A member fills its own slot. -/
lemma takes_own {text : Bytes} {a : α} (takes : Takes f.read text a) (others : rest.Slots) :
    Takes ((Members.cons name f absence rest).readMember name (Option.none, others))
      (colon :: text) (some a, others) where
  whole more follows := by
    have read := takes.whole more follows
    simp [readMember, readColon_cons, read, bind, Except.bind]
  cut front cut := by
    rcases cutOf_cons_iff.1 cut with rfl | ⟨left, rfl, inside⟩
    · left
      simp [readMember, readColon, skipBlank_nil, bind, Except.bind]
    · rcases takes.cut left inside with short | ⟨b, early⟩
      · left
        simp [readMember, readColon_cons, short, bind, Except.bind]
      · right
        refine ⟨(some b, others), ?_⟩
        simp [readMember, readColon_cons, early, bind, Except.bind]

/-- A member of another name goes to one of the other slots. -/
lemma takes_other {key : String} {text : Bytes} {before after : rest.Slots} (other : key ≠ name)
    (takes : Takes (rest.readMember key before) text after) (slot : Option α) :
    Takes ((Members.cons name f absence rest).readMember key (slot, before)) text
      (slot, after) where
  whole more follows := by
    simp [readMember, other, takes.whole more follows, bind, Except.bind]
  cut front cut := by
    rcases takes.cut front cut with short | ⟨b, early⟩
    · left
      simp [readMember, other, short, bind, Except.bind]
    · right
      refine ⟨(slot, b), ?_⟩
      simp [readMember, other, early, bind, Except.bind]

lemma Fills.other {before after : rest.Slots} {members : List (String × Bytes)}
    (fills : Fills rest before members after) (fresh : name ∉ members.map (·.1))
    (slot : Option α) :
    Fills (.cons name f absence rest) (slot, before) members (slot, after) := by
  induction fills with
  | nil slots => exact .nil _
  | cons takes _ ih =>
    rw [List.map_cons, List.mem_cons, not_or] at fresh
    exact .cons (takes_other (Ne.symm fresh.1) takes slot) (ih fresh.2)

end

/-- What is written of a record fills all slots with its values. -/
lemma fills_entries {ρ : Type} {m : Members ρ} {fits : ρ → Prop} (sound : m.Sound fits)
    (distinct : m.names.Nodup) {r : ρ} (fitting : fits r) :
    Fills m m.unfilled (m.entries r) (m.filled r) := by
  induction sound with
  | none => exact .nil _
  | @cons _ _ name f absence rest _ _ format _ _ ih =>
    obtain ⟨a, r⟩ := r
    obtain ⟨fresh, distinct⟩ := List.nodup_cons.1 distinct
    have later := ih distinct fitting.2
    rw [← rest.names_entries r] at fresh
    exact .cons (takes_own (format.takes a fitting.1) rest.unfilled) (later.other fresh (some a))

/-! ## Reading an object -/

/-- Takes one member, with its name. -/
def readEntry {ρ : Type} (m : Members ρ) (slots : m.Slots) : Reader m.Slots := fun input =>
  match skipBlank input with
  | [] => .error .truncated
  | b :: rest =>
    if b ≠ quote then .error .malformed else do
    let (key, rest) ← readText rest
    m.readMember key slots rest

variable {ρ : Type} {m : Members ρ}

lemma readMembers_eq (m : Members ρ) (fuel : Nat) (slots : m.Slots) (input : Bytes) :
    m.readMembers (fuel + 1) slots input =
      (m.readEntry slots input).bind fun (slots, rest) =>
        match skipBlank rest with
        | [] => .error .truncated
        | b :: rest =>
          if b = closeObject then (m.close slots).bind fun r => .ok (r, rest)
          else if b = comma then m.readMembers fuel slots rest
          else .error .malformed := by
  rw [readMembers, readEntry]
  cases skipBlank input with
  | nil => rfl
  | cons b rest =>
    by_cases isQuote : b = quote
    · simp only [isQuote, ne_eq, not_true_eq_false, if_false, bind, Except.bind]
      cases readText rest <;> rfl
    · simp only [isQuote, ne_eq, not_false_eq_true, if_true]
      rfl

/-- The text of a member is taken as its name and its value say. -/
lemma takes_entry {before after : m.Slots} {name : String} {value : Bytes}
    (takes : Takes (m.readMember name before) (colon :: value) after) :
    Takes (m.readEntry before) (entry (name, value)) after := by
  have solid : isBlank quote = false := rfl
  have inner := delimits_text name
  refine ⟨fun rest follows => ?_, fun front cut => ?_⟩
  · have key := inner.whole (colon :: value ++ rest)
    have whole := takes.whole rest follows
    rw [entry, writeText, List.cons_append, List.cons_append, List.append_assoc]
    simp only [readEntry, skipBlank_cons _ solid, key, bind, Except.bind]
    simpa using whole
  · rw [entry, writeText, List.cons_append, cutOf_cons_iff] at cut
    rcases cut with rfl | ⟨left, rfl, inside⟩
    · exact .inl rfl
    · simp only [readEntry, skipBlank_cons _ solid, bind, Except.bind]
      rcases cutOf_append_iff.1 inside with inKey | ⟨more, rfl, later⟩
      · left
        simp [inner.cut left inKey]
      · rw [inner.whole more]
        simpa using takes.cut more later

/-- The end of an object behind a member and white space. -/
lemma readMembers_end {before after : m.Slots} {input rest : Bytes} (fuel : Nat) (gap : Bytes)
    (blank : ∀ b ∈ gap, isBlank b)
    (first : m.readEntry before input = .ok (after, gap ++ closeObject :: rest)) :
    m.readMembers (fuel + 1) before input = (m.close after).map (·, rest) := by
  have solid : isBlank closeObject = false := rfl
  simp only [readMembers_eq, first, Except.bind, skipBlank_mark blank solid, if_true]
  rfl

/-- A further member. -/
lemma readMembers_comma {before between : m.Slots} {input rest : Bytes} (fuel : Nat) (gap : Bytes)
    (blank : ∀ b ∈ gap, isBlank b)
    (first : m.readEntry before input = .ok (between, gap ++ comma :: rest)) :
    m.readMembers (fuel + 1) before input = m.readMembers fuel between rest := by
  have solid : isBlank comma = false := rfl
  have other : comma ≠ closeObject := by decide
  simp only [readMembers_eq, first, Except.bind, skipBlank_mark blank solid, other, if_false,
    if_true]

/-- Nothing behind a member. -/
lemma readMembers_short {before : m.Slots} {input : Bytes} (fuel : Nat)
    (short : m.readEntry before input = .error .truncated ∨
      ∃ between, m.readEntry before input = .ok (between, [])) :
    m.readMembers (fuel + 1) before input = .error .truncated := by
  rcases short with short | ⟨between, short⟩ <;>
    simp [readMembers_eq, short, Except.bind, skipBlank_nil]

/-- The members of an object are read one after the other, up to its end. -/
lemma readMembers_whole {before after : m.Slots} {first : String × Bytes}
    {others : List (String × Bytes)} {r : ρ} (fills : Fills m before (first :: others) after)
    (closes : m.close after = .ok r) (rest : Bytes) {fuel : Nat}
    (enough : (Format.separated ((first :: others).map entry) ++ closeObject :: rest).length <
      fuel) :
    m.readMembers fuel before
      (Format.separated ((first :: others).map entry) ++ closeObject :: rest) = .ok (r, rest) := by
  obtain ⟨fuel, rfl⟩ : ∃ n, fuel = n + 1 := ⟨fuel - 1, by omega⟩
  induction others generalizing before first fuel with
  | nil =>
    cases fills with
    | cons takes later =>
      cases later
      have read := (takes_entry takes).whole (closeObject :: rest)
        (follows_cons rest (.inr (.inr rfl)))
      exact (readMembers_end fuel [] (List.forall_mem_nil _) read).trans (by rw [closes]; rfl)
  | cons second others ih =>
    cases fills with
    | cons takes later =>
      have read := (takes_entry takes).whole
        (comma :: (Format.separated ((second :: others).map entry) ++ closeObject :: rest))
        (follows_cons _ (.inl rfl))
      rw [List.map_cons, List.map_cons, Format.separated_cons, List.append_assoc,
        List.cons_append, ← List.map_cons] at enough ⊢
      rw [readMembers_comma fuel [] (List.forall_mem_nil _) read]
      rw [List.length_append, List.length_cons] at enough
      obtain ⟨fuel, rfl⟩ : ∃ n, fuel = n + 1 := ⟨fuel - 1, by omega⟩
      exact ih later fuel (by omega)

/-- An object that is cut before its end is too short, whichever member the cut is in. -/
lemma readMembers_cut {before after : m.Slots} {first : String × Bytes}
    {others : List (String × Bytes)} (fills : Fills m before (first :: others) after)
    {input : Bytes}
    (cut : CutOf input (Format.separated ((first :: others).map entry) ++ [closeObject]))
    {fuel : Nat} (enough : input.length < fuel) :
    m.readMembers fuel before input = .error .truncated := by
  obtain ⟨fuel, rfl⟩ : ∃ n, fuel = n + 1 := ⟨fuel - 1, by omega⟩
  induction others generalizing before first input fuel with
  | nil =>
    cases fills with
    | cons takes later =>
      have takes := takes_entry takes
      rw [List.map_singleton, Format.separated, cutOf_append_iff] at cut
      apply readMembers_short
      rcases cut with inside | ⟨more, rfl, behind⟩
      · exact takes.cut input inside
      · rw [cutOf_singleton_iff.1 behind]
        exact .inr ⟨_, takes.whole [] follows_nil⟩
  | cons second others ih =>
    cases fills with
    | cons takes later =>
      have takes := takes_entry takes
      rw [List.map_cons, List.map_cons, Format.separated_cons, List.append_assoc,
        List.cons_append, ← List.map_cons, cutOf_append_iff] at cut
      rcases cut with inside | ⟨more, rfl, behind⟩
      · exact readMembers_short fuel (takes.cut input inside)
      rcases cutOf_cons_iff.1 behind with rfl | ⟨left, rfl, among⟩
      · exact readMembers_short fuel (.inr ⟨_, takes.whole [] follows_nil⟩)
      · have read := takes.whole (comma :: left) (follows_cons _ (.inl rfl))
        simp only [List.length_append, List.length_cons] at enough
        obtain ⟨fuel, rfl⟩ : ∃ n, fuel = n + 1 := ⟨fuel - 1, by omega⟩
        rw [readMembers_comma (fuel + 1) [] (List.forall_mem_nil _) read]
        exact ih later among fuel (by omega)

/-- An object whose members fill the slots shows its end by its closing brace. -/
lemma delimits_object {members : List (String × Bytes)} {after : m.Slots} {r : ρ}
    (fills : Fills m m.unfilled members after) (closes : m.close after = .ok r) :
    Delimits m.readObject (Format.separated (members.map entry) ++ [closeObject]) r := by
  cases members with
  | nil =>
    cases fills
    refine ⟨fun rest => ?_, fun front cut => ?_⟩
    · have solid : isBlank closeObject = false := rfl
      have text : Format.separated ([].map entry) ++ [closeObject] ++ rest = closeObject :: rest :=
        rfl
      rw [text]
      simp [readObject, skipBlank_cons _ solid, closes, bind, Except.bind]
    · rw [show front = [] from cutOf_singleton_iff.1 cut]
      rfl
  | cons first others =>
    have solid : isBlank quote = false := rfl
    have goesOn : quote ≠ closeObject := by decide
    have start : entry first = quote :: _ := rfl
    refine ⟨fun rest => ?_, fun front cut => ?_⟩
    · have whole := readMembers_whole fills closes rest (Nat.lt_succ_self _)
      obtain ⟨tail, text⟩ :=
        Format.separated_starts start (others.map entry) (closeObject :: rest)
      rw [List.append_assoc, List.singleton_append]
      rw [List.map_cons, text] at whole ⊢
      simpa only [readObject, skipBlank_cons _ solid, goesOn, if_false] using whole
    · have short := readMembers_cut fills cut (Nat.lt_succ_self _)
      cases front with
      | nil => rfl
      | cons b left =>
        obtain ⟨tail, text⟩ := Format.separated_starts start (others.map entry) [closeObject]
        obtain rfl : b = quote := by
          have head := cut.head rfl
          rw [List.map_cons, text] at head
          exact (Option.some.inj head).symm
        simpa only [readObject, skipBlank_cons _ solid, goesOn, if_false] using short

/-! ## Values that are given -/

/-- The values in the slots were read. -/
def AllRead {ρ : Type} : (m : Members ρ) → m.Slots → Prop
  | .none, _ => True
  | .cons _ f _ rest, slots =>
    (∀ a ∈ slots.1, ∃ input more, f.read input = .ok (a, more)) ∧ rest.AllRead slots.2

/-- Every member of a record was read, or stands for a missing one. -/
def Given {ρ : Type} : Members ρ → ρ → Prop
  | .none, _ => True
  | .cons _ f absence rest, r =>
    ((∃ input more, f.read input = .ok (r.1, more)) ∨ absence.inObject? = some r.1) ∧
      rest.Given r.2

/-- What is given of a record of sound formats fits. -/
lemma Sound.fits_of_given {fits : ρ → Prop} (sound : m.Sound fits) {r : ρ} (given : m.Given r) :
    fits r := by
  induction sound with
  | none => trivial
  | cons format default _ ih =>
    refine ⟨?_, ih given.2⟩
    rcases given.1 with ⟨input, more, read⟩ | missing
    · exact format.gives input _ more read
    · exact default _ missing

lemma allRead_unfilled (m : Members ρ) : m.AllRead m.unfilled := by
  induction m with
  | none => trivial
  | cons name f absence rest ih =>
    refine ⟨fun a unread => ?_, ih⟩
    cases unread

lemma given_close {slots : m.Slots} {r : ρ} (read : m.AllRead slots)
    (closes : m.close slots = .ok r) : m.Given r := by
  induction m with
  | none => trivial
  | cons name f absence rest ih =>
    rw [close] at closes
    split at closes
    · cases closes
    case h_2 a found =>
      obtain ⟨others, fromOthers, same⟩ := bind_eq_ok.1 closes
      cases same
      refine ⟨?_, ih read.2 fromOthers⟩
      rcases Option.or_eq_some_iff.1 found with inSlot | ⟨-, missing⟩
      · exact .inl (read.1 a inSlot)
      · exact .inr missing

lemma allRead_readMember {key : String} {before after : m.Slots} {input rest : Bytes}
    (read : m.AllRead before) (member : m.readMember key before input = .ok (after, rest)) :
    m.AllRead after := by
  induction m with
  | none => trivial
  | cons name f absence others ih =>
    rw [readMember] at member
    split at member
    · split at member
      · cases member
      · obtain ⟨tail, -, member⟩ := bind_eq_ok.1 member
        obtain ⟨⟨a, more⟩, value, member⟩ := bind_eq_ok.1 member
        cases member
        refine ⟨fun b same => ?_, read.2⟩
        cases same
        exact ⟨_, _, value⟩
    · obtain ⟨⟨slots, more⟩, inOthers, member⟩ := bind_eq_ok.1 member
      cases member
      exact ⟨read.1, ih read.2 inOthers⟩

lemma allRead_readEntry {before after : m.Slots} {input rest : Bytes} (read : m.AllRead before)
    (member : m.readEntry before input = .ok (after, rest)) : m.AllRead after := by
  rw [readEntry] at member
  split at member
  · cases member
  · split at member
    · cases member
    · obtain ⟨⟨key, more⟩, -, member⟩ := bind_eq_ok.1 member
      exact allRead_readMember read member

lemma given_readMembers {fuel : Nat} {slots : m.Slots} {input rest : Bytes} {r : ρ}
    (read : m.AllRead slots) (members : m.readMembers fuel slots input = .ok (r, rest)) :
    m.Given r := by
  induction fuel generalizing slots input with
  | zero => cases members
  | succ fuel ih =>
    rw [readMembers_eq] at members
    obtain ⟨⟨after, more⟩, member, members⟩ := bind_eq_ok.1 members
    have read := allRead_readEntry read member
    dsimp only at members
    split at members
    · cases members
    · split at members
      · obtain ⟨r', closes, same⟩ := bind_eq_ok.1 members
        cases same
        exact given_close read closes
      · split at members
        · exact ih read members
        · cases members

lemma inObject_of_inList {α : Type} {absence : Absence α} {a : α}
    (missing : absence.inList? = some a) : absence.inObject? = some a := by
  cases absence with
  | refused | meansInObject => cases missing
  | means => exact missing

lemma given_readList {first : Bool} {input rest : Bytes} {r : ρ}
    (list : m.readList first input = .ok (r, rest)) : m.Given r := by
  induction m generalizing first input with
  | none => trivial
  | cons name f absence others ih =>
    obtain ⟨⟨more, tail⟩, -, list⟩ := bind_eq_ok.1 list
    dsimp only at list
    split at list
    · obtain ⟨⟨a, tail⟩, value, list⟩ := bind_eq_ok.1 list
      obtain ⟨⟨r', tail⟩, later, list⟩ := bind_eq_ok.1 list
      cases list
      exact ⟨.inl ⟨_, _, value⟩, ih later⟩
    · split at list
      · cases list
      case h_2 a missing =>
        obtain ⟨⟨r', tail⟩, later, list⟩ := bind_eq_ok.1 list
        cases list
        exact ⟨.inr (inObject_of_inList missing), ih later⟩

end OnlinePlay.Wire.Members

namespace OnlinePlay.Wire.Format

variable {ρ : Type} {m : Members ρ} {fits : ρ → Prop}

/-- A record shows its end by its closing brace. -/
theorem delimits_record (sound : m.Sound fits) (distinct : m.names.Nodup) {r : ρ}
    (fitting : fits r) : Delimits (record m).read ((record m).write r) r := by
  have object := Members.delimits_object (Members.fills_entries sound distinct fitting)
    (m.close_filled r)
  have text : (record m).write r =
      openObject :: (separated ((m.entries r).map Members.entry) ++ [closeObject]) := by
    simp only [record, m.write_eq r]
  have solid : isBlank openObject = false := rfl
  rw [text]
  refine ⟨fun rest => ?_, fun front cut => ?_⟩
  · rw [List.cons_append]
    simpa only [record, skipBlank_cons _ solid, if_true] using object.whole rest
  · rcases cutOf_cons_iff.1 cut with rfl | ⟨left, rfl, inside⟩
    · rfl
    · simpa only [record, skipBlank_cons _ solid, if_true] using object.cut left inside

theorem sound_record (sound : m.Sound fits) (distinct : m.names.Nodup) :
    (record m).Sound fits where
  starts _ := ⟨openObject, _, rfl, rfl, by decide⟩
  takes _ fitting := (delimits_record sound distinct fitting).takes
  gives input r rest read := by
    simp only [record] at read
    split at read
    · cases read
    · split at read
      · rw [Members.readObject] at read
        split at read
        · cases read
        · split at read
          · obtain ⟨r', closes, same⟩ := bind_eq_ok.1 read
            cases same
            exact sound.fits_of_given (Members.given_close m.allRead_unfilled closes)
          · exact sound.fits_of_given (Members.given_readMembers m.allRead_unfilled read)
      · split at read
        · exact sound.fits_of_given (Members.given_readList read)
        · cases read

end OnlinePlay.Wire.Format
