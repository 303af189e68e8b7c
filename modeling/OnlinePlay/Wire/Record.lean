import OnlinePlay.Wire.Format

/-!
# Records

A record has named members. It is written as an object with the members in the order of their
declaration. It is read from an object with the members in any order, others among them being
passed over, or from a list of the values in the order of declaration. No member may come twice.
-/

namespace OnlinePlay.Wire

/-- What a record without some member means. -/
inductive Absence (α : Type) where
  /-- It is refused. -/
  | refused
  /-- The member has this value. -/
  | means (value : α)
  /-- The member has this value, but only in an object. -/
  | meansInObject (value : α)

namespace Absence

/-- The value of a member that an object does not have. -/
def inObject? {α : Type} : Absence α → Option α
  | refused => none
  | means a | meansInObject a => some a

/-- The value of a member for which a list is too short. -/
def inList? {α : Type} : Absence α → Option α
  | means a => some a
  | refused | meansInObject _ => none

end Absence

/-- The members of a record, whose values form a nested pair. -/
inductive Members : Type → Type 1 where
  | none : Members Unit
  | cons {α ρ : Type} (name : String) (format : Format α) (absence : Absence α)
      (rest : Members ρ) : Members (α × ρ)

namespace Members

/-- The members found so far. -/
def Slots {ρ : Type} : Members ρ → Type
  | .none => Unit
  | .cons (α := α) _ _ _ rest => Option α × rest.Slots

/-- No member found yet. -/
def unfilled {ρ : Type} : (m : Members ρ) → m.Slots
  | .none => ()
  | .cons _ _ _ rest => (Option.none, rest.unfilled)

/-- The written members. -/
def write {ρ : Type} : Members ρ → ρ → List Bytes
  | .none, _ => []
  | .cons name f _ rest, (a, r) => (writeText name ++ colon :: f.write a) :: rest.write r

/-- The values of the members once an object has ended. -/
def close {ρ : Type} : (m : Members ρ) → m.Slots → Except Flaw ρ
  | .none, _ => .ok ()
  | .cons _ _ absence rest, slots =>
    match slots.1.or absence.inObject? with
    | Option.none => .error .mismatched
    | some a => do
      let r ← rest.close slots.2
      .ok (a, r)

/-- Takes the value of a member by its name into its slot. An unknown member is passed over; a
known one that was found before is refused on the spot. -/
def readMember {ρ : Type} (key : String) : (m : Members ρ) → m.Slots → Reader m.Slots
  | .none, slots, input => do
    let rest ← readColon input
    let rest ← skipValue rest
    .ok (slots, rest)
  | .cons name f _ rest, slots, input =>
    if key = name then
      if slots.1.isSome then .error .mismatched
      else do
        let tail ← readColon input
        let (a, tail) ← f.read tail
        .ok ((some a, slots.2), tail)
    else do
      let (others, tail) ← rest.readMember key slots.2 input
      .ok ((slots.1, others), tail)

/-- Takes members from the name of the next one on, up to the end of the object. Each member takes
at least one byte, so the length of the text is fuel enough. -/
def readMembers {ρ : Type} (m : Members ρ) : Nat → m.Slots → Reader ρ
  | 0, _, _ => .error .malformed
  | fuel + 1, slots, input =>
    match skipBlank input with
    | [] => .error .truncated
    | b :: rest =>
      if b ≠ quote then .error .malformed else do
      let (key, rest) ← readText rest
      let (slots, rest) ← m.readMember key slots rest
      match skipBlank rest with
      | [] => .error .truncated
      | b :: rest =>
        if b = closeObject then do
          let r ← m.close slots
          .ok (r, rest)
        else if b = comma then m.readMembers fuel slots rest
        else .error .malformed

/-- Takes an object after its opening brace. -/
def readObject {ρ : Type} (m : Members ρ) : Reader ρ := fun input =>
  match skipBlank input with
  | [] => .error .truncated
  | b :: rest =>
    if b = closeObject then do
      let r ← m.close m.unfilled
      .ok (r, rest)
    else m.readMembers (input.length + 1) m.unfilled input

/-- Whether a list goes on, and the text of its next element or of its end. Only the first element
has no comma before it. -/
def nextElement (first : Bool) (input : Bytes) : Except Flaw (Bool × Bytes) :=
  match skipBlank input with
  | [] => .error .truncated
  | b :: rest =>
    if b = closeList then .ok (false, b :: rest)
    else if first then .ok (true, b :: rest)
    else if b = comma then
      match skipBlank rest with
      | [] => .error .truncated
      | c :: rest => if c = closeList then .error .malformed else .ok (true, c :: rest)
    else .error .malformed

/-- Takes the values of the members one after the other, up to the end of the list. -/
def readList {ρ : Type} : Members ρ → Bool → Reader ρ
  | .none, _, input =>
    match skipBlank input with
    | [] => .error .truncated
    | b :: rest => if b = closeList then .ok ((), rest) else .error .malformed
  | .cons _ f absence rest, first, input => do
    let (more, tail) ← nextElement first input
    if more then
      let (a, tail) ← f.read tail
      let (r, tail) ← rest.readList false tail
      .ok ((a, r), tail)
    else
      match absence.inList? with
      | Option.none => .error .mismatched
      | some a =>
        let (r, tail) ← rest.readList first tail
        .ok ((a, r), tail)

end Members

/-- A record with these members. -/
def Format.record {ρ : Type} (m : Members ρ) : Format ρ where
  write r := openObject :: (Format.separated (m.write r) ++ [closeObject])
  read input :=
    match skipBlank input with
    | [] => .error .truncated
    | b :: rest =>
      if b = openObject then m.readObject rest
      else if b = openList then m.readList true rest
      else .error (flawOfOther (b :: rest))

end OnlinePlay.Wire
