import Mathlib.Data.List.TakeWhile
import OnlinePlay.Proofs.Wire.Record
import OnlinePlay.Wire.Payload

/-!
# Round trips of payloads

Every value that goes over the wire is read back from its text (`payloads_round_trip`). A text that
is cut anywhere, or continued by anything but white space, is no value at all
(`payloads_never_partial`).

Both are read off the formats: those of all payloads are sound, and the records among them show
their end (`Format.Closed`).
-/

namespace OnlinePlay

open Wire

/-- The numbers of a snapshot are words of sixty-four bits. -/
def RosterSnapshot.InRange (s : RosterSnapshot) : Prop :=
  s.revision < UInt64.size ∧ s.playerCount < UInt64.size
  deriving Decidable

namespace Wire.Format

/-- A sound format whose texts show their end by themselves. -/
structure Closed {α : Type} (f : Format α) (fits : α → Prop) : Prop where
  sound : f.Sound fits
  delimits : ∀ a, fits a → Delimits f.read (f.write a) a

lemma Sound.fits_of_decode {α : Type} {f : Format α} {fits : α → Prop} (sound : f.Sound fits)
    {input : Bytes} {a : α} (decoded : f.decode input = .ok a) : fits a := by
  obtain ⟨⟨a', rest⟩, read, ends⟩ := bind_eq_ok.1 decoded
  dsimp only at ends
  split at ends
  · cases ends
    exact sound.gives _ _ _ read
  · cases ends

lemma Sound.decode_write {α : Type} {f : Format α} {fits : α → Prop} (sound : f.Sound fits) {a : α}
    (fitting : fits a) : f.decode (f.write a) = .ok a := by
  have read := (sound.takes a fitting).whole [] follows_nil
  rw [List.append_nil] at read
  rw [decode, read]
  rfl

/-- A text that shows its end may be followed by white space, and by nothing else. -/
lemma Closed.decode_append {α : Type} {f : Format α} {fits : α → Prop} (closed : f.Closed fits)
    {a : α} (fitting : fits a) (rest : Bytes) :
    f.decode (f.write a ++ rest) = if rest.all isBlank then .ok a else .error .malformed := by
  have ends : (skipBlank rest).isEmpty = true ↔ rest.all isBlank = true := by
    simp [skipBlank, List.isEmpty_iff, List.dropWhile_eq_nil_iff]
  rw [decode, (closed.delimits a fitting).whole rest]
  simp only [bind, Except.bind, ends]

lemma Closed.decode_cut {α : Type} {f : Format α} {fits : α → Prop} (closed : f.Closed fits)
    {a : α} (fitting : fits a) {front : Bytes} (cut : CutOf front (f.write a)) :
    f.decode front = .error .truncated := by
  rw [decode, (closed.delimits a fitting).cut front cut]
  rfl

/-- The format of a type whose values consist of the members of a record. -/
lemma closed_record {ρ β : Type} {m : Members ρ} {make : ρ → β} {parts : β → ρ} {fits : ρ → Prop}
    {fits' : β → Prop} (sound : m.Sound fits) (distinct : m.names.Nodup)
    (same : ∀ b, make (parts b) = b) (into : ∀ b, fits' b → fits (parts b))
    (back : ∀ r, fits r → fits' (make r)) : ((record m).via make parts).Closed fits' where
  sound := (sound_record sound distinct).via same into back
  delimits b fitting := delimits_via (same b) (delimits_record sound distinct (into b fitting))

end Wire.Format

/-! ## The formats of the payloads -/

section

open Wire.Format

lemma PlayerId.sound_format : PlayerId.format.Sound fun _ => True := by
  apply sound_word32.via
  · exact fun _ => rfl
  · exact fun _ _ => trivial
  · exact fun _ _ => trivial

lemma Status.sound_format : Status.format.Sound fun _ => True :=
  sound_choice fun s => by cases s <;> decide

lemma Role.sound_format : Role.format.Sound fun _ => True :=
  sound_choice fun r => by cases r <;> decide

lemma Visibility.sound_format : Visibility.format.Sound fun _ => True :=
  sound_choice fun v => by cases v <;> decide

lemma Link.sound_format : Link.format.Sound fun _ => True :=
  sound_choice fun l => by cases l <;> decide

lemma Player.closed_format : Player.format.Closed fun _ => True := by
  apply closed_record
  · exact .cons PlayerId.sound_format nofun <| .cons sound_text nofun <|
      .cons sound_flag nofun .none
  · decide
  · exact fun _ => rfl
  · simp
  · simp

lemma ChatMessage.closed_format : ChatMessage.format.Closed fun _ => True := by
  apply closed_record
  · exact .cons sound_text nofun <| .cons sound_text nofun <| .cons sound_text nofun .none
  · decide
  · exact fun _ => rfl
  · simp
  · simp

lemma RosterSnapshot.closed_format : RosterSnapshot.format.Closed InRange := by
  apply closed_record
  · exact .cons (sound_natural (by decide)) nofun <| .cons (sound_natural (by decide)) nofun <|
      .cons Player.closed_format.sound.list nofun .none
  · decide
  · exact fun _ => rfl
  · exact fun s ⟨revision, count⟩ => ⟨revision, count, fun _ _ => trivial, trivial⟩
  · exact fun _ ⟨revision, count, _⟩ => ⟨revision, count⟩

lemma LobbySession.closed_format : LobbySession.format.Closed fun _ => True := by
  apply closed_record
  · exact .cons sound_text nofun <| .cons sound_text nofun <| .cons sound_word16 nofun <|
      .cons sound_text nofun <| .cons sound_word32 nofun <| .cons sound_flag nofun <|
      .cons sound_text (by simp) <| .cons sound_text (by simp) <| .cons sound_text (by simp) <|
      .cons sound_flag (by simp) .none
  · decide
  · exact fun _ => rfl
  · simp
  · simp

lemma LobbyListing.closed_format : LobbyListing.format.Closed fun _ => True := by
  apply closed_record
  · exact .cons sound_text nofun <|
      .cons LobbySession.closed_format.sound.list (by simp) .none
  · decide
  · exact fun _ => rfl
  · simp
  · simp

lemma LobbyServer.closed_format : LobbyServer.format.Closed fun _ => True := by
  apply closed_record
  · exact .cons sound_text nofun <| .cons sound_text nofun <| .cons sound_word16 nofun <|
      .cons sound_text nofun <| .cons sound_text nofun <| .cons sound_word32 nofun <|
      .cons sound_word32 nofun <| .cons sound_text nofun .none
  · decide
  · exact fun _ => rfl
  · simp
  · simp

lemma Settings.closed_format : Settings.format.Closed fun _ => True := by
  rw [Settings.format]
  apply closed_record
  · exact .cons sound_text (by simp) <| .cons sound_text (by simp) <|
      .cons sound_word16 (by simp) <| .cons Visibility.sound_format (by simp) <|
      .cons Link.sound_format (by simp) <| .cons sound_text (by simp) .none
  · decide
  · exact fun _ => rfl
  · simp
  · simp

/-- A string, or `null`. -/
lemma sound_optionalText : text.optional.Sound fun _ => True := by
  have startsWithQuote (s : String) : (text.write s).head? = some quote := rfl
  have sound := sound_text.optional rfl fun s => startsWithQuote s ▸ by decide
  simpa using sound

lemma GameValidation.closed_format : GameValidation.format.Closed fun _ => True := by
  apply closed_record
  · exact .cons sound_flag nofun <| .cons sound_optionalText (by simp) <|
      .cons sound_optionalText (by simp) <| .cons sound_optionalText (by simp) .none
  · decide
  · exact fun _ => rfl
  · simp
  · simp

end

/-! ## What becomes of a payload -/

namespace Payload

/-- The values that fit are read back from their texts, and so is whatever was read from any text
at all, once it is written anew. -/
structure RoundTrips (α : Type) [Payload α] (fits : α → Prop := fun _ => True) : Prop where
  decode_encode : ∀ a : α, fits a → decode (encode a) = .ok a
  decode_reencode : ∀ (text : Bytes) (a : α), decode text = .ok a → decode (encode a) = .ok a

/-- A text that was cut, or that goes on, is no value: cut anywhere, the text of a value ends too
early; white space may follow it; nothing else may. -/
structure NeverPartial (α : Type) [Payload α] (fits : α → Prop := fun _ => True) : Prop where
  decode_cut : ∀ a : α, fits a → ∀ front : Bytes, front <+: encode a → front ≠ encode a →
    (decode front : Except ProtocolError α) = .error (.decode .truncated)
  decode_blank : ∀ a : α, fits a → ∀ rest : Bytes, (∀ b ∈ rest, isBlank b) →
    decode (encode a ++ rest) = .ok a
  decode_more : ∀ a : α, fits a → ∀ rest : Bytes, (∃ b ∈ rest, ¬ isBlank b) →
    (decode (encode a ++ rest) : Except ProtocolError α) = .error (.decode .malformed)

variable {α : Type} [Payload α] {fits : α → Prop}

/-- What is read from a text fits. -/
lemma fits_of_decode (sound : (format : Format α).Sound fits) {text : Bytes} {a : α}
    (decoded : decode text = .ok a) : fits a := by
  rw [decode] at decoded
  cases inFormat : (format : Format α).decode text with
  | error flaw => rw [inFormat] at decoded; cases decoded
  | ok b =>
    rw [inFormat] at decoded
    cases decoded
    exact sound.fits_of_decode inFormat

lemma roundTrips_of_sound (sound : (format : Format α).Sound fits) : RoundTrips α fits := by
  have encoded (a : α) (fitting : fits a) : decode (encode a) = .ok a := by
    rw [decode, encode, sound.decode_write fitting]
    rfl
  exact ⟨encoded, fun text a decoded => encoded a (fits_of_decode sound decoded)⟩

lemma neverPartial_of_closed (closed : (format : Format α).Closed fits) : NeverPartial α fits where
  decode_cut a fitting front isPrefix shorter := by
    rw [decode, closed.decode_cut fitting ⟨isPrefix, shorter⟩]
    rfl
  decode_blank a fitting rest blank := by
    rw [decode, encode, closed.decode_append fitting, if_pos (List.all_eq_true.2 blank)]
    rfl
  decode_more a fitting rest more := by
    have notBlank : ¬ rest.all isBlank := by simpa using more
    rw [decode, encode, closed.decode_append fitting, if_neg notBlank]
    rfl

/-- Every payload is read back from its text. -/
theorem payloads_round_trip :
    RoundTrips LobbyListing ∧ RoundTrips LobbySession ∧ RoundTrips LobbyServer ∧
      RoundTrips Player ∧ RoundTrips PlayerId ∧ RoundTrips ChatMessage ∧
      RoundTrips RosterSnapshot RosterSnapshot.InRange ∧ RoundTrips Settings ∧
      RoundTrips GameValidation ∧ RoundTrips Status ∧ RoundTrips Role ∧ RoundTrips Visibility ∧
      RoundTrips Link := by
  refine ⟨?_, ?_, ?_, ?_, ?_, ?_, ?_, ?_, ?_, ?_, ?_, ?_, ?_⟩
  · exact roundTrips_of_sound LobbyListing.closed_format.sound
  · exact roundTrips_of_sound LobbySession.closed_format.sound
  · exact roundTrips_of_sound LobbyServer.closed_format.sound
  · exact roundTrips_of_sound Player.closed_format.sound
  · exact roundTrips_of_sound PlayerId.sound_format
  · exact roundTrips_of_sound ChatMessage.closed_format.sound
  · exact roundTrips_of_sound RosterSnapshot.closed_format.sound
  · exact roundTrips_of_sound Settings.closed_format.sound
  · exact roundTrips_of_sound GameValidation.closed_format.sound
  · exact roundTrips_of_sound Status.sound_format
  · exact roundTrips_of_sound Role.sound_format
  · exact roundTrips_of_sound Visibility.sound_format
  · exact roundTrips_of_sound Link.sound_format

/-- A snapshot with the largest revision there is, and a nickname that has to be escaped. -/
def crowded : RosterSnapshot :=
  ⟨UInt64.size - 1, 2, [⟨⟨0⟩, "\"\\\n\u0001/", true⟩, ⟨⟨4294967295⟩, "Zoë 😀", false⟩]⟩

theorem crowded_round_trip :
    crowded.InRange ∧ decode (encode crowded) = .ok crowded ∧
      decode (encode Visibility.friends) = .ok Visibility.friends := by
  have inRange : crowded.InRange := by decide
  obtain ⟨-, -, -, -, -, -, snapshot, -, -, -, -, visibility, -⟩ := payloads_round_trip
  exact ⟨inRange, snapshot.decode_encode crowded inRange, visibility.decode_encode _ trivial⟩

/-- No payload with members is read from a part of its text, or from more than its text. -/
theorem payloads_never_partial :
    NeverPartial LobbyListing ∧ NeverPartial LobbySession ∧ NeverPartial LobbyServer ∧
      NeverPartial Player ∧ NeverPartial ChatMessage ∧
      NeverPartial RosterSnapshot RosterSnapshot.InRange ∧ NeverPartial Settings ∧
      NeverPartial GameValidation := by
  refine ⟨?_, ?_, ?_, ?_, ?_, ?_, ?_, ?_⟩
  · exact neverPartial_of_closed LobbyListing.closed_format
  · exact neverPartial_of_closed LobbySession.closed_format
  · exact neverPartial_of_closed LobbyServer.closed_format
  · exact neverPartial_of_closed Player.closed_format
  · exact neverPartial_of_closed ChatMessage.closed_format
  · exact neverPartial_of_closed RosterSnapshot.closed_format
  · exact neverPartial_of_closed Settings.closed_format
  · exact neverPartial_of_closed GameValidation.closed_format

theorem crowded_never_partial :
    crowded.InRange ∧
      (decode (encode crowded).dropLast : Except ProtocolError RosterSnapshot) =
        .error (.decode .truncated) ∧
      decode (encode crowded ++ [0x20, 0x0A]) = .ok crowded ∧
      (decode (encode crowded ++ [0x20, closeObject]) : Except ProtocolError RosterSnapshot) =
        .error (.decode .malformed) := by
  have inRange : crowded.InRange := by decide
  have shorter : (encode crowded).dropLast ≠ encode crowded := by decide +kernel
  obtain ⟨-, -, -, -, -, snapshot, -, -⟩ := payloads_never_partial
  refine ⟨inRange, ?_, ?_, ?_⟩
  · exact snapshot.decode_cut crowded inRange _ (List.dropLast_prefix _) shorter
  · exact snapshot.decode_blank crowded inRange _ (by simp [isBlank])
  · exact snapshot.decode_more crowded inRange _ ⟨closeObject, by simp, by decide⟩

end Payload

end OnlinePlay
