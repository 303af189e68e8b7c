import OnlinePlay.Proofs.Wire.Leniency
import OnlinePlay.Proofs.Wire.Payload

/-!
# Numbers out of range

A number that is too large for its place, or negative, is an error wherever it stands in a payload.
It never turns into another number (`numbers_never_wrap`).

A place for a number is an otherwise good JSON value with a hole in it (`Hole`): the value itself, a
member of an object, or an element of a list, and so on down to the number. What a format makes of
any number in such a place is `Format.Counts`; it is proved for one level after the other.
-/

namespace OnlinePlay

open Wire

/-- Which JSON values with a hole are, apart from the hole, good for a value. -/
abbrev Hole (α : Type) := α → (Number → Json) → Prop

namespace Hole

/-- The number itself. -/
def number {α : Type} : Hole α := fun _ c => c = .number

/-- A member of an object whose other members show a value. -/
def member {α β : Type} (fields : α → List Field) (name : String) (get : α → β) (hole : Hole β) :
    Hole α := fun a c =>
  ∃ (es₁ es₂ : List Entry) (l : Literal) (j : Json) (inner : Number → Json),
    Shows (fields a) (es₁ ++ (l, j) :: es₂) ∧ l.Spells name ∧ hole (get a) inner ∧
      c = fun n => .object (es₁ ++ (l, inner n) :: es₂)

/-- An element of a list whose other elements show values. -/
def element {α : Type} (shows : α → Json → Prop) (i : Nat) (hole : Hole α) : Hole (List α) :=
  fun as c => ∃ (front behind : List α) (a : α) (js₁ js₂ : List Json) (inner : Number → Json),
    as = front ++ a :: behind ∧ front.length = i ∧ List.Forall₂ shows front js₁ ∧
      List.Forall₂ shows behind js₂ ∧ hole a inner ∧
      c = fun n => .list (js₁ ++ inner n :: js₂)

end Hole

namespace Wire

/-! ## One level after the other -/

/-- A format takes a number in a hole if the number is below a bound, and then for this number. -/
structure Format.Counts {α : Type} (f : Format α) (hole : Hole α) (bound : Nat)
    (set : α → Nat → α) (fits : α → Prop := fun _ => True) : Prop where
  reads : ∀ a c n, fits a → hole a c → n < bound →
    Reads f.read (c (.natural n)).tokens (.ok (set a n))
  refuses : ∀ a c x flaw, fits a → hole a c → Format.natural? bound x.numeral = .error flaw →
    Reads f.read (c x).tokens (.error flaw)

namespace Members

/-- The member of a name has a format and something that stands for it where it is missing, and its
value can be taken out of a record and put into it. -/
inductive At : {ρ α : Type} → Members ρ → String → Format α → Absence α → (ρ → α) →
    (ρ → α → ρ) → Prop where
  | here {α ρ : Type} {name : String} {f : Format α} {absence : Absence α} {rest : Members ρ} :
    At (.cons name f absence rest) name f absence (fun r => r.1) (fun r a => (a, r.2))
  | there {α β ρ : Type} {name other : String} {f : Format α} {g : Format β}
      {absence : Absence α} {absence' : Absence β} {rest : Members ρ} {get : ρ → α}
      {put : ρ → α → ρ} :
    name ≠ other →
    At rest name f absence get put →
    At (.cons other g absence' rest) name f absence (fun r => get r.2) (fun r a => (r.1, put r.2 a))

section

variable {ρ α : Type} {m : Members ρ} {name : String} {f : Format α} {absence : Absence α}
  {get : ρ → α} {put : ρ → α → ρ} {r : ρ} {a : α} {k : String} {j : Json}

lemma At.get_put (place : m.At name f absence get put) (r : ρ) (a : α) : get (put r a) = a := by
  induction place with
  | here => rfl
  | there _ _ ih => exact ih r.2 a

lemma At.under {rule : ∀ α : Type, Format α → Absence α → (ρ → α) → Prop}
    (place : m.At name f absence get put) (here : rule α f absence get) : m.Under name rule := by
  induction place with
  | here => simpa [Under] using here
  | there other _ ih => simpa [Under, other] using ih here

lemma At.holds (place : m.At name f absence get put) (reads : Reads f.read j.tokens (.ok a))
    (r : ρ) : m.Holds (put r a) name j :=
  place.under (by rwa [place.get_put])

lemma At.refuses (place : m.At name f absence get put) {flaw : Flaw}
    (reads : Reads f.read j.tokens (.error flaw)) : m.Refuses name j flaw :=
  place.under reads

/-- What is put under one name changes nothing under the others. -/
lemma At.others (place : m.At name f absence get put) (other : k ≠ name)
    (rule : ∀ α : Type, Format α → Absence α → α → Prop)
    (under : m.Under k fun α g absence get => rule α g absence (get r)) (a : α) :
    m.Under k fun α g absence get => rule α g absence (get (put r a)) := by
  induction place with
  | here => simpa [Under, other] using under
  | there _ _ ih =>
    rw [Under] at under ⊢
    split
    case isTrue same => simpa [same] using under
    case isFalse different =>
      rw [if_neg different] at under
      exact ih other under a

lemma At.others_hold (place : m.At name f absence get put) (other : k ≠ name)
    (holds : m.Holds r k j) (a : α) : m.Holds (put r a) k j :=
  place.others other (fun _ f _ value => Reads f.read j.tokens (.ok value)) holds a

lemma At.others_spared (place : m.At name f absence get put) (other : k ≠ name)
    (spares : m.Spares r k) (a : α) : m.Spares (put r a) k :=
  place.others other (fun _ _ absence value => absence.inObject? = some value) spares a

/-- A layout with another value under one name is a layout of the record with this value. -/
lemma Layout.replace {es₁ es₂ : List Entry} {l : Literal} {j j' : Json}
    (layout : m.Layout r (es₁ ++ (l, j) :: es₂)) (spells : l.Spells name)
    (place : m.At name f absence get put) (reads : Reads f.read j'.tokens (.ok a)) :
    m.Layout (put r a) (es₁ ++ (l, j') :: es₂) := by
  have holds := place.holds reads r
  obtain ⟨shows, apart, complete⟩ := layout
  obtain ⟨alone, others⟩ := List.pairwise_cons.1 ((List.pairwise_middle fun h => h.symm).1 apart)
  refine ⟨fun e member => ?_, ?_, fun k known missing => ?_⟩
  · have rearranged : e = (l, j') ∨ e ∈ es₁ ++ es₂ := by
      simpa [or_left_comm, or_assoc] using member
    rcases rearranged with rfl | inside
    · exact ⟨name, spells, .inr holds⟩
    · have before : e ∈ es₁ ++ (l, j) :: es₂ := by
        rcases List.mem_append.1 inside with first | second
        · exact List.mem_append_left _ first
        · exact List.mem_append_right _ (.tail _ second)
      obtain ⟨key, spells', unknown | shown⟩ := shows e before
      · exact ⟨key, spells', .inl unknown⟩
      · refine ⟨key, spells', .inr (place.others_hold ?_ shown a)⟩
        rintro rfl
        exact alone e inside key holds.known spells spells'
  · exact (List.pairwise_middle fun h => h.symm).2 (List.pairwise_cons.2 ⟨alone, others⟩)
  · have other : k ≠ name := by
      rintro rfl
      exact missing (l, j') (by simp) spells
    refine place.others_spared other (complete k known fun e member spells' => ?_) a
    rcases List.mem_append.1 member with first | second
    · exact missing e (List.mem_append_left _ first) spells'
    · rcases List.mem_cons.1 second with rfl | second
      · exact other (spells'.unique spells)
      · exact missing e (List.mem_append_right _ (.tail _ second)) spells'

end

end Members

namespace Format

lemma counts_natural {bound : Nat} (narrow : bound ≤ wordLimit) :
    (natural bound).Counts Hole.number bound (fun _ n => n) where
  reads := by
    rintro _ _ n - rfl inRange
    exact reads_natural rfl narrow inRange
  refuses := by
    rintro _ _ x flaw - rfl fails
    rw [← fails]
    exact reads_number bound x

section

variable {α β : Type} {f : Format α} {hole : Hole α} {bound : Nat} {set : α → Nat → α}
  {fits : α → Prop}

lemma Counts.via {make : α → β} {parts : β → α} (counts : f.Counts hole bound set fits) :
    (f.via make parts).Counts (fun b c => hole (parts b) c) bound
      (fun b n => make (set (parts b) n)) (fun b => fits (parts b)) where
  reads b c n fitting here inRange := (counts.reads (parts b) c n fitting here inRange).via
  refuses b c x flaw fitting here fails :=
    (counts.refuses (parts b) c x flaw fitting here fails).via

lemma modify_middle (front : List α) (a : α) (behind : List α) (change : α → α) :
    (front ++ a :: behind).modify front.length change = front ++ change a :: behind := by
  induction front with
  | nil => rfl
  | cons b front ih => exact congrArg (b :: ·) ih

lemma Counts.list {shows : α → Json → Prop} (presents : f.Presents shows fits)
    (counts : f.Counts hole bound set fits) (i : Nat) :
    f.list.Counts (Hole.element shows i hole) bound (fun as n => as.modify i (set · n))
      (fun as => ∀ a ∈ as, fits a) where
  reads := by
    rintro as c n fitting
      ⟨front, behind, a, js₁, js₂, inner, rfl, rfl, before, after, here, rfl⟩ inRange
    have reads := counts.reads a inner n (fitting a (by simp)) here inRange
    have elements := elements_append presents.reads
      (fun a member => fitting a (List.mem_append_left _ member)) before
      (.cons reads (elements_of_shows presents.reads
        (fun a member => fitting a (List.mem_append_right _ (.tail _ member))) after))
    rw [modify_middle]
    exact elements.reads
  refuses := by
    rintro as c x flaw fitting
      ⟨front, behind, a, js₁, js₂, inner, rfl, rfl, before, after, here, rfl⟩ fails
    have refuses := counts.refuses a inner x flaw (fitting a (by simp)) here fails
    have later : Elements f (inner x :: js₂) (.error flaw) := .fail refuses
    have elements := elements_append presents.reads
      (fun a member => fitting a (List.mem_append_left _ member)) before later
    exact elements.reads

end

lemma Counts.member {ρ α β : Type} {m : Members ρ} {make : ρ → β} {parts : β → ρ}
    {fields : β → List Field} {fits : β → Prop} {name : String} {f : Format α}
    {absence : Absence α} {get : ρ → α} {put : ρ → α → ρ} {hole : Hole α} {bound : Nat}
    {set : α → Nat → α} {inner : α → Prop} (describes : m.Describes parts fields fits)
    (place : m.At name f absence get put)
    (counts : f.Counts hole bound set inner) (into : ∀ b, fits b → inner (get (parts b))) :
    ((record m).via make parts).Counts (Hole.member fields name (fun b => get (parts b)) hole) bound
      (fun b n => make (put (parts b) (set (get (parts b)) n))) fits where
  reads := by
    rintro b c n fitting ⟨es₁, es₂, l, j, inside, shows, spells, here, rfl⟩ inRange
    have reads := counts.reads _ _ n (into b fitting) here inRange
    have layout := (describes.layout fitting shows).replace spells place reads
    exact (layout.reads describes.distinct).via
  refuses := by
    rintro b c x flaw fitting ⟨es₁, es₂, l, j, inside, shows, spells, here, rfl⟩ fails
    have refuses := place.refuses (counts.refuses _ _ x flaw (into b fitting) here fails)
    have layout := describes.layout fitting shows
    exact (layout.reads_refused spells refuses).via_flaw

/-- A number that does not fit is refused. -/
lemma natural_beyond {bound n : Nat} (large : bound ≤ n) :
    ∃ flaw, natural? bound (Number.natural n).numeral = .error flaw := by
  have numeral : (Number.natural n).numeral = plain (digits n) := rfl
  rw [numeral, natural?]
  split
  · exact ⟨_, rfl⟩
  · split
    case h_1 => exact ⟨_, rfl⟩
    case h_2 value fits =>
      have same : value = n := by
        simp only [Numeral.natural?, plain, ofDigits_digits] at fits
        split at fits
        · cases fits
        · split at fits
          · exact (Option.some.inj fits).symm
          · cases fits
      rw [if_neg (by omega)]
      exact ⟨_, rfl⟩

/-- So is a negative one, even if it is zero. -/
lemma natural_negative (bound : Nat) {ds : List Nat} (tidy : Tidy ds) :
    ∃ flaw, natural? bound (Number.ofRow true tidy).numeral = .error flaw := by
  rw [natural?]
  split
  · exact ⟨_, rfl⟩
  · exact ⟨.mismatched, rfl⟩

lemma counts_word16 :
    word16.Counts Hole.number UInt16.size (fun _ n => UInt16.ofNat n) := by
  exact (counts_natural (by decide)).via

lemma counts_word32 :
    word32.Counts Hole.number UInt32.size (fun _ n => UInt32.ofNat n) := by
  exact (counts_natural (by decide)).via

end Format

end Wire

/-! ## The fields of further payloads -/

/-- All fields are required. -/
def Player.fields (p : Player) : List Field :=
  [⟨"id", Json.IsNatural p.id.number.toNat, False⟩,
    ⟨"nickname", Json.IsString p.nickname, False⟩,
    ⟨"connected", Json.IsFlag p.connected, False⟩]

/-- All fields are required. -/
def RosterSnapshot.fields (s : RosterSnapshot) : List Field :=
  [⟨"revision", Json.IsNatural s.revision, False⟩,
    ⟨"player_count", Json.IsNatural s.playerCount, False⟩,
    ⟨"players", Json.IsList (fun (p : Player) j => j.IsObject p.fields) s.players, False⟩]

/-- All fields are required. -/
def LobbyServer.fields (s : LobbyServer) : List Field :=
  [⟨"name", Json.IsString s.name, False⟩,
    ⟨"address", Json.IsString s.address, False⟩,
    ⟨"port", Json.IsNatural s.port.toNat, False⟩,
    ⟨"game_id", Json.IsString s.gameId, False⟩,
    ⟨"game_name", Json.IsString s.gameName, False⟩,
    ⟨"player_count", Json.IsNatural s.playerCount.toNat, False⟩,
    ⟨"max_players", Json.IsNatural s.maxPlayers.toNat, False⟩,
    ⟨"protocol_version", Json.IsString s.protocolVersion, False⟩]

section

open Wire.Format

lemma Player.describes : Player.members.Describes
    (fun p => (p.id, p.nickname, p.connected, ())) Player.fields where
  distinct := by decide
  meets := ⟨_, _, .required (presents_word32.via fun _ => rfl) <| .required presents_text <|
    .required presents_flag .none, fun _ => rfl, by simp⟩

lemma RosterSnapshot.describes : RosterSnapshot.members.Describes
    (fun s => (s.revision, s.playerCount, s.players, ())) RosterSnapshot.fields InRange where
  distinct := by decide
  meets := ⟨_, _, .required (presents_natural (by decide)) <|
    .required (presents_natural (by decide)) <|
    .required (presents_record Player.describes fun _ => rfl).list .none, fun _ => rfl,
    fun s fits => ⟨fits.1, fits.2, fun _ _ => trivial, trivial⟩⟩

lemma LobbyServer.describes : LobbyServer.members.Describes
    (fun s => (s.name, s.address, s.port, s.gameId, s.gameName, s.playerCount, s.maxPlayers,
      s.protocolVersion, ())) LobbyServer.fields where
  distinct := by decide
  meets := ⟨_, _, .required presents_text <| .required presents_text <|
    .required presents_word16 <| .required presents_text <| .required presents_text <|
    .required presents_word32 <| .required presents_word32 <| .required presents_text .none,
    fun _ => rfl, by simp⟩

/-! ### Places for numbers -/

lemma PlayerId.counts_format :
    PlayerId.format.Counts .number UInt32.size (fun _ n => ⟨.ofNat n⟩) := by
  exact counts_word32.via

lemma Player.counts_id :
    Player.format.Counts (.member fields "id" (·.id) .number) UInt32.size
      (fun p n => { p with id := ⟨.ofNat n⟩ }) := by
  rw [Player.format]
  exact PlayerId.counts_format.member Player.describes .here fun _ _ => trivial

lemma LobbySession.counts_port :
    LobbySession.format.Counts (.member fields "port" (·.port) .number) UInt16.size
      (fun s n => { s with port := .ofNat n }) := by
  rw [LobbySession.format]
  exact counts_word16.member LobbySession.describes
    (.there (by decide) <| .there (by decide) .here) fun _ _ => trivial

lemma LobbySession.counts_playerCount :
    LobbySession.format.Counts (.member fields "player_count" (·.playerCount) .number) UInt32.size
      (fun s n => { s with playerCount := .ofNat n }) := by
  rw [LobbySession.format]
  exact counts_word32.member LobbySession.describes
    (.there (by decide) <| .there (by decide) <| .there (by decide) <| .there (by decide) .here)
    fun _ _ => trivial

lemma LobbyServer.counts_port :
    LobbyServer.format.Counts (.member fields "port" (·.port) .number) UInt16.size
      (fun s n => { s with port := .ofNat n }) := by
  rw [LobbyServer.format]
  exact counts_word16.member LobbyServer.describes
    (.there (by decide) <| .there (by decide) .here) fun _ _ => trivial

lemma LobbyServer.counts_playerCount :
    LobbyServer.format.Counts (.member fields "player_count" (·.playerCount) .number) UInt32.size
      (fun s n => { s with playerCount := .ofNat n }) := by
  rw [LobbyServer.format]
  exact counts_word32.member LobbyServer.describes
    (.there (by decide) <| .there (by decide) <| .there (by decide) <| .there (by decide) <|
      .there (by decide) .here) fun _ _ => trivial

lemma LobbyServer.counts_maxPlayers :
    LobbyServer.format.Counts (.member fields "max_players" (·.maxPlayers) .number) UInt32.size
      (fun s n => { s with maxPlayers := .ofNat n }) := by
  rw [LobbyServer.format]
  exact counts_word32.member LobbyServer.describes
    (.there (by decide) <| .there (by decide) <| .there (by decide) <| .there (by decide) <|
      .there (by decide) <| .there (by decide) .here) fun _ _ => trivial

lemma Settings.counts_serverPort :
    Settings.format.Counts (.member fields "server_port" (·.serverPort) .number) UInt16.size
      (fun s n => { s with serverPort := .ofNat n }) := by
  rw [Settings.format]
  exact counts_word16.member Settings.describes
    (.there (by decide) <| .there (by decide) .here) fun _ _ => trivial

lemma RosterSnapshot.counts_revision :
    RosterSnapshot.format.Counts (.member fields "revision" (·.revision) .number) UInt64.size
      (fun s n => { s with revision := n }) InRange := by
  rw [RosterSnapshot.format]
  exact (counts_natural (by decide)).member RosterSnapshot.describes .here fun _ _ => trivial

lemma RosterSnapshot.counts_playerCount :
    RosterSnapshot.format.Counts (.member fields "player_count" (·.playerCount) .number)
      UInt64.size (fun s n => { s with playerCount := n }) InRange := by
  rw [RosterSnapshot.format]
  exact (counts_natural (by decide)).member RosterSnapshot.describes (.there (by decide) .here)
    fun _ _ => trivial

/-- A place in one of the sessions of a listing. -/
def LobbyListing.inSession (i : Nat) (hole : Hole LobbySession) : Hole LobbyListing :=
  .member fields "sessions" (·.sessions) (.element (fun s j => j.IsObject s.fields) i hole)

/-- A place in one of the players of a snapshot. -/
def RosterSnapshot.inPlayer (i : Nat) (hole : Hole Player) : Hole RosterSnapshot :=
  .member fields "players" (·.players) (.element (fun p j => j.IsObject p.fields) i hole)

lemma LobbyListing.counts_session {hole : Hole LobbySession} {bound : Nat}
    {set : LobbySession → Nat → LobbySession} (counts : LobbySession.format.Counts hole bound set)
    (i : Nat) :
    LobbyListing.format.Counts (inSession i hole) bound
      (fun l n => { l with sessions := l.sessions.modify i (set · n) }) := by
  rw [LobbyListing.format]
  exact (Counts.list LobbySession.lenient_format.presents counts i).member LobbyListing.describes
    (.there (by decide) .here) fun _ _ _ _ => trivial

lemma RosterSnapshot.counts_player {hole : Hole Player} {bound : Nat}
    {set : Player → Nat → Player} (counts : Player.format.Counts hole bound set) (i : Nat) :
    RosterSnapshot.format.Counts (inPlayer i hole) bound
      (fun s n => { s with players := s.players.modify i (set · n) }) InRange := by
  rw [RosterSnapshot.format]
  exact (Counts.list (presents_record Player.describes fun _ => rfl) counts i).member
    RosterSnapshot.describes (.there (by decide) <| .there (by decide) .here) fun _ _ _ _ => trivial

end

/-- There is an element at a place in a list. -/
lemma Hole.getElem_element {α : Type} {shows : α → Json → Prop} {i : Nat} {hole : Hole α}
    {as : List α} {c : Number → Json} (here : Hole.element shows i hole as c) :
    ∃ a, as[i]? = some a := by
  obtain ⟨front, behind, a, -, -, -, rfl, rfl, -⟩ := here
  exact ⟨a, by simp⟩

/-! ## Payloads -/

namespace Payload

/-- A natural number in a place is read as itself if it is below a bound. If it is not, or if it is
negative, nothing is read. -/
structure NeverWraps (α : Type) [Payload α] (hole : Hole α) (bound : Nat) (set : α → Nat → α)
    (get : α → Option Nat) (fits : α → Prop := fun _ => True) : Prop where
  decodes : ∀ (a : α) (c : Number → Json) (n : Nat) (text : Bytes), fits a → hole a c →
    (c (.natural n)).IsText text → n < bound →
      decode text = .ok (set a n) ∧ get (set a n) = some n
  beyond : ∀ (a : α) (c : Number → Json) (n : Nat) (text : Bytes), fits a → hole a c →
    (c (.natural n)).IsText text → bound ≤ n →
      ∃ flaw, (decode text : Except ProtocolError α) = .error (.decode flaw)
  negative : ∀ (a : α) (c : Number → Json) (ds : List Nat) (tidy : Tidy ds) (text : Bytes), fits a →
    hole a c → (c (.ofRow true tidy)).IsText text →
      ∃ flaw, (decode text : Except ProtocolError α) = .error (.decode flaw)

lemma neverWraps_of_counts {α : Type} [Payload α] {hole : Hole α} {bound : Nat}
    {set : α → Nat → α} {get : α → Option Nat} {fits : α → Prop}
    (counts : (format : Format α).Counts hole bound set fits)
    (exact : ∀ a c n, hole a c → n < bound → get (set a n) = some n) :
    NeverWraps α hole bound set get fits where
  decodes a c n text fitting here isText inRange :=
    ⟨decode_of_reads (counts.reads a c n fitting here inRange) isText, exact a c n here inRange⟩
  beyond a c n text fitting here isText large := by
    obtain ⟨flaw, fails⟩ := Format.natural_beyond large
    exact ⟨flaw, decode_of_reads (counts.refuses a c _ flaw fitting here fails) isText⟩
  negative a c ds tidy text fitting here isText := by
    obtain ⟨flaw, fails⟩ := Format.natural_negative bound tidy
    exact ⟨flaw, decode_of_reads (counts.refuses a c _ flaw fitting here fails) isText⟩

lemma toNat_ofNat16 {n : Nat} (inRange : n < UInt16.size) : (UInt16.ofNat n).toNat = n :=
  UInt16.toNat_ofNat_of_lt inRange

lemma toNat_ofNat32 {n : Nat} (inRange : n < UInt32.size) : (UInt32.ofNat n).toNat = n :=
  UInt32.toNat_ofNat_of_lt inRange

/-- No number of a payload is taken for another one. -/
theorem numbers_never_wrap :
    NeverWraps LobbySession (.member LobbySession.fields "port" (·.port) .number) UInt16.size
        (fun s n => { s with port := .ofNat n }) (fun s => s.port.toNat) ∧
      NeverWraps LobbyServer (.member LobbyServer.fields "port" (·.port) .number) UInt16.size
        (fun s n => { s with port := .ofNat n }) (fun s => s.port.toNat) ∧
      NeverWraps Settings (.member Settings.fields "server_port" (·.serverPort) .number)
        UInt16.size (fun s n => { s with serverPort := .ofNat n }) (fun s => s.serverPort.toNat) ∧
      NeverWraps PlayerId .number UInt32.size (fun _ n => ⟨.ofNat n⟩) (fun p => p.number.toNat) ∧
      NeverWraps Player (.member Player.fields "id" (·.id) .number) UInt32.size
        (fun p n => { p with id := ⟨.ofNat n⟩ }) (fun p => p.id.number.toNat) ∧
      NeverWraps LobbySession (.member LobbySession.fields "player_count" (·.playerCount) .number)
        UInt32.size (fun s n => { s with playerCount := .ofNat n })
        (fun s => s.playerCount.toNat) ∧
      NeverWraps LobbyServer (.member LobbyServer.fields "player_count" (·.playerCount) .number)
        UInt32.size (fun s n => { s with playerCount := .ofNat n })
        (fun s => s.playerCount.toNat) ∧
      NeverWraps LobbyServer (.member LobbyServer.fields "max_players" (·.maxPlayers) .number)
        UInt32.size (fun s n => { s with maxPlayers := .ofNat n }) (fun s => s.maxPlayers.toNat) ∧
      NeverWraps RosterSnapshot (.member RosterSnapshot.fields "revision" (·.revision) .number)
        UInt64.size (fun s n => { s with revision := n }) (fun s => s.revision)
        RosterSnapshot.InRange ∧
      NeverWraps RosterSnapshot
        (.member RosterSnapshot.fields "player_count" (·.playerCount) .number) UInt64.size
        (fun s n => { s with playerCount := n }) (fun s => s.playerCount) RosterSnapshot.InRange ∧
      ∀ i,
        NeverWraps LobbyListing
          (LobbyListing.inSession i (.member LobbySession.fields "port" (·.port) .number))
          UInt16.size
          (fun l n =>
            { l with sessions := l.sessions.modify i fun s => { s with port := .ofNat n } })
          (fun l => l.sessions[i]?.map (·.port.toNat)) ∧
        NeverWraps LobbyListing
          (LobbyListing.inSession i
            (.member LobbySession.fields "player_count" (·.playerCount) .number)) UInt32.size
          (fun l n =>
            { l with sessions := l.sessions.modify i fun s => { s with playerCount := .ofNat n } })
          (fun l => l.sessions[i]?.map (·.playerCount.toNat)) ∧
        NeverWraps RosterSnapshot
          (RosterSnapshot.inPlayer i (.member Player.fields "id" (·.id) .number)) UInt32.size
          (fun s n => { s with players := s.players.modify i fun p => { p with id := ⟨.ofNat n⟩ } })
          (fun s => s.players[i]?.map (·.id.number.toNat)) RosterSnapshot.InRange := by
  refine ⟨?_, ?_, ?_, ?_, ?_, ?_, ?_, ?_, ?_, ?_, fun i => ⟨?_, ?_, ?_⟩⟩
  · exact neverWraps_of_counts LobbySession.counts_port
      fun _ _ _ _ inRange => congrArg some (toNat_ofNat16 inRange)
  · exact neverWraps_of_counts LobbyServer.counts_port
      fun _ _ _ _ inRange => congrArg some (toNat_ofNat16 inRange)
  · exact neverWraps_of_counts Settings.counts_serverPort
      fun _ _ _ _ inRange => congrArg some (toNat_ofNat16 inRange)
  · exact neverWraps_of_counts PlayerId.counts_format
      fun _ _ _ _ inRange => congrArg some (toNat_ofNat32 inRange)
  · exact neverWraps_of_counts Player.counts_id
      fun _ _ _ _ inRange => congrArg some (toNat_ofNat32 inRange)
  · exact neverWraps_of_counts LobbySession.counts_playerCount
      fun _ _ _ _ inRange => congrArg some (toNat_ofNat32 inRange)
  · exact neverWraps_of_counts LobbyServer.counts_playerCount
      fun _ _ _ _ inRange => congrArg some (toNat_ofNat32 inRange)
  · exact neverWraps_of_counts LobbyServer.counts_maxPlayers
      fun _ _ _ _ inRange => congrArg some (toNat_ofNat32 inRange)
  · exact neverWraps_of_counts RosterSnapshot.counts_revision fun _ _ _ _ _ => rfl
  · exact neverWraps_of_counts RosterSnapshot.counts_playerCount fun _ _ _ _ _ => rfl
  · refine neverWraps_of_counts (LobbyListing.counts_session LobbySession.counts_port i) ?_
    rintro l c n ⟨_, _, _, _, _, _, _, here, _⟩ inRange
    obtain ⟨s, found⟩ := Hole.getElem_element here
    simpa [toNat_ofNat16 inRange] using ⟨s, found⟩
  · refine neverWraps_of_counts (LobbyListing.counts_session LobbySession.counts_playerCount i) ?_
    rintro l c n ⟨_, _, _, _, _, _, _, here, _⟩ inRange
    obtain ⟨s, found⟩ := Hole.getElem_element here
    simpa [toNat_ofNat32 inRange] using ⟨s, found⟩
  · refine neverWraps_of_counts (RosterSnapshot.counts_player Player.counts_id i) ?_
    rintro l c n ⟨_, _, _, _, _, _, _, here, _⟩ inRange
    obtain ⟨s, found⟩ := Hole.getElem_element here
    simpa [toNat_ofNat32 inRange] using ⟨s, found⟩

/-- The largest port is one, the next number is none, and neither is a zero with a minus. -/
theorem ports_never_wrap :
    decode (utf8 "\x7b\"server_port\": 65535\x7d") = .ok ({ serverPort := 65535 } : Settings) ∧
      (∃ flaw, (decode (utf8 "\x7b\"server_port\": 65536\x7d") :
        Except ProtocolError Settings) = .error (.decode flaw)) ∧
      ∃ flaw, (decode (utf8 "\x7b\"server_port\": -0\x7d") :
        Except ProtocolError Settings) = .error (.decode flaw) := by
  obtain ⟨key, keyText, spells⟩ := exists_literal "server_port"
  obtain ⟨-, -, ports, -⟩ := numbers_never_wrap
  have here : Hole.member Settings.fields "server_port" (·.serverPort) .number {}
      (fun n => .object [(key, .number n)]) := by
    refine ⟨[], [], key, .number (.natural 2626), .number, ?_, spells, rfl, rfl⟩
    refine ⟨[(key, .number (.natural 2626))], [], .refl _, ?_, nofun⟩
    exact .left rfl <| .left rfl <| .shown spells rfl <| .left rfl <| .left rfl <| .left rfl .nil
  have space : ∀ b ∈ [(0x20 : UInt8)], isBlank b := List.forall_mem_singleton.2 rfl
  have spaced (n : Number) : Spaced (Json.object [(key, .number n)]).tokens _ :=
    .next <| .next <| .next <| .cons _ space <| .next .nil
  refine ⟨?_, ?_, ?_⟩
  · refine (ports.decodes {} _ 65535 _ trivial here ⟨_, [], ?_, spaced _, nofun⟩ (by decide)).1
    rw [keyText]
    decide +kernel
  · refine ports.beyond {} _ 65536 _ trivial here ⟨_, [], ?_, spaced _, nofun⟩ (by decide)
    rw [keyText]
    decide +kernel
  · refine ports.negative {} _ _ (tidy_digits 0) _ trivial here ⟨_, [], ?_, spaced _, nofun⟩
    rw [keyText]
    decide +kernel

end Payload

end OnlinePlay
