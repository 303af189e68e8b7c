import Mathlib.Data.List.Chain
import Mathlib.Data.List.Induction
import OnlinePlay.Proofs.Store.Operation

/-!
# Codes over the life of a store

A store issues codes for as long as it lives, over any number of sessions. Three of its fields hold
codes: the one that is shown, the one that waits for its attempt to end well, and the newest one,
which alone survives a reset.

Here the same is told from the history: `codeEvents` lists when a code was issued, when an attempt
ended well, and when codes were cleared away. `Keeps` ties the three fields to that list. It holds
at the start, and every operation keeps it that does not set the status by force; `codes_fresh`
reads off it that no code is issued twice in a row, and which code is shown.
-/

namespace OnlinePlay

/-! ## Codes -/

namespace HostCode

lemma size_draws (a b c d e f g h : Fin 16) : #[a, b, c, d, e, f, g, h].size = 8 := rfl

/-- The code that eight draws give. -/
def ofDraws (a b c d e f g h : Fin 16) : HostCode :=
  ⟨⟨#[a, b, c, d, e, f, g, h], size_draws a b c d e f g h⟩⟩

/-- The codes that come from draws, eight at a time. -/
def blocks : List (Fin 16) → List HostCode
  | a :: b :: c :: d :: e :: f :: g :: h :: rest => ofDraws a b c d e f g h :: blocks rest
  | _ => []

/-- A fresh code is the first that is not the previous one. -/
lemma fresh_eq_find (previous : Option HostCode) (draws : List (Fin 16)) :
    fresh? previous draws = (blocks draws).find? (previous ≠ some ·) := by
  fun_induction fresh? previous draws with
  | case1 a b c d e f g h rest code same ih =>
    have first : ofDraws a b c d e f g h = code := rfl
    simp [blocks, first, ← same, ih]
  | case2 a b c d e f g h rest code other =>
    have first : ofDraws a b c d e f g h = code := rfl
    simp [blocks, first, other]
  | case3 draws short =>
    rw [blocks]
    · rfl
    · exact short

lemma length_text (code : HostCode) : code.text.length = 8 := by
  simp [text]

lemma mem_text (code : HostCode) : ∀ c ∈ code.text.toList, c ∈ "ABCDEF0123456789".toList := by
  have letters : ∀ i : Fin 16, alphabet[i] ∈ "ABCDEF0123456789".toList := by decide
  intro c member
  rw [text, String.toList_ofList] at member
  obtain ⟨i, -, rfl⟩ := List.mem_map.1 member
  exact letters i

lemma text_injective : Function.Injective text := by
  have letters : Function.Injective fun i : Fin 16 => alphabet[i] := by
    intro i j
    revert i j
    decide
  intro code other same
  have places := List.map_injective_iff.2 letters (String.ofList_injective same)
  obtain ⟨places⟩ := code
  exact congrArg HostCode.mk (Vector.toList_inj.1 ‹_›)

end HostCode
/-! ## What becomes of codes -/

/-- Something that happens to the codes of a store. -/
inductive Store.CodeEvent where
  | issued (code : HostCode)
  /-- An attempt ends well, in this role. -/
  | opened (role : Role)
  /-- An attempt fails, or the store is reset. -/
  | cleared
  deriving DecidableEq

namespace Store

open CodeEvent

/-- What an operation is for the codes, if it is anything. An operation that is refused is
nothing. -/
def codeEvent? (s : Store) : Operation → Option CodeEvent
  | .issueCode draws => (s.issueCode? draws).map fun (code, _) => .issued code
  | .finish generation role => (s.finish? generation role).map fun _ => .opened role
  | .abort generation => (s.abort? generation).map fun _ => .cleared
  | .reset => some .cleared
  | _ => none

/-- What has happened to the codes in a sequence of operations, oldest first. -/
def codeEvents (s : Store) : List Operation → List CodeEvent
  | [] => []
  | op :: ops => (s.codeEvent? op).toList ++ (s.perform op).codeEvents ops

lemma codeEvents_snoc (s : Store) (ops : List Operation) (op : Operation) :
    s.codeEvents (ops ++ [op]) = s.codeEvents ops ++ ((s.performAll ops).codeEvent? op).toList := by
  induction ops generalizing s with
  | nil => simp [codeEvents]
  | cons first ops ih => simp [codeEvents, ih]

/-- The code that is issued, if one is. -/
def CodeEvent.code? : CodeEvent → Option HostCode
  | issued code => some code
  | _ => none

/-- The codes that were issued, in their order. -/
def issuedIn (es : List CodeEvent) : List HostCode := es.filterMap (·.code?)

lemma issuedIn_snoc (es : List CodeEvent) (e : CodeEvent) :
    issuedIn (es ++ [e]) = issuedIn es ++ e.code?.toList := by
  cases e <;> simp [issuedIn, code?]

/-- The code was the last to be issued when an attempt ended well as host, with nothing between the
two, and codes have not been cleared since. -/
def Shows (es : List CodeEvent) (code : HostCode) : Prop :=
  ∃ older newer, es = older ++ .issued code :: .opened .host :: newer ∧ .cleared ∉ newer

lemma not_shows_nil (code : HostCode) : ¬ Shows [] code := by
  rintro ⟨older, newer, e, -⟩
  simp at e

/-- What happened last has opened a session for the newest code, or it has left alone what was shown
before. -/
lemma shows_snoc {es : List CodeEvent} {e : CodeEvent} {code : HostCode} :
    Shows (es ++ [e]) code ↔
      e = .opened .host ∧ es.getLast? = some (.issued code) ∨ e ≠ .cleared ∧ Shows es code := by
  constructor
  · rintro ⟨older, newer, split, kept⟩
    rcases List.eq_nil_or_concat newer with rfl | ⟨newer, last, rfl⟩
    · rw [List.append_cons older] at split
      obtain ⟨rfl, same⟩ := List.append_inj' split rfl
      exact .inl ⟨List.singleton_inj.1 same, by simp⟩
    · rw [List.concat_eq_append] at split kept
      rw [← List.cons_append, ← List.cons_append, ← List.append_assoc] at split
      obtain ⟨rfl, same⟩ := List.append_inj' split rfl
      obtain rfl := List.singleton_inj.1 same
      refine .inr ⟨?_, older, newer, rfl, fun member => kept (List.mem_append_left _ member)⟩
      rintro rfl
      exact kept (by simp)
  · rintro (⟨rfl, newest⟩ | ⟨other, older, newer, rfl, kept⟩)
    · obtain ⟨older, rfl⟩ := List.getLast?_eq_some_iff.1 newest
      exact ⟨older, [], by simp, by simp⟩
    · exact ⟨older, newer ++ [e], by simp, by simp [kept, other.symm]⟩

/-! ## What a store keeps of it -/

/-- The fields of a store that hold codes say what has happened. Nothing is shown before a session
is open. -/
structure Keeps (s : Store) (es : List CodeEvent) : Prop where
  last : s.lastCode = (issuedIn es).getLast?
  waits : ∀ code, s.pendingCode = some code ↔ es.getLast? = some (.issued code)
  shows : ∀ code, s.hostCode = some code ↔ Shows es code
  away : s.status = .disconnected ∨ s.status = .connecting → s.hostCode = none

lemma Keeps.initial : Keeps initial [] := by
  constructor <;> simp [Store.initial, issuedIn, not_shows_nil]

/-- An operation that is nothing for the codes leaves them alone, and opens no session. -/
structure SameCodes (s t : Store) : Prop where
  last : t.lastCode = s.lastCode
  pending : t.pendingCode = s.pendingCode
  shown : t.hostCode = s.hostCode
  away : t.status = .disconnected ∨ t.status = .connecting →
    s.status = .disconnected ∨ s.status = .connecting

lemma Keeps.of_same {s t : Store} {es : List CodeEvent} (keeps : s.Keeps es)
    (same : s.SameCodes t) : t.Keeps es := by
  obtain ⟨last, waits, shows, away⟩ := keeps
  constructor
  · rw [same.last, last]
  · rwa [same.pending]
  · rwa [same.shown]
  · rw [same.shown]
    exact fun isAway => away (same.away isAway)

lemma Keeps.issue {s t : Store} {es : List CodeEvent} {draws : List (Fin 16)} {code : HostCode}
    (keeps : s.Keeps es) (h : s.issueCode? draws = some (code, t)) :
    t.Keeps (es ++ [.issued code]) := by
  obtain rfl := issueCode_inv h
  constructor
  · simp [issuedIn_snoc, CodeEvent.code?]
  · simp
  · simpa [shows_snoc] using keeps.shows
  · exact keeps.away

lemma Keeps.finish {s t : Store} {es : List CodeEvent} {g : Nat} {role : Role}
    (keeps : s.Keeps es) (h : s.finish? g role = some t) : t.Keeps (es ++ [.opened role]) := by
  obtain ⟨-, underway, -, rfl⟩ := finish_inv h
  have hidden : s.hostCode = none := keeps.away (.inr underway)
  constructor
  · simpa [issuedIn_snoc, CodeEvent.code?] using keeps.last
  · simp
  · intro code
    have unshown : ¬ Shows es code := by
      rw [← keeps.shows, hidden]
      simp
    by_cases host : role = .host
    · simp [shows_snoc, host, unshown, keeps.waits]
    · simp [shows_snoc, host, unshown, hidden]
  · simp

/-- Once codes are cleared away, none waits and none is shown. -/
lemma Keeps.clear {s t : Store} {es : List CodeEvent} (keeps : s.Keeps es)
    (last : t.lastCode = s.lastCode) (pending : t.pendingCode = none) (shown : t.hostCode = none) :
    t.Keeps (es ++ [.cleared]) := by
  constructor
  · simpa [issuedIn_snoc, CodeEvent.code?, last] using keeps.last
  · simp [pending]
  · simp [shown, shows_snoc]
  · exact fun _ => shown

lemma SameCodes.refl (s : Store) : s.SameCodes s := ⟨rfl, rfl, rfl, id⟩

lemma SameSession.sameCodes {s t : Store} (same : s.SameSession t) : s.SameCodes t := by
  obtain ⟨_, _, _, _, rfl⟩ := same
  exact ⟨rfl, rfl, rfl, id⟩

lemma sameCodes_markLost (s : Store) : s.SameCodes s.markLost.2 := by
  rcases s.markLost_cases with ⟨-, e⟩ | ⟨-, e⟩ | ⟨-, e⟩ <;> rw [e]
  · exact ⟨rfl, rfl, rfl, by simp⟩
  · exact ⟨rfl, rfl, rfl, id⟩
  · exact .refl s

lemma sameCodes_perform {s : Store} {op : Operation} (plain : ∀ status, op ≠ .setStatus status)
    (nothing : s.codeEvent? op = none) : s.SameCodes (s.perform op) := by
  cases op with
  | setStatus status => exact absurd rfl (plain status)
  | setRole role => exact ⟨rfl, rfl, rfl, id⟩
  | begin =>
    cases begun : s.begin with
    | error e => simpa [perform, begun] using SameCodes.refl s
    | ok opened =>
      obtain ⟨idle, -, e⟩ := begin_inv begun
      simp only [perform, begun]
      rw [e]
      exact ⟨rfl, rfl, rfl, fun _ => .inl idle⟩
  | finish g role =>
    have refused := Option.map_eq_none_iff.1 nothing
    simpa [perform, refused] using SameCodes.refl s
  | abort g =>
    have refused := Option.map_eq_none_iff.1 nothing
    simpa [perform, refused] using SameCodes.refl s
  | markLost => exact s.sameCodes_markLost
  | reset => cases nothing
  | upsert | remove | replace | refresh | appendChat =>
    exact (s.sameSession_perform rfl).sameCodes
  | issueCode draws =>
    have without := Option.map_eq_none_iff.1 nothing
    simpa [perform, without] using SameCodes.refl s

lemma Keeps.event {s : Store} {es : List CodeEvent} {op : Operation} {e : CodeEvent}
    (keeps : s.Keeps es) (happened : s.codeEvent? op = some e) :
    (s.perform op).Keeps (es ++ [e]) := by
  cases op with
  | finish g role =>
    obtain ⟨t, finished, rfl⟩ := Option.map_eq_some_iff.1 happened
    simpa [perform, finished] using keeps.finish finished
  | abort g =>
    obtain ⟨t, aborted, rfl⟩ := Option.map_eq_some_iff.1 happened
    obtain ⟨-, -, e⟩ := abort_inv aborted
    rw [perform, aborted, Option.getD_some, e]
    exact keeps.clear rfl rfl rfl
  | reset =>
    cases happened
    rw [perform, reset_eq]
    exact keeps.clear rfl rfl rfl
  | issueCode draws =>
    obtain ⟨⟨code, t⟩, issued, rfl⟩ := Option.map_eq_some_iff.1 happened
    simpa [perform, issued] using keeps.issue issued
  | _ => cases happened

/-- A store keeps what has happened to its codes since the client started. -/
lemma keeps_performAll {ops : List Operation} (plain : ∀ status, .setStatus status ∉ ops) :
    (initial.performAll ops).Keeps (initial.codeEvents ops) := by
  induction ops using List.reverseRecOn with
  | nil => exact .initial
  | append_singleton ops op ih =>
    have earlier := ih fun status member => plain status (List.mem_append_left _ member)
    have last : ∀ status, op ≠ .setStatus status := by
      rintro status rfl
      exact plain status (by simp)
    rw [codeEvents_snoc, performAll_append, performAll_cons, performAll_nil]
    cases happened : (initial.performAll ops).codeEvent? op with
    | none => simpa using earlier.of_same (sameCodes_perform last happened)
    | some e => exact earlier.event happened

/-! ## Fresh codes -/

/-- The code that a store issues is the first of those drawn that is not its newest one. -/
lemma issued_eq_find (s : Store) (draws : List (Fin 16)) :
    (s.issueCode? draws).map (·.1) = (HostCode.blocks draws).find? (s.lastCode ≠ some ·) := by
  rw [issueCode?, Option.map_map, ← HostCode.fresh_eq_find]
  exact Option.map_id'

lemma lastCode_ne {s : Store} {op : Operation} {code : HostCode}
    (issued : s.codeEvent? op = some (.issued code)) : s.lastCode ≠ some code := by
  cases op with
  | issueCode draws =>
    obtain ⟨⟨code', t⟩, issued, same⟩ := Option.map_eq_some_iff.1 issued
    cases same
    have found := s.issued_eq_find draws
    rw [issued, Option.map_some] at found
    simpa using List.find?_some found.symm
  | finish | abort =>
    obtain ⟨t, -, e⟩ := Option.map_eq_some_iff.1 issued
    cases e
  | _ => cases issued

/-- No code is issued twice in a row. -/
lemma isChain_issued {ops : List Operation} (plain : ∀ status, .setStatus status ∉ ops) :
    (issuedIn (initial.codeEvents ops)).IsChain (· ≠ ·) := by
  induction ops using List.reverseRecOn with
  | nil => exact .nil
  | append_singleton ops op ih =>
    have before : ∀ status, .setStatus status ∉ ops := fun status member =>
      plain status (List.mem_append_left _ member)
    have earlier := ih before
    rw [codeEvents_snoc]
    cases happened : (initial.performAll ops).codeEvent? op with
    | none => simpa using earlier
    | some e =>
      rw [Option.toList_some, issuedIn_snoc]
      cases e with
      | issued code =>
        have other := lastCode_ne happened
        rw [(keeps_performAll before).last] at other
        refine List.isChain_append.2 ⟨earlier, .singleton code, fun last isLast next isNext => ?_⟩
        cases isNext
        rintro rfl
        exact other isLast
      | opened | cleared => simpa [CodeEvent.code?] using earlier

/-- Every code that a store issues in its life is eight characters of the alphabet, and another one
than the code issued before it, whatever sessions were opened, failed or reset between the two. The
code issued next is the first of those drawn that is another one. A code is shown exactly if it was
the newest one when an attempt ended well as host, and codes have not been cleared away since by a
failed attempt or a reset. -/
theorem codes_fresh {ops : List Operation} (plain : ∀ status, .setStatus status ∉ ops) :
    (∀ code ∈ issuedIn (initial.codeEvents ops),
      code.text.length = 8 ∧ ∀ c ∈ code.text.toList, c ∈ "ABCDEF0123456789".toList) ∧
    ((issuedIn (initial.codeEvents ops)).map (·.text)).IsChain (· ≠ ·) ∧
    (∀ draws, ((initial.performAll ops).issueCode? draws).map (·.1) =
      (HostCode.blocks draws).find? ((issuedIn (initial.codeEvents ops)).getLast? ≠ some ·)) ∧
    ∀ code, (initial.performAll ops).hostCode = some code ↔
      Shows (initial.codeEvents ops) code := by
  have keeps := keeps_performAll plain
  refine ⟨fun code _ => ⟨code.length_text, code.mem_text⟩, ?apart, fun draws => ?next, keeps.shows⟩
  case apart =>
    refine (List.isChain_map _).2 ((isChain_issued plain).imp fun code next other => ?_)
    exact HostCode.text_injective.ne other
  case next =>
    rw [issued_eq_find, keeps.last]

/-- The first attempt to host fails and the second one joins somebody. The third draws the code of
the first once more, passes it over, and is shown the next one. -/
theorem codes_fresh_after_failure :
    ∃ ops first second, (∀ status, .setStatus status ∉ ops) ∧
      initial.codeEvents ops =
        [.issued first, .cleared, .opened .guest, .cleared, .issued second, .opened .host] ∧
      first.text ≠ second.text ∧ (initial.performAll ops).hostCode = some second := by
  let ops : List Operation :=
    [.begin, .issueCode (List.replicate 8 0), .abort 1, .begin, .finish 2 .guest, .reset, .begin,
      .issueCode (List.replicate 8 0 ++ List.replicate 8 1), .finish 4 .host]
  let first : HostCode := ⟨Vector.replicate 8 0⟩
  let second : HostCode := ⟨Vector.replicate 8 1⟩
  have plain : ∀ status, .setStatus status ∉ ops := by simp [ops]
  have events : initial.codeEvents ops =
    [.issued first, .cleared, .opened .guest, .cleared, .issued second, .opened .host] := rfl
  obtain ⟨-, apart, -, shows⟩ := codes_fresh plain
  rw [events] at apart
  refine ⟨ops, first, second, plain, events, List.isChain_pair.1 apart, (shows second).2 ?_⟩
  exact ⟨[.issued first, .cleared, .opened .guest, .cleared], [], events, by simp⟩

end Store

end OnlinePlay
