import OnlinePlay.Lobby.Browser
import OnlinePlay.Proofs.Wire.Payload

/-!
# Two views of the lobby

Whoever asks the directory for servers, and a browser that looks at it, get their sessions by
different ways from the same answer. `Exchange.Yields` says what an answer is worth by itself, in
the order in which things may be wrong with it; both views are read off this. Of what there is, a
browser shows the sessions that its filters accept (`Filters.accepts_iff`); one that nobody has told
what to hide shows just the sessions that a client can join (`Browser.shows_joinable`).
-/

namespace OnlinePlay

/-! ## What passes the filters -/

namespace Filters

/-- A session passes if each filter that is set lets it pass: it is of the region, asks for a
password or does not, and its game has not started. -/
theorem accepts_iff {f : Filters} {s : LobbySession} :
    f.accepts s ↔ (∀ region, f.region = some region → s.region = region) ∧
      (f.privacy = .openOnly → s.hasPassword = false) ∧
      (f.privacy = .lockedOnly → s.hasPassword = true) ∧
      (f.hideInGame = true → s.inGame = false) := by
  have ofRegion : f.region.all (· = s.region) = true ↔
      ∀ region, f.region = some region → s.region = region := by
    cases f.region <;> simp [eq_comm]
  have ofPrivacy : f.privacy.admits s.hasPassword = true ↔
      (f.privacy = .openOnly → s.hasPassword = false) ∧
        (f.privacy = .lockedOnly → s.hasPassword = true) := by
    cases f.privacy <;> simp [Privacy.admits]
  have notHidden : (!(f.hideInGame && s.inGame)) = true ↔
      (f.hideInGame = true → s.inGame = false) := by
    cases f.hideInGame <;> simp
  rw [accepts, Bool.and_eq_true, Bool.and_eq_true, ofRegion, ofPrivacy, notHidden, and_assoc,
    and_assoc]

/-- Filters that keep every session do so. -/
theorem apply_showAll (sessions : List LobbySession) : showAll.apply sessions = sessions :=
  List.filter_eq_self.2 fun s _ => accepts_iff.2 (by simp [showAll])

end Filters

/-! ## What an answer is worth -/

/-- What came of a request, to anybody who wants a listing. What is wrong with an answer is told
from the outside in: nothing is read of a body whose answer was not good, and no session of a
listing that does not say that it is good. -/
inductive Exchange.Yields : Exchange → Except DiscoveryError LobbyListing → Prop where
  | unreachable (detail : String) : Yields (.failed detail) (.error (.network detail))
  | refused {status : Nat} (body : Wire.Bytes) :
    status ≠ 200 →
    Yields (.answered status body) (.error (.badStatus ("HTTP " ++ toString status)))
  | unreadable {body : Wire.Bytes} {e : ProtocolError} :
    (Payload.decode body : Except ProtocolError LobbyListing) = .error e →
    Yields (.answered 200 body) (.error (.parse e))
  | troubled {body : Wire.Bytes} {listing : LobbyListing} :
    Payload.decode body = .ok listing →
    listing.status ≠ "OK" →
    Yields (.answered 200 body) (.error (.badStatus ("status " ++ listing.status)))
  | listed {body : Wire.Bytes} {listing : LobbyListing} :
    Payload.decode body = .ok listing →
    listing.status = "OK" →
    Yields (.answered 200 body) (.ok listing)

lemma Exchange.exists_yields (x : Exchange) : ∃ found, x.Yields found := by
  cases x with
  | failed detail => exact ⟨_, .unreachable detail⟩
  | answered status body =>
    by_cases good : status = 200
    · subst good
      cases decoded : (Payload.decode body : Except ProtocolError LobbyListing) with
      | error e => exact ⟨_, .unreadable decoded⟩
      | ok listing =>
        by_cases ok : listing.status = "OK"
        · exact ⟨_, .listed decoded ok⟩
        · exact ⟨_, .troubled decoded ok⟩
    · exact ⟨_, .refused body good⟩

namespace LobbyListing

/-- The sessions of a tag. -/
def ofTag (l : LobbyListing) (tag : String) : List LobbySession :=
  l.sessions.filter (·.version = tag)

/-- The sessions of a tag whose game has not started. -/
def joinable (l : LobbyListing) (tag : String) : List LobbySession :=
  l.sessions.filter fun s => s.version = tag ∧ s.inGame = false

lemma filter_ofTag (l : LobbyListing) {tag : String} {p : LobbySession → Bool}
    (waiting : ∀ s, p s = !s.inGame) : (l.ofTag tag).filter p = l.joinable tag := by
  rw [ofTag, joinable, List.filter_filter]
  refine List.filter_congr fun s _ => ?_
  rw [waiting s]
  cases s.inGame <;> simp

lemma version_of_joinable (l : LobbyListing) {tag : String} {s : LobbySession}
    (member : s ∈ l.joinable tag) : s.version = tag := by
  simp only [joinable, List.mem_filter, decide_eq_true_eq] at member
  exact member.2.1

end LobbyListing

/-! ## The two views -/

lemma Exchange.Yields.sessions {x : Exchange} {found : Except DiscoveryError LobbyListing}
    (yields : x.Yields found) (tag : String) :
    LobbyClient.sessions tag x = found.map (·.ofTag tag) := by
  cases yields with
  | unreachable detail => rfl
  | refused body bad => simp [LobbyClient.sessions, bad, Except.map]
  | unreadable decoded => simp [LobbyClient.sessions, LobbyListing.sessionsIn, decoded, Except.map]
  | troubled decoded status | listed decoded status =>
    simp [LobbyClient.sessions, LobbyListing.sessionsIn, decoded, LobbyListing.isOk,
      LobbyListing.okStatus, status, Except.map, LobbyListing.ofTag]

/-- A client finds the servers of the sessions that can be joined. -/
lemma Exchange.Yields.servers {x : Exchange} {found : Except DiscoveryError LobbyListing}
    (yields : x.Yields found) (c : LobbyClient) (tag : String) :
    c.servers tag x =
      found.map fun l => (l.joinable tag).map (·.server c.library c.config.maxPlayers) := by
  rw [LobbyClient.servers, yields.sessions tag]
  cases found with
  | error e => rfl
  | ok l => simp only [Except.map, l.filter_ofTag fun _ => rfl]

/-- What a browser publishes of a look, be it sessions that are shown or why there are none. -/
def BrowserUpdate.ofLook : Except DiscoveryError (List LobbySession) → BrowserUpdate
  | .ok shown => .sessions shown
  | .error e => .failed e.message

namespace Browser

/-- What a look comes to: the browser publishes the sessions that pass its filters, answers whoever
has told it to look, and keeps its list if there is no new one. -/
lemma fetched_eq {b : Browser} {command : Option Nat} (looking : b.phase = .fetching command)
    {x : Exchange} {listed : Except DiscoveryError (List LobbySession)}
    (sessions : LobbyClient.sessions b.lobby.config.protocolTag x = listed) :
    ∃ after, b.fetched? x = some (after,
        .publishes (.ofLook (listed.map b.filters.apply)) ::
          command.toList.map fun id =>
            .answers id (.refreshed (listed.map fun l => (b.filters.apply l).length))) ∧
      after.listed = listed.toOption.getD b.listed ∧
      after.filters = b.filters ∧
      after.update = some (.ofLook (listed.map b.filters.apply)) := by
  simp only [fetched?, looking, sessions]
  cases listed <;> exact ⟨_, rfl, rfl, rfl, rfl⟩

/-- A browser without filters of anyone's making and a client agree on every answer of the
directory: either both have what is wrong with it, or the browser shows the sessions of its tag
whose game has not started, as the directory lists them, and those are the servers of the client. -/
theorem shows_joinable (c : LobbyClient) (x : Exchange) {b : Browser} {command : Option Nat}
    (untouched : b.filters = {}) (looking : b.phase = .fetching command) :
    let tag := b.lobby.config.protocolTag
    (∃ found, x.Yields found) ∧
      ∀ found, x.Yields found →
        let joinable := found.map (·.joinable tag)
        c.servers tag x = joinable.map (·.map (·.server c.library c.config.maxPlayers)) ∧
        (∀ servers, c.servers tag x = .ok servers → ∀ s ∈ servers, s.protocolVersion = tag) ∧
        ∃ after, b.fetched? x = some (after,
            .publishes (.ofLook joinable) ::
              command.toList.map fun id => .answers id (.refreshed (joinable.map List.length))) ∧
          after.shown = joinable.toOption.getD b.shown ∧
          after.update = some (.ofLook joinable) := by
  intro tag
  refine ⟨x.exists_yields, fun found yields => ?_⟩
  have waiting (s : LobbySession) : b.filters.accepts s = !s.inGame := by
    rw [Bool.eq_iff_iff, Filters.accepts_iff, untouched]
    simp
  have shown (l : LobbyListing) : b.filters.apply (l.ofTag tag) = l.joinable tag :=
    l.filter_ofTag waiting
  obtain ⟨after, fetched, listed, filters, update⟩ := fetched_eq looking (yields.sessions tag)
  have servers := yields.servers c tag
  refine ⟨?_, ?_, after, ?_, ?_, ?_⟩
  · rw [servers]
    cases found <;> rfl
  · intro all ok server member
    rw [servers] at ok
    cases found with
    | error e => cases ok
    | ok l =>
      cases ok
      obtain ⟨s, inJoinable, rfl⟩ := List.mem_map.1 member
      exact l.version_of_joinable inJoinable
  · rw [fetched]
    cases found <;> simp [Except.map, shown]
  · rw [Browser.shown, listed, filters]
    cases found <;> simp [Except.map, shown, Except.toOption, Browser.shown]
  · rw [update]
    cases found <;> simp [Except.map, shown]

/-- A session that waits for players. -/
def waiting : LobbySession :=
  ⟨"1.1.1.1", "a", 2626, "RMCP01", 1, false, "MPN", "EU", "direct", false⟩

/-- A listing of a session that waits, twice, the same session in its game, and one of another
tag. -/
def mixed (status : String) : LobbyListing :=
  ⟨status, [waiting, { waiting with inGame := true }, { waiting with version := "5.0" }, waiting]⟩

theorem shows_joinable_mixed :
    let b : Browser := { start {} {} true 0 with phase := .fetching (some 7) }
    let good := Exchange.answered 200 (Payload.encode (mixed "OK"))
    let bad := Exchange.answered 200 (Payload.encode (mixed "BUSY"))
    (b.filters = {} ∧ b.phase = .fetching (some 7)) ∧
      (∃ after, b.fetched? good = some (after,
          [.publishes (.sessions [waiting, waiting]), .answers 7 (.refreshed (.ok 2))]) ∧
        b.lobby.servers "MPN" good =
          .ok ([waiting, waiting].map (·.server b.lobby.library b.lobby.config.maxPlayers))) ∧
      ∃ after, b.fetched? bad = some (after,
          [.publishes (.failed "lobby returned status BUSY"),
            .answers 7 (.refreshed (.error (.badStatus "status BUSY")))]) ∧
        b.lobby.servers "MPN" bad = .error (.badStatus "status BUSY") := by
  intro b good bad
  have decoded (l : LobbyListing) : Payload.decode (Payload.encode l) = .ok l :=
    (Payload.roundTrips_of_sound LobbyListing.closed_format.sound).decode_encode l trivial
  refine ⟨⟨rfl, rfl⟩, ?_, ?_⟩
  · have yields : good.Yields (.ok (mixed "OK")) := .listed (decoded _) rfl
    obtain ⟨-, seen⟩ := shows_joinable b.lobby good (b := b) rfl rfl
    obtain ⟨servers, -, after, fetched, -⟩ := seen _ yields
    exact ⟨after, fetched, servers⟩
  · have yields : bad.Yields (.error (.badStatus "status BUSY")) :=
      .troubled (decoded (mixed "BUSY")) (by decide)
    obtain ⟨-, seen⟩ := shows_joinable b.lobby bad (b := b) rfl rfl
    obtain ⟨servers, -, after, fetched, -⟩ := seen _ yields
    exact ⟨after, fetched, servers⟩

end Browser

end OnlinePlay
