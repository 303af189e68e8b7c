import OnlinePlay.Lobby.Browser
import OnlinePlay.Lobby.Directory

/-!
# Rehearsing a browser

A browser together with a scripted directory and a clock of its own. Whatever the browser can do by
itself it does at once.
-/

namespace OnlinePlay

/-- A browser, the directory it looks at, and what has left it so far. -/
structure Browsing where
  browser : Browser
  directory : Directory
  answers : List (Nat × BrowserAnswer) := []
  /-- How many updates were published. -/
  published : Nat := 0

namespace Browsing

/-- Keeps what has left the browser. -/
def record (b : Browsing) : BrowserEffect → Browsing
  | .publishes _ => { b with published := b.published + 1 }
  | .answers id answer => { b with answers := b.answers ++ [(id, answer)] }
  | .fetches _ => b

/-- Lets something happen to the browser, if it can. -/
def proceed (b : Browsing) (h : BrowserHappening) : Browsing × List BrowserEffect :=
  match b.browser.step? h with
  | none => (b, [])
  | some (browser, effects) => (effects.foldl record { b with browser }, effects)

/-- Lets the directory answer a look, and the browser take the answer. -/
def look (b : Browsing) : BrowserEffect → Browsing
  | .fetches tag =>
    let (exchange, time, directory) := b.directory.ask b.browser.lobby.config tag
    let (b, _) := { b with directory }.proceed (.elapse time)
    (b.proceed (.fetched exchange)).1
  | _ => b

/-- Lets something happen to the browser, and the directory answer. -/
def happen (b : Browsing) (h : BrowserHappening) : Browsing :=
  let (b, effects) := b.proceed h
  effects.foldl look b

/-- Lets the browser look by itself if the time has come. -/
def refresh (b : Browsing) : Browsing := b.happen .refresh

/-- Tells the browser something and lets it serve that. -/
def tell (b : Browsing) (command : BrowserCommand) : Option BrowserAnswer × Browsing :=
  let id := b.browser.nextCommand
  let b := (b.happen (.told command)).happen .serve
  (b.answers.lookup id, b)

/-- Lets time pass in pieces; after each the browser may look by itself. -/
def elapse (b : Browsing) (piece : Nat) : Nat → Browsing
  | 0 => b
  | n + 1 => ((b.happen (.elapse piece)).refresh).elapse piece n

end Browsing

end OnlinePlay
