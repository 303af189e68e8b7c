/-!
# Options

The command line of the lobby browser. It is read from left to right, and the first thing that is
wrong with it, or the first wish for help, decides. A value stands after its option, or is attached
to it by an equals sign; only an attached one may start with a dash. No option may come twice.
-/

namespace OnlinePlay.Cli

/-- What the player wants to see, and perhaps to join. -/
structure Options where
  url : Option String := none
  tag : String := "MPN"
  region : Option String := none
  showInGame : Bool := false
  join : Option Nat := none
  username : String := "Player"
  deriving DecidableEq

/-- The options that there are. -/
inductive Switch where
  | url
  | tag
  | region
  | showInGame
  | join
  | username
  | help
  deriving DecidableEq

namespace Switch

/-- The name of an option, without its dashes. -/
def name : Switch → String
  | url => "url"
  | tag => "tag"
  | region => "region"
  | showInGame => "show-in-game"
  | join => "join"
  | username => "username"
  | help => "help"

/-- Every option. -/
def all : List Switch := [url, tag, region, showInGame, join, username, help]

end Switch

/-- Why nothing is to be shown. -/
inductive Refusal where
  /-- The player asks for help. -/
  | help
  /-- The command line is not understood. -/
  | usage
  deriving DecidableEq

/-- The number that a text of digits denotes, perhaps after a plus; it has to fit 64 bits. -/
def readIndex? (s : String) : Option Nat :=
  let digits := match s.toList with
    | '+' :: rest => rest
    | all => all
  if digits.isEmpty || !digits.all Char.isDigit then none
  else
    let n := digits.foldl (fun n c => n * 10 + (c.toNat - '0'.toNat)) 0
    if n < UInt64.size then some n else none

/-- Whether an argument is an option and not a value. -/
def looksLikeSwitch (s : String) : Bool :=
  match s.toList with
  | '-' :: _ :: _ => true
  | _ => false

/-- Gives an option its value. -/
def Options.assign (o : Options) (s : Switch) (value : String) : Except Refusal Options :=
  match s with
  | .url => .ok { o with url := some value }
  | .tag => .ok { o with tag := value }
  | .region => .ok { o with region := some value }
  | .username => .ok { o with username := value }
  | .join =>
    match readIndex? value with
    | some n => .ok { o with join := some n }
    | none => .error .usage
  | .showInGame | .help => .error .usage

/-- An argument after its two dashes: the option, and the value attached to it. -/
def splitSwitch (body : List Char) : Option (Switch × Option String) :=
  let name := String.ofList (body.takeWhile (· ≠ '='))
  let attached := match body.dropWhile (· ≠ '=') with
    | [] => none
    | _ :: value => some (String.ofList value)
  (Switch.all.find? (·.name = name)).map (·, attached)

/-- The value of an option and the arguments after it. -/
def takeValue (attached : Option String) (rest : List String) :
    Except Refusal (String × List String) :=
  match attached, rest with
  | some value, _ => .ok (value, rest)
  | none, value :: rest => if looksLikeSwitch value then .error .usage else .ok (value, rest)
  | none, [] => .error .usage

theorem length_of_takeValue {attached : Option String} {rest tail : List String} {value : String}
    (h : takeValue attached rest = .ok (value, tail)) : tail.length ≤ rest.length := by
  unfold takeValue at h
  split at h
  · cases h
    exact Nat.le_refl _
  · split at h
    · cases h
    · cases h
      simp
  · cases h

/-- Reads arguments, after those options that were given already. -/
def readFrom (o : Options) (given : List Switch) (args : List String) : Except Refusal Options :=
  match args with
  | [] => .ok o
  | arg :: rest =>
    match arg.toList with
    | ['-', '-'] => if rest.isEmpty then .ok o else .error .usage
    | '-' :: '-' :: body =>
      match splitSwitch body with
      | none => .error .usage
      | some (.help, attached) => .error (if attached.isNone then .help else .usage)
      | some (.showInGame, attached) =>
        if attached.isSome || given.contains .showInGame then .error .usage
        else readFrom { o with showInGame := true } (.showInGame :: given) rest
      | some (s, attached) =>
        match h : takeValue attached rest with
        | .error e => .error e
        | .ok (value, tail) =>
          have := length_of_takeValue h
          if given.contains s then .error .usage
          else
            match o.assign s value with
            | .error e => .error e
            | .ok o => readFrom o (s :: given) tail
    | ['-'] => .error .usage
    | '-' :: short :: _ => .error (if short = 'h' then .help else .usage)
    | _ => .error .usage
termination_by args.length
decreasing_by all_goals simp only [List.length_cons]; omega

/-- Reads the command line. Address and name may also come from the environment. -/
def Options.read (url username : Option String) (args : List String) : Except Refusal Options :=
  let usual : Options := {}
  readFrom { usual with url, username := username.getD usual.username } [] args

/-- What there is to know about the options. -/
def helpText : List String :=
  ["List NetPlay lobby sessions and optionally join one",
    "",
    "Usage: lobby-browser [OPTIONS]",
    "",
    "Options:",
    "      --url <URL>            Session directory to query [env: MPN_LOBBY_URL=]",
    "      --tag <TAG>            Protocol tag sessions must advertise [default: MPN]",
    "      --region <REGION>      Only show sessions from this region code (US, EU, JP, ...)",
    "      --show-in-game         Also list sessions whose game already started",
    "      --join <JOIN>          Join the session at this index over the loopback core",
    "      --username <USERNAME>  [env: MPN_USERNAME=] [default: Player]",
    "  -h, --help                 Print help"]

/-- What is said of a command line that is not understood. -/
def usageText : List String :=
  ["error: the arguments are not understood", "For more information, try '--help'."]

end OnlinePlay.Cli
