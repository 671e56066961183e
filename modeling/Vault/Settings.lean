import Vault.Retention
import Vault.Settings.Address
import Vault.Text.Terminal

/-!
# Settings

The server is set up by flags on its command line and, for what they leave open, by
variables of its environment. Flags are read from left to right. A flag that wants a
value takes the next argument, unless that looks like a flag; its value is looked at
when the next flag is reached, so an argument that nobody knows is noticed first.
Variables are looked at in the order of the settings, and only when all flags are good.
-/

namespace Vault

/-- What the server is set up with. -/
structure Settings where
  /-- Where it listens. -/
  listen : SocketAddress := .v4 [0, 0, 0, 0] 5005
  /-- Where it keeps its database. -/
  dataDir : String := "./data"
  /-- How many seconds documents are kept. -/
  maxDocumentAgeSecs : UInt64 := 1800
  /-- How many seconds lie between sweeps. -/
  sweepIntervalSecs : UInt64 := 60
  /-- How many seconds it waits when it stops. -/
  shutdownTimeoutSecs : UInt64 := 10
  /-- Whether it logs in a structured form. -/
  jsonLogs : Bool := false
  deriving DecidableEq, Repr

namespace Settings

/-! ### What follows from the settings -/

/-- The name of the database in its directory. -/
def databaseFile : String := "neuron.db"

/-- Where the database is. -/
def databasePath (s : Settings) : String :=
  if s.dataDir.endsWith "/" then s.dataDir ++ databaseFile
  else s.dataDir ++ "/" ++ databaseFile

/-- What the sweeper goes by. -/
def retention (s : Settings) : Retention.Policy :=
  ⟨.ofSecs s.maxDocumentAgeSecs, .ofSecs s.sweepIntervalSecs⟩

/-- How long the server waits when it stops. -/
def shutdownTimeout (s : Settings) : Duration :=
  .ofSecs s.shutdownTimeoutSecs

/-- The server cannot run with a length of time of zero. -/
def validate (s : Settings) : Except ServiceError Unit :=
  if s.maxDocumentAgeSecs = 0 then
    .error (.config "max document age must be at least one second")
  else if s.sweepIntervalSecs = 0 then
    .error (.config "sweep interval must be at least one second")
  else if s.shutdownTimeoutSecs = 0 then
    .error (.config "shutdown timeout must be at least one second")
  else .ok ()

/-! ### Flags -/

/-- What can be set. -/
inductive Key where
  | listen
  | dataDir
  | maxDocumentAgeSecs
  | sweepIntervalSecs
  | shutdownTimeoutSecs
  | jsonLogs
  deriving DecidableEq, Repr

namespace Key

/-- Everything that can be set, in order. -/
def all : List Key :=
  [listen, dataDir, maxDocumentAgeSecs, sweepIntervalSecs, shutdownTimeoutSecs, jsonLogs]

/-- The name of the flag. -/
def flag : Key → String
  | listen => "listen"
  | dataDir => "data-dir"
  | maxDocumentAgeSecs => "max-document-age-secs"
  | sweepIntervalSecs => "sweep-interval-secs"
  | shutdownTimeoutSecs => "shutdown-timeout-secs"
  | jsonLogs => "json-logs"

/-- The name of the variable. -/
def envName : Key → String
  | listen => "NEURON_LISTEN"
  | dataDir => "NEURON_DATA_DIR"
  | maxDocumentAgeSecs => "NEURON_MAX_DOCUMENT_AGE_SECS"
  | sweepIntervalSecs => "NEURON_SWEEP_INTERVAL_SECS"
  | shutdownTimeoutSecs => "NEURON_SHUTDOWN_TIMEOUT_SECS"
  | jsonLogs => "NEURON_JSON_LOGS"

/-- The flag with its value, if it takes one, in a message. -/
def shown : Key → String
  | listen => "--listen <LISTEN>"
  | dataDir => "--data-dir <DATA_DIR>"
  | maxDocumentAgeSecs => "--max-document-age-secs <MAX_DOCUMENT_AGE_SECS>"
  | sweepIntervalSecs => "--sweep-interval-secs <SWEEP_INTERVAL_SECS>"
  | shutdownTimeoutSecs => "--shutdown-timeout-secs <SHUTDOWN_TIMEOUT_SECS>"
  | jsonLogs => "--json-logs"

/-- Whether the flag takes a value. -/
def takesValue : Key → Bool
  | jsonLogs => false
  | _ => true

end Key

/-- Why the server is not set up. -/
inductive UsageError where
  /-- A value makes no sense, for this reason. -/
  | invalidValue (value shown reason : String)
  /-- A value is not one of a few. -/
  | notAChoice (value shown : String)
  /-- A value is missing. -/
  | missingValue (shown : String)
  /-- A flag is given twice. -/
  | repeated (shown : String)
  /-- A flag that takes no value has one. -/
  | unwantedValue (value shown : String)
  /-- An argument that nobody knows. -/
  | unknownArgument (argument : String)
  /-- The caller asked what the program is. -/
  | helpAsked
  /-- The caller asked for its version. -/
  | versionAsked
  deriving DecidableEq, Repr

namespace UsageError

/-- What the caller is told. What the caller wrote is shown without anything that steers a
terminal. -/
def message : UsageError → String
  | invalidValue value shown reason =>
    "error: invalid value '" ++ Text.unstyled value ++ "' for '" ++ shown ++ "': " ++ reason
  | notAChoice value shown =>
    "error: invalid value '" ++ Text.unstyled value ++ "' for '" ++ shown ++ "'"
  | missingValue shown =>
    "error: a value is required for '" ++ shown ++ "' but none was supplied"
  | repeated shown => "error: the argument '" ++ shown ++ "' cannot be used multiple times"
  | unwantedValue value shown =>
    "error: unexpected value '" ++ Text.unstyled value ++ "' for '" ++ shown ++
      "' found; no more were expected"
  | unknownArgument argument =>
    "error: unexpected argument '" ++ Text.unstyled argument ++ "' found"
  | helpAsked => "Neuron encrypted document vault"
  | versionAsked => "neuron 0.1.0"

/-- The first line of a text. -/
def firstLine (s : String) : String :=
  let line := s.toList.takeWhile (· != '\n')
  if line.length < s.length ∧ line.getLast? = some '\r' then String.ofList line.dropLast
  else String.ofList line

/-- The first line of what the caller is told. -/
def headline (e : UsageError) : String :=
  firstLine e.message

end UsageError

/-! ### Values -/

/-- Why a text is not a number. -/
inductive NumberError where
  | empty
  | invalidDigit
  | tooLarge
  deriving DecidableEq, Repr

/-- The reason in words. -/
def NumberError.message : NumberError → String
  | empty => "cannot parse integer from empty string"
  | invalidDigit => "invalid digit found in string"
  | tooLarge => "number too large to fit in target type"

/-- Read digits from left to right, as long as the number fits 64 bits. -/
def readDigits : Nat → List Char → Except NumberError Nat
  | n, [] => .ok n
  | n, c :: cs =>
    match SocketAddress.digit? 10 c with
    | none => .error .invalidDigit
    | some d =>
      let n := n * 10 + d
      if 2 ^ 64 ≤ n then .error .tooLarge else readDigits n cs

/-- A number that fits 64 bits, perhaps with a plus in front. -/
def readNumber (s : String) : Except NumberError UInt64 :=
  match s.toList with
  | [] => .error .empty
  | ['+'] => .error .invalidDigit
  | '+' :: cs => (readDigits 0 cs).map UInt64.ofNat
  | cs => (readDigits 0 cs).map UInt64.ofNat

/-- A number as a value of a flag. -/
def numberFor (k : Key) (value : String) : Except UsageError UInt64 :=
  match readNumber value with
  | .ok n => .ok n
  | .error e => .error (.invalidValue value k.shown e.message)

/-- Set something to a value. -/
def set (s : Settings) (k : Key) (value : String) : Except UsageError Settings :=
  match k with
  | .listen =>
    match SocketAddress.parse? value with
    | some a => .ok { s with listen := a }
    | none => .error (.invalidValue value k.shown "invalid socket address syntax")
  | .dataDir =>
    if value = "" then .error (.missingValue k.shown) else .ok { s with dataDir := value }
  | .maxDocumentAgeSecs => (numberFor k value).map fun n => { s with maxDocumentAgeSecs := n }
  | .sweepIntervalSecs => (numberFor k value).map fun n => { s with sweepIntervalSecs := n }
  | .shutdownTimeoutSecs =>
    (numberFor k value).map fun n => { s with shutdownTimeoutSecs := n }
  | .jsonLogs =>
    if value = "true" then .ok { s with jsonLogs := true }
    else if value = "false" then .ok { s with jsonLogs := false }
    else if value = "" then .error (.missingValue k.shown)
    else .error (.notAChoice value k.shown)

/-! ### The command line -/

/-- The settings while the command line is being read. -/
structure Reading where
  /-- What has been set. -/
  settings : Settings := {}
  /-- Which settings have been set. -/
  given : List Key := []
  /-- A flag whose value has not been looked at, with the value if there is one. -/
  pending : Option (Key × Option String) := none

namespace Reading

/-- Set something, once. -/
def give (r : Reading) (k : Key) (value : String) : Except UsageError Reading :=
  if k ∈ r.given then .error (.repeated k.shown)
  else
    match r.settings.set k value with
    | .error e => .error e
    | .ok s => .ok { settings := s, given := k :: r.given }

/-- Look at the value of the last flag. -/
def settle (r : Reading) : Except UsageError Reading :=
  match r.pending with
  | none => .ok r
  | some (k, none) => .error (.missingValue k.shown)
  | some (k, some value) => { r with pending := none }.give k value

/-- A flag of this name, with what stands after its equals sign. -/
def long (r : Reading) (name : String) (value : Option String) : Except UsageError Reading :=
  match Key.all.find? fun k => k.flag == name with
  | some k =>
    if k.takesValue then
      match r.settle, value with
      | .error e, _ => .error e
      | .ok r, some v => r.give k v
      | .ok r, none => .ok { r with pending := some (k, none) }
    else
      match value with
      | some v => .error (.unwantedValue v k.shown)
      | none =>
        match r.settle with
        | .error e => .error e
        | .ok r => r.give k "true"
  | none =>
    let asked (e : UsageError) : Except UsageError Reading :=
      match value with
      | some v => .error (.unwantedValue v ("--" ++ name))
      | none =>
        match r.settle with
        | .error e => .error e
        | .ok _ => .error e
    if name = "help" then asked .helpAsked
    else if name = "version" then asked .versionAsked
    else .error (.unknownArgument ("--" ++ name))

/-- A flag of one letter. -/
def short (r : Reading) (c : Char) : Except UsageError Reading :=
  let asked (e : UsageError) : Except UsageError Reading :=
    match r.settle with
    | .error e => .error e
    | .ok _ => .error e
  if c = 'h' then asked .helpAsked
  else if c = 'V' then asked .versionAsked
  else .error (.unknownArgument ("-" ++ c.toString))

/-- An argument that is no flag: the value of the last flag, if that wants one. -/
def plain (r : Reading) (argument : String) : Except UsageError Reading :=
  match r.pending with
  | some (k, none) => .ok { r with pending := some (k, some argument) }
  | _ => .error (.unknownArgument argument)

/-- One argument in front of `--`. -/
def argument (r : Reading) (argument : String) : Except UsageError Reading :=
  match argument.toList with
  | '-' :: '-' :: cs =>
    let name := cs.takeWhile (· != '=')
    let value := if name.length < cs.length then some (cs.drop (name.length + 1)) else none
    r.long (String.ofList name) (value.map String.ofList)
  | '-' :: c :: _ => r.short c
  | _ => r.plain argument

/-- The command line. Behind `--` nothing is expected. -/
def line : List String → Reading → Except UsageError Reading
  | [], r => r.settle
  | "--" :: [], r => r.settle
  | "--" :: a :: _, _ => .error (.unknownArgument a)
  | a :: rest, r =>
    match r.argument a with
    | .error e => .error e
    | .ok r => line rest r

/-- The variables of what the flags left open. -/
def environment (env : String → Option String) : List Key → Reading → Except UsageError Reading
  | [], r => .ok r
  | k :: ks, r =>
    if k ∈ r.given then environment env ks r
    else
      match env k.envName with
      | none => environment env ks r
      | some value =>
        match r.give k value with
        | .error e => .error e
        | .ok r => environment env ks r

end Reading

/-- The settings of a command line and an environment. -/
def parse (args : List String) (env : String → Option String) : Except UsageError Settings :=
  match Reading.line args {} with
  | .error e => .error e
  | .ok r =>
    match Reading.environment env Key.all r with
    | .error e => .error e
    | .ok r => .ok r.settings

end Settings

end Vault
