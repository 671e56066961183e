import Std.Time.DateTime.Timestamp
import Vault.Service.Exchange
import Vault.Settings
import Vault.Store.Migration

/-!
# The command line

The program takes its settings from its arguments and its environment, and serves one
connection on its standard streams from a database of its own. What is logged goes to
the standard error stream.
-/

namespace Vault.Main

/-- What the clock says. -/
def clock : IO Timestamp := do
  let t ← Std.Time.Timestamp.now
  return .clamp (t.toNanosecondsSinceUnixEpoch.val / 1000)

/-- More random bytes than a connection can draw for this many bytes that arrive. -/
def entropy (arriving : Nat) : IO Entropy := do
  let pool ← IO.getRandomBytes (UInt64.ofNat (arriving * 2 + 256)).toUSize
  return .seeded pool 0

/-- One line of the log. -/
def logLine (r : LogRecord) : String :=
  let level := match r.level with
    | .info => "INFO"
    | .warn => "WARN"
    | .error => "ERROR"
  " ".intercalate (level :: r.message :: r.fields.map fun f => f.1 ++ "=" ++ f.2)

/-- Write what was logged. -/
def writeLog (x : Exchange Database) : IO (Exchange Database) := do
  x.host.log.forM fun r => IO.eprintln (logLine r)
  return { x with host := { x.host with log := [] } }

/-- How many bytes are read at once. -/
def chunk : Nat := 65536

/-- Serve until the connection is over or nothing more can come of it. `swept` is when
documents were last looked at. -/
partial def serve (p : Retention.Policy) (swept : Timestamp) (x : Exchange Database) :
    IO (Option (Except ServiceError Unit)) := do
  let stdin ← IO.getStdin
  let stdout ← IO.getStdout
  let arrived ← stdin.read (UInt64.ofNat chunk).toUSize
  let now ← clock
  let x := { x with host := { x.host with now, entropy := ← entropy arrived.size } }
  let due := decide (swept.forward p.interval ≤ now)
  let x := if due then x.sweep p.maxAge else x
  let x := if arrived.size = 0 then x.arriveEnd else x.arrive arrived
  let (written, x) := Exchange.run (chunk * chunk) x ByteArray.empty
  stdout.write written
  stdout.flush
  let x ← writeLog x
  match x.result? with
  | some r => return some r
  | none =>
    if arrived.size = 0 then return none
    else serve p (if due then now else swept) x

/-- Serve one connection. -/
def connection (s : Settings) : IO UInt32 := do
  let now ← clock
  let (_, store) := Database.migrate {}
  match ← serve s.retention now (.fresh { store, now, entropy := ← entropy 0 }) with
  | some (.error e) =>
    IO.eprintln ("Error: " ++ e.message)
    return 1
  | _ => return 0

/-- Tell the caller why nothing is served; to say what was asked for is no failure. -/
def explain (e : Settings.UsageError) : IO UInt32 :=
  match e with
  | .helpAsked => do
    IO.println e.message
    return 0
  | .versionAsked => do
    IO.println e.message
    return 0
  | e => do
    IO.eprintln e.message
    return 2

/-- The variables that settings are taken from. -/
def environment : IO (List (String × String)) :=
  Settings.Key.all.filterMapM fun k => do
    return (← IO.getEnv k.envName).map fun v => (k.envName, v)

end Vault.Main

/-- Serve one connection on the standard streams. -/
def main (args : List String) : IO UInt32 := do
  let env ← Vault.Main.environment
  match Vault.Settings.parse args fun name => env.lookup name with
  | .error e => Vault.Main.explain e
  | .ok s =>
    match s.validate with
    | .error e => do
      IO.eprintln ("Error: " ++ e.message)
      return 1
    | .ok _ => Vault.Main.connection s
