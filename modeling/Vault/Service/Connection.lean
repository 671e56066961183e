import Vault.Service.Error
import Vault.Session.Server

/-!
# Connections

The service reads the first frame of a connection and does what it asks for: it
acknowledges a ping, or it runs a session of echoes or of requests. A connection that
opens with anything else is refused, with the reason as a status.
-/

namespace Vault

/-- Where a connection stands. -/
inductive Connection where
  /-- Waiting for the first frame, of which this much has arrived. -/
  | opening (reading : Frame.Reading)
  /-- Acknowledging a ping; `rest` is what is left of the last frame. -/
  | acknowledging (rest : Option Bytes)
  /-- Refusing the connection for this reason. -/
  | refusing (e : ServiceError) (s : Status) (rest : Option Bytes)
  /-- Running a session. -/
  | session (r : Server.Running)
  /-- Over. -/
  | ended (result : Except ServiceError Unit)

namespace Connection

variable {σ : Type}

/-- A connection on which nothing has arrived. -/
def fresh : Connection := opening {}

/-- The outcome of a connection that is over. -/
def result? : Connection → Option (Except ServiceError Unit)
  | ended r => some r
  | _ => none

/-- Say the last frame after a ping. -/
def acknowledge (rest : Option Bytes) (side : Side) (link : Link) : Connection × Link :=
  match link.finish side (.ok ()) rest with
  | (link, .waiting rest) => (acknowledging rest, link)
  | (link, .ready (.ok _)) => (ended (.ok ()), link)
  | (link, .ready (.error e)) => (ended (.error (.link e)), link)

/-- Say why the connection is refused. The last frame may get lost. -/
def sayWhy (e : ServiceError) (s : Status) (rest : Option Bytes) (side : Side) (link : Link) :
    Connection × Link :=
  match link.finish side (.error s) rest with
  | (link, .waiting rest) => (refusing e s rest, link)
  | (link, .ready _) => (ended (.error e), link)

/-- Refuse a connection. -/
def refuse (e : ServiceError) (side : Side) (link : Link) (host : Host σ) :
    Connection × Link × Host σ :=
  let s := Status.invalidArgument e.message
  let (c, link) := sayWhy e s none side link
  (c, link, host.recordStatus s)

/-- A session that has been run. -/
def ofRun (r : Server.Stop × Link × Host σ) : Connection × Link × Host σ :=
  match r with
  | (.waits r, link, host) => (session r, link, host)
  | (.ends _ (.ok _), link, host) => (ended (.ok ()), link, host)
  | (.ends _ (.error e), link, host) => (ended (.error (.session e)), link, host)

variable [Store σ]

/-- Run a session on a fresh stream. -/
def runSession (call : Server.Call) (side : Side) (link : Link) (host : Host σ) :
    Connection × Link × Host σ :=
  ofRun (Server.run call side .awaitingPeerKey link host)

/-- The first frame has arrived, or something in its place. -/
def opened (x : Except LinkError (Option Frame)) (side : Side) (link : Link) (host : Host σ) :
    Connection × Link × Host σ :=
  match x with
  | .ok (some (.open .ping)) =>
    let (c, link) := acknowledge none side link
    (c, link, host)
  | .ok (some (.open .echo)) => runSession .echo side link host
  | .ok (some (.open .session)) => runSession .serve side link host
  | .ok (some f) =>
    refuse (.protocol ("expected an open frame, got " ++ f.kindName)) side link host
  | .ok none => (ended (.ok ()), link, host)
  | .error e => refuse (.link e) side link host

/-- Run a connection until it waits or is over. -/
def advance (c : Connection) (side : Side) (link : Link) (host : Host σ) :
    Connection × Link × Host σ :=
  match c with
  | opening reading =>
    match link.receive side reading with
    | (link, .waiting reading) => (opening reading, link, host)
    | (link, .ready x) => opened x side link host
  | acknowledging rest =>
    let (c, link) := acknowledge rest side link
    (c, link, host)
  | refusing e s rest =>
    let (c, link) := sayWhy e s rest side link
    (c, link, host)
  | session r => ofRun (Server.resume r side link host)
  | ended result => (ended result, link, host)

end Connection

end Vault
