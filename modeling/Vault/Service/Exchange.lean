import Vault.Retention
import Vault.Service.Connection

/-!
# A connection over streams of bytes

Whoever carries bytes to and from the outside works a connection by **exchanges**: some
bytes arrive, the connection runs on, and the bytes it has written are taken away. An
exchange runs the connection again as long as it writes, since it may have waited for
room.
-/

namespace Vault

/-- A connection between a host and the outside. -/
structure Exchange (σ : Type) where
  /-- The host. -/
  host : Host σ
  /-- The link; the outside is its left end. -/
  link : Link
  /-- The connection at the right end. -/
  connection : Connection := .fresh

namespace Exchange

variable {σ : Type}

/-- How many bytes may be under way in each direction. -/
def window : Nat := 2 ^ 24

/-- A connection on which nothing has arrived. -/
def fresh (host : Host σ) : Exchange σ where
  host := host
  link := .framed window

/-- The outcome of a connection that is over. -/
def result? (x : Exchange σ) : Option (Except ServiceError Unit) :=
  x.connection.result?

/-- Bytes arrive. What finds no room is lost, so no more than a window may arrive at once. -/
def arrive (x : Exchange σ) (b : Bytes) : Exchange σ :=
  match x.link.forth with
  | .queue _ => x
  | .pipe p => { x with link := { x.link with forth := .pipe (p.write b).1 } }

/-- Nothing more will arrive. -/
def arriveEnd (x : Exchange σ) : Exchange σ :=
  { x with link := { x.link with forth := x.link.forth.dropSender } }

/-- Take away what the connection has written. -/
def collect (x : Exchange σ) : Bytes × Exchange σ :=
  match x.link.back with
  | .queue _ => (ByteArray.empty, x)
  | .pipe p =>
    let emptied : Lane := .pipe { p with buffered := ByteArray.empty }
    (p.buffered, { x with link := { x.link with back := emptied } })

/-- Delete the documents that are too old. -/
def sweep [Store σ] (maxAge : Duration) (x : Exchange σ) : Exchange σ :=
  { x with host := (Retention.sweepOnce maxAge x.host).2 }

/-- Run the connection and take away what it writes, as long as it writes anything and for
at most `fuel` times. -/
def run [Store σ] : Nat → Exchange σ → Bytes → Bytes × Exchange σ
  | 0, x, out => (out, x)
  | fuel + 1, x, out =>
    let (connection, link, host) := x.connection.advance .right x.link x.host
    let (written, x) := collect ⟨host, link, connection⟩
    if written.size = 0 then (out, x) else run fuel x (out ++ written)

end Exchange

end Vault
