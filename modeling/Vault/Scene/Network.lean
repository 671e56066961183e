import Vault.Link
import Vault.Settings

/-!
# The network of a rehearsal

Connections over the network are links of pipes to whoever listens. A network that does
not reach the listener refuses every connection. Addresses are found by their numbers
only; nobody is asked for the number of a name.

The listener may be an **understudy**: it reads one frame, writes the frames it was
given, and leaves.
-/

namespace Vault

/-! ### The understudy -/

/-- Somebody who plays the server's part. -/
inductive Understudy where
  /-- Waiting for a frame, of which this much has arrived, with the frames to write. -/
  | listening (reading : Frame.Reading) (frames : List Frame)
  /-- Writing frames; `rest` is what is left of the first. -/
  | playing (rest : Option Bytes) (frames : List Frame)
  /-- Gone. -/
  | gone

namespace Understudy

/-- Write frames until one has to wait. Whoever cannot be reached is left alone. -/
def play (side : Side) : Option Bytes → List Frame → Link → Understudy × Link
  | _, [], link => (gone, link)
  | rest, f :: fs, link =>
    match link.send side f rest with
    | (link, .waiting rest) => (playing rest (f :: fs), link)
    | (link, .ready (.ok _)) => play side none fs link
    | (link, .ready (.error _)) => (gone, link)

/-- Play on until something has to wait. -/
def advance (u : Understudy) (side : Side) (link : Link) : Understudy × Link :=
  match u with
  | listening reading frames =>
    match link.receive side reading with
    | (link, .waiting reading) => (listening reading frames, link)
    | (link, .ready _) => play side none frames link
  | playing rest frames => play side rest frames link
  | gone => (gone, link)

end Understudy

/-! ### Listeners -/

/-- Who listens on the network. -/
inductive Listener where
  /-- The service. -/
  | service
  /-- An understudy with these frames for each connection. -/
  | understudy (frames : List Frame)

/-- A network. -/
structure Network where
  /-- Whether connections reach the listener. -/
  reachable : Bool := false
  /-- Who listens, if anybody. -/
  listener : Option Listener := none

namespace Network

/-- How many bytes a connection holds in each direction. -/
def window : Nat := 2 ^ 24

/-- How long a listener that stops waits for its connections, unless told otherwise. -/
def drain : Duration := .ofSecs 10

/-- Who answers a connection. -/
def answering? (n : Network) : Option Listener :=
  if n.reachable then n.listener else none

/-- The wording for a connection that nobody answers. -/
def refused : ServiceError := .io "connection refused"

/-! ### Addresses -/

/-- The number in one part of an address in numbers: decimal, octal after a zero, or
hexadecimal after a zero and an x. -/
def readPart (cs : List Char) : Option Nat :=
  let digits (radix : Nat) (cs : List Char) : Option Nat := do
    let ds ← cs.mapM (SocketAddress.digit? radix)
    return SocketAddress.number radix ds
  match cs with
  | [] => none
  | ['0'] => some 0
  | '0' :: 'x' :: cs => if cs.isEmpty then none else digits 16 cs
  | '0' :: 'X' :: cs => if cs.isEmpty then none else digits 16 cs
  | '0' :: cs => digits 8 cs
  | cs => digits 10 cs

/-- The four octets of a number. -/
def octets (n : Nat) : List Nat :=
  [n / 2 ^ 24, n / 2 ^ 16 % 256, n / 2 ^ 8 % 256, n % 256]

/-- The number that parts stand for: each part but the last is an octet, and the last fills
the octets that are left. -/
def joinParts : Nat → List Nat → Option Nat
  | _, [] => none
  | room, [n] => if n < 256 ^ room then some n else none
  | room, n :: ns =>
    match room with
    | 0 => none
    | room + 1 => if n < 256 then (joinParts room ns).map (n * 256 ^ room + ·) else none

/-- The interfaces of the machine, by their names. -/
def interfaces : List (String × Nat) := [("lo", 1)]

/-- Whether an address means something on one interface only. -/
def isLinkLocal (groups : List Nat) : Bool :=
  match groups with
  | g :: _ => decide (0xFE80 ≤ g ∧ g < 0xFEC0) || decide (0xFF00 ≤ g ∧ g % 16 = 2)
  | [] => false

/-- The scope behind an address: zero if nothing stands there, otherwise a number or, where
the address is bound to an interface, the name of one. -/
def scope? (groups : List Nat) : List Char → Option Nat
  | [] => some 0
  | '%' :: cs =>
    let named := if isLinkLocal groups then interfaces.lookup (String.ofList cs) else none
    named.orElse fun _ =>
      match SocketAddress.readNumber 10 none true (2 ^ 32 - 1) cs with
      | some (n, []) => some n
      | _ => none
  | _ => none

/-- A host given by its number. -/
def host? (cs : List Char) (socket : Nat) : Option SocketAddress :=
  let long : Option SocketAddress := do
    let (groups, cs) ← SocketAddress.readV6 cs
    let scope ← scope? groups cs
    return .v6 groups scope socket
  long.orElse fun _ => do
    let parts ← ((String.ofList cs).splitOn ".").mapM fun s => readPart s.toList
    let n ← joinParts 4 parts
    return .v4 (octets n) socket

/-- The last colon of a text divides the host from the number of the socket. -/
def splitSocket (cs : List Char) : Option (List Char × List Char) :=
  let socket := cs.reverse.takeWhile (· != ':')
  if socket.length < cs.length then
    some ((cs.reverse.drop (socket.length + 1)).reverse, socket.reverse)
  else none

/-- The address of a server. -/
def resolve? (s : String) : Option SocketAddress :=
  (SocketAddress.parse? s).orElse fun _ => do
    let (host, socket) ← splitSocket s.toList
    let socket ← (Settings.readNumber (String.ofList socket)).toOption
    if socket.toNat < 2 ^ 16 then host? host socket.toNat else none

end Network

end Vault
