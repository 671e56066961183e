import Vault.Text.Quoted

/-!
# Addresses of sockets

A socket address is an address of four octets or of eight groups of sixteen bits, and
the number of a socket there. It is read from its usual text – groups in brackets, with
at most one `::` for a run of zero groups and perhaps the last two groups as octets –
and written in the one way that leaves out the longest run of zero groups.
-/

namespace Vault

/-- The address of a socket. -/
inductive SocketAddress where
  /-- Four octets and a number. -/
  | v4 (octets : List Nat) (socket : Nat)
  /-- Eight groups, a scope and a number. -/
  | v6 (groups : List Nat) (scope socket : Nat)
  deriving DecidableEq, Repr

namespace SocketAddress

/-! ### Reading -/

/-- The value of a digit. -/
def digit? (radix : Nat) (c : Char) : Option Nat :=
  let n := c.toNat
  let value :=
    if 48 ≤ n ∧ n ≤ 57 then n - 48
    else if 97 ≤ n ∧ n ≤ 122 then n - 87
    else if 65 ≤ n ∧ n ≤ 90 then n - 55
    else radix
  if value < radix then some value else none

/-- The number that digits stand for. -/
def number (radix : Nat) (ds : List Nat) : Nat :=
  ds.foldl (fun n d => n * radix + d) 0

/-- A number of at most `limit`, in no more than `width` digits if there is a width. -/
def readNumber (radix : Nat) (width : Option Nat) (zeroFirst : Bool) (limit : Nat)
    (cs : List Char) : Option (Nat × List Char) :=
  let isDigit (c : Char) : Bool := (digit? radix c).isSome
  let ds := (cs.takeWhile isDigit).filterMap (digit? radix)
  let n := number radix ds
  if ds.isEmpty then none
  else if (width.map fun w => decide (w < ds.length)).getD false then none
  else if !zeroFirst && decide (1 < ds.length) && ds.head? == some 0 then none
  else if limit < n then none
  else some (n, cs.dropWhile isDigit)

/-- One character. -/
def readChar (c : Char) : List Char → Option (List Char)
  | d :: cs => if c = d then some cs else none
  | [] => none

/-- A separator, except in front of the first part. -/
def readSeparator (c : Char) (first : Bool) (cs : List Char) : Option (List Char) :=
  if first then some cs else readChar c cs

/-- Some octets, with points between them. -/
def readOctets : Nat → Bool → List Char → Option (List Nat × List Char)
  | 0, _, cs => some ([], cs)
  | n + 1, first, cs => do
    let cs ← readSeparator '.' first cs
    let (x, cs) ← readNumber 10 (some 3) false 255 cs
    let (xs, cs) ← readOctets n false cs
    return (x :: xs, cs)

/-- Up to `n` groups, with colons between them, and whether the last two were octets. -/
def readGroups : Nat → Bool → List Char → List Nat × Bool × List Char
  | 0, _, cs => ([], false, cs)
  | n + 1, first, cs =>
    let octets := do
      let cs ← readSeparator ':' first cs
      readOctets 4 true cs
    match (if 0 < n then octets else none) with
    | some ([a, b, c, d], cs) => ([a * 256 + b, c * 256 + d], true, cs)
    | _ =>
      let group := do
        let cs ← readSeparator ':' first cs
        readNumber 16 (some 4) true 65535 cs
      match group with
      | none => ([], false, cs)
      | some (g, cs) =>
        let (gs, octets, cs) := readGroups n false cs
        (g :: gs, octets, cs)

/-- Eight groups. -/
def readV6 (cs : List Char) : Option (List Nat × List Char) :=
  let (front, octets, cs) := readGroups 8 true cs
  if front.length = 8 then some (front, cs)
  else if octets then none
  else do
    let cs ← readChar ':' cs
    let cs ← readChar ':' cs
    let (back, _, cs) := readGroups (7 - front.length) true cs
    return (front ++ List.replicate (8 - front.length - back.length) 0 ++ back, cs)

/-- The number of a socket. -/
def readSocketNumber (cs : List Char) : Option (Nat × List Char) := do
  let cs ← readChar ':' cs
  readNumber 10 none true 65535 cs

/-- A scope, zero if there is none. -/
def readScope (cs : List Char) : Nat × List Char :=
  let scope := do
    let cs ← readChar '%' cs
    readNumber 10 none true (2 ^ 32 - 1) cs
  scope.getD (0, cs)

/-- Four octets and a number. -/
def readSocketV4 (cs : List Char) : Option (SocketAddress × List Char) := do
  let (octets, cs) ← readOctets 4 true cs
  let (socket, cs) ← readSocketNumber cs
  return (v4 octets socket, cs)

/-- Eight groups in brackets and a number. -/
def readSocketV6 (cs : List Char) : Option (SocketAddress × List Char) := do
  let cs ← readChar '[' cs
  let (groups, cs) ← readV6 cs
  let (scope, cs) := readScope cs
  let cs ← readChar ']' cs
  let (socket, cs) ← readSocketNumber cs
  return (v6 groups scope socket, cs)

/-- The address that a text stands for. -/
def parse? (s : String) : Option SocketAddress :=
  match (readSocketV4 s.toList).orElse fun _ => readSocketV6 s.toList with
  | some (a, []) => some a
  | _ => none

/-! ### Writing -/

/-- Octets with points between them. -/
def octetsText (octets : List Nat) : String :=
  ".".intercalate (octets.map toString)

/-- Groups with colons between them. -/
def groupsText (groups : List Nat) : String :=
  ":".intercalate (groups.map Text.hexNat)

/-- The longest run of zeros, by its start and length, the first of equally long ones.
`index` counts the groups before these, `run` is the run that ends there. -/
def longestRun : Nat → Nat × Nat → Nat × Nat → List Nat → Nat × Nat
  | _, _, best, [] => best
  | index, run, best, g :: gs =>
    if g = 0 then
      let run := if run.2 = 0 then (index, 1) else (run.1, run.2 + 1)
      longestRun (index + 1) run (if best.2 < run.2 then run else best) gs
    else longestRun (index + 1) (0, 0) best gs

/-- The text of eight groups. -/
def v6Text (groups : List Nat) : String :=
  match groups with
  | [0, 0, 0, 0, 0, 0xFFFF, a, b] =>
    "::ffff:" ++ octetsText [a / 256, a % 256, b / 256, b % 256]
  | groups =>
    let (start, len) := longestRun 0 (0, 0) (0, 0) groups
    if 1 < len then
      groupsText (groups.take start) ++ "::" ++ groupsText (groups.drop (start + len))
    else groupsText groups

/-- The text of an address. -/
def text : SocketAddress → String
  | v4 octets socket => octetsText octets ++ ":" ++ toString socket
  | v6 groups 0 socket => "[" ++ v6Text groups ++ "]:" ++ toString socket
  | v6 groups scope socket =>
    "[" ++ v6Text groups ++ "%" ++ toString scope ++ "]:" ++ toString socket

end SocketAddress

end Vault
