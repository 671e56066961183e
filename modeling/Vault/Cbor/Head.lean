import Vault.Bytes
import Vault.Cbor.Error
import Vault.Decimal.Plain

/-!
# Heads of items

Every CBOR item begins with a **head**: three bits of major type and an argument in
the rest of the first byte or in the one, two, four or eight bytes after it. This
file reads one head from a cursor and writes the shortest head of a given argument.

The offset in a complaint about an item is where its head begins. A head that was
looked at and put back counts as if it had been written in the shortest way
(`Vault.Cbor.Head.nominalStart`), which differs from its true offset when it was
not.
-/

namespace Vault.Cbor

/-! ### Cursors -/

/-- A position in a byte string. -/
structure Cursor where
  /-- The whole input. -/
  input : Bytes
  /-- The offset of the next byte. -/
  pos : Nat := 0

namespace Cursor

/-- How many bytes are left. -/
def left (c : Cursor) : Nat :=
  c.input.size - c.pos

/-- The next `n` bytes, if there are as many. -/
def take? (c : Cursor) (n : Nat) : Option (Bytes × Cursor) :=
  if c.pos + n ≤ c.input.size then
    some (c.input.extract c.pos (c.pos + n), { c with pos := c.pos + n })
  else none

/-- The next `n` bytes, or the complaint that they run out. -/
def take (c : Cursor) (n : Nat) : Except Error (Bytes × Cursor) :=
  match c.take? n with
  | some r => .ok r
  | none => .error .inputEnds

end Cursor

/-! ### Heads -/

/-- The first part of an item. A length of `none` announces pieces up to a break. -/
inductive Head where
  /-- A number. -/
  | positive (n : Nat)
  /-- The number `-1 - n`. -/
  | negative (n : Nat)
  /-- A byte string. -/
  | bytes (len : Option Nat)
  /-- A text. -/
  | text (len : Option Nat)
  /-- An array of items. -/
  | array (len : Option Nat)
  /-- A map of pairs of items. -/
  | map (len : Option Nat)
  /-- A tag on the item that follows. -/
  | tag (n : Nat)
  /-- A simple value. -/
  | simple (n : Nat)
  /-- A floating-point number, by the bits of its double. -/
  | float (bits : UInt64)
  /-- The end of an item of unknown length. -/
  | stop
  deriving DecidableEq, Repr

namespace Head

/-- How many bytes of argument follow a first byte with this additional information;
nothing for the reserved values. -/
def argumentBytes? (info : Nat) : Option Nat :=
  if info < 24 ∨ info = 31 then some 0
  else if info = 24 then some 1
  else if info = 25 then some 2
  else if info = 26 then some 4
  else if info = 27 then some 8
  else none

/-- The head of this major type, additional information and argument, if there is one. -/
def assemble? (major info arg : Nat) : Option Head :=
  let len : Option Nat := if info = 31 then none else some arg
  match major with
  | 0 => len.map positive
  | 1 => len.map negative
  | 2 => some (bytes len)
  | 3 => some (text len)
  | 4 => some (array len)
  | 5 => some (map len)
  | 6 => len.map tag
  | _ =>
    if info = 31 then some stop
    else if info = 25 then some (float (Decimal.widen 5 10 arg))
    else if info = 26 then some (float (Decimal.widen 8 23 arg))
    else if info = 27 then some (float (UInt64.ofNat arg))
    else some (simple arg)

/-- Read one head. -/
def read (c : Cursor) : Except Error (Head × Cursor) := do
  let (first, after) ← c.take 1
  let byte := (Bytes.byteAt first 0).toNat
  let info := byte % 32
  match argumentBytes? info with
  | none => .error (.malformed c.pos)
  | some k =>
    let (argument, after) ← after.take k
    let arg := if k = 0 then info else Bytes.natBE argument
    match assemble? (byte / 32) info arg with
    | none => .error (.malformed c.pos)
    | some h => .ok (h, after)

/-! ### Writing heads -/

/-- How many bytes the shortest head of this argument takes. -/
def width (arg : Nat) : Nat :=
  if arg < 24 then 1
  else if arg < 2 ^ 8 then 2
  else if arg < 2 ^ 16 then 3
  else if arg < 2 ^ 32 then 5
  else 9

/-- The shortest head of this major type and argument. -/
def write (major arg : Nat) : Bytes :=
  let first (info : Nat) : Bytes := ByteArray.empty.push (UInt8.ofNat (major * 32 + info))
  if arg < 24 then first arg
  else if arg < 2 ^ 8 then first 24 ++ Bytes.ofNatBE 1 arg
  else if arg < 2 ^ 16 then first 25 ++ Bytes.ofNatBE 2 arg
  else if arg < 2 ^ 32 then first 26 ++ Bytes.ofNatBE 4 arg
  else first 27 ++ Bytes.ofNatBE 8 arg

/-- Where a head of this length ends at `stop` begins, counted as if it were written in
the shortest way. -/
def nominalStart (len : Option Nat) (stop : Nat) : Nat :=
  stop - match len with
    | some n => width n
    | none => 1

/-! ### Heads in complaints -/

/-- The number `-1 - n`, wrapped into the range of a signed 64-bit word. -/
def wrapNegative (n : Nat) : Int :=
  if n < 2 ^ 63 then -1 - (n : Int) else 2 ^ 64 - 1 - (n : Int)

/-- What an item is called when another one was expected. -/
def shown : Head → String
  | positive n => "integer `" ++ toString n ++ "`"
  | negative n => "integer `" ++ toString (wrapNegative n) ++ "`"
  | bytes _ => "bytes"
  | text _ => "string"
  | array _ => "sequence"
  | map _ => "map"
  | tag _ => "tag"
  | simple 20 => "boolean `false`"
  | simple 21 => "boolean `true`"
  | simple 22 => "null"
  | simple 23 => "undefined"
  | simple _ => "simple"
  | float bits => "floating point `" ++ Decimal.plainText bits ++ "`"
  | stop => "break"

/-- The complaint about a head where something else was expected. -/
def unexpected (h : Head) (expected : String) : Error :=
  .invalidType h.shown expected

end Head

end Vault.Cbor
