import Vault.Cbor.Item
import Vault.Time

/-!
# Reading what is expected

Responses and frames are read straight into their types. Here are the parts they are
made of: texts, integers, byte buffers, names, and the two shapes built from names – the
**record**, a map from field names to values, and the **variant**, a name alone or a map
of one entry from a name to a value. Tags in front of any of these are skipped.

A record keeps what it has read in a state of its own; a name it does not know is
skipped with its value, whatever shape that has.
-/

namespace Vault.Cbor

/-- The next head that is not a tag, with its offset and the cursor after it. Every tag
takes a byte, so the bytes left bound the rounds. -/
def skipTags : Nat → Cursor → Except Error (Head × Nat × Cursor)
  | 0, _ => .error .inputEnds
  | fuel + 1, c =>
    match Head.read c with
    | .error e => .error e
    | .ok (.tag _, after) => skipTags fuel after
    | .ok (h, after) => .ok (h, c.pos, after)

/-- The next head that is not a tag. -/
def headAt (c : Cursor) : Except Error (Head × Nat × Cursor) :=
  skipTags c.left c

/-! ### Texts and names -/

/-- A text. -/
def string (c : Cursor) : Except Error (String × Cursor) :=
  match headAt c with
  | .error e => .error e
  | .ok (.text len, _, after) => textAfter len after
  | .ok (h, _, _) => .error (h.unexpected "string")

/-- The name of a field or variant, as a text or as bytes. -/
inductive Name where
  /-- Written as a text. -/
  | text (s : String)
  /-- Written as a byte string. -/
  | bytes (b : Bytes)

namespace Name

/-- Whether this is the given name. -/
def is (n : Name) (s : String) : Bool :=
  match n with
  | text t => t == s
  | bytes b => b == Utf8.encode s

/-- The name in a complaint. -/
def shown : Name → String
  | text s => s
  | bytes b => Utf8.lossy b

/-- The longest name. -/
def maxLength : Nat := 4096

/-- The name whose head, at offset `start`, was read already. -/
def ofHead (h : Head) (start : Nat) (after : Cursor) : Except Error (Name × Cursor) :=
  match h with
  | .text (some len) =>
    if len ≤ maxLength then
      match after.take len with
      | .error e => .error e
      | .ok (b, after) =>
        match Utf8.decode? b with
        | some s => .ok (text s, after)
        | none => .error (.malformed start)
    else .error (h.unexpected "str or bytes")
  | .bytes (some len) =>
    if len ≤ maxLength then
      match after.take len with
      | .error e => .error e
      | .ok (b, after) => .ok (bytes b, after)
    else .error (h.unexpected "str or bytes")
  | h => .error (h.unexpected "str or bytes")

/-- A name. -/
def read (c : Cursor) : Except Error (Name × Cursor) :=
  match headAt c with
  | .error e => .error e
  | .ok (h, start, after) => ofHead h start after

/-- A name whose first head was looked at and put back. -/
def readLookedAt (h : Head) (after : Cursor) : Except Error (Name × Cursor) :=
  match h with
  | .tag _ => read after
  | .text len => ofHead h (Head.nominalStart len after.pos) after
  | h => ofHead h after.pos after

end Name

/-! ### Integers -/

/-- The significant bytes of a big integer: how many there are, and their number. -/
structure Significant where
  /-- How many bytes have been found. -/
  found : Nat := 0
  /-- The number of these bytes. -/
  value : Nat := 0

namespace Significant

/-- One more byte; zeros in front are skipped, and there may be no more than sixteen. -/
def push (s : Significant) (x : UInt8) : Option Significant :=
  if s.found = Item.bigBytes then none
  else if s.found = 0 ∧ x = 0 then some s
  else some ⟨s.found + 1, s.value * 256 + x.toNat⟩

/-- The next `len` bytes, taken sixteen at a time and in at most `fuel` rounds. -/
def take : Nat → Significant → Nat → Cursor → Except Error (Significant × Cursor)
  | 0, s, _, c => .ok (s, c)
  | fuel + 1, s, len, c =>
    if len = 0 then .ok (s, c)
    else
      let chunk := min Item.bigBytes len
      match c.take chunk with
      | .error e => .error e
      | .ok (b, after) =>
        match b.data.toList.foldlM push s with
        | none => .error (.semantic "bigint too large")
        | some s => take fuel s (len - chunk) after

/-- The next `len` bytes. -/
def piece (s : Significant) (_start len : Nat) (c : Cursor) :
    Except Error (Significant × Cursor) :=
  take (c.left + 1) s len c

end Significant

/-- The number in the byte string after a tag 2 or 3. -/
def bigMagnitude (c : Cursor) : Except Error (Nat × Cursor) :=
  let result : Except Error (Significant × Cursor) := match Head.read c with
    | .error e => .error e
    | .ok (.bytes (some len), after) => Significant.piece {} c.pos len after
    | .ok (.bytes none, after) => pieces bytesLength? Significant.piece after.left 1 {} after
    | .ok (h, _) => .error (h.unexpected "bytes")
  match result with
  | .error e => .error e
  | .ok (s, after) => .ok (s.value, after)

/-- A whole number: its sign and the `n` of `n` or `-1 - n`. -/
def integerParts : Nat → Cursor → Except Error ((Bool × Nat) × Cursor)
  | 0, _ => .error .inputEnds
  | fuel + 1, c =>
    match Head.read c with
    | .error e => .error e
    | .ok (.positive n, after) => .ok ((false, n), after)
    | .ok (.negative n, after) => .ok ((true, n), after)
    | .ok (.tag 2, after) =>
      match bigMagnitude after with
      | .error e => .error e
      | .ok (n, after) => .ok ((false, n), after)
    | .ok (.tag 3, after) =>
      match bigMagnitude after with
      | .error e => .error e
      | .ok (n, after) => .ok ((true, n), after)
    | .ok (.tag _, after) => integerParts fuel after
    | .ok (h, _) => .error (h.unexpected "integer")

/-- A timestamp: a whole number in the range of a signed 64-bit word. -/
def timestamp (c : Cursor) : Except Error (Timestamp × Cursor) :=
  match integerParts c.left c with
  | .error e => .error e
  | .ok ((negative, n), after) =>
    match Timestamp.ofMicros? (if negative then -1 - (n : Int) else n) with
    | some t => .ok (t, after)
    | none => .error (.semantic "integer too large")

/-- A number below 256. -/
def byte (c : Cursor) : Except Error (UInt8 × Cursor) :=
  match integerParts c.left c with
  | .error e => .error e
  | .ok ((true, _), _) => .error (.semantic "unexpected negative integer")
  | .ok ((false, n), after) =>
    if 2 ^ 64 ≤ n then .error (.semantic "integer too large")
    else if 256 ≤ n then .error (.invalidInteger n "u8")
    else .ok (UInt8.ofNat n, after)

/-! ### Byte buffers -/

/-- Bytes, as a byte string or as an array of numbers. -/
def byteBuffer (depth : Nat) (c : Cursor) : Except Error (Bytes × Cursor) :=
  match headAt c with
  | .error e => .error e
  | .ok (.bytes len, _, after) => bytesAfter len after
  | .ok (.array len, _, after) =>
    if depth = 0 then .error .tooDeep
    else
      match series byte len after with
      | .error e => .error e
      | .ok (xs, after) => .ok (xs.toByteArray, after)
  | .ok (h, _, _) => .error (h.unexpected "byte buffer")

/-! ### Records -/

/-- Skip an item of whatever shape. -/
def ignore (depth : Nat) (c : Cursor) : Except Error Cursor :=
  match Item.read depth c with
  | .error e => .error e
  | .ok (_, after) => .ok after

/-- A record: `field` takes the state of the record and the name of a field, at the cursor
where the value stands; it is given how deep items may still nest. -/
def record {σ : Type} (depth : Nat) (start : σ)
    (field : Nat → σ → Name → Cursor → Except Error (σ × Cursor)) (c : Cursor) :
    Except Error (σ × Cursor) :=
  match headAt c with
  | .error e => .error e
  | .ok (.map len, _, after) =>
    match depth with
    | 0 => .error .tooDeep
    | depth + 1 =>
      let named (s : σ) (name : Except Error (Name × Cursor)) : Except Error (σ × Cursor) :=
        match name with
        | .error e => .error e
        | .ok (n, c) => field depth s n c
      match len with
      | some n => entries (fun s c => named s (Name.read c)) n start after
      | none =>
        entriesToStop (fun s h _ after => named s (Name.readLookedAt h after)) after.left
          start after
  | .ok (h, _, _) => .error (h.unexpected "map")

/-- Set a field that must not occur twice. -/
def once {α σ : Type} (name : String) (old : Option α) (value : Except Error (α × Cursor))
    (set : α → σ) : Except Error (σ × Cursor) :=
  match old with
  | some _ => .error (.semantic (Error.duplicateFieldText name))
  | none =>
    match value with
    | .error e => .error e
    | .ok (a, c) => .ok (set a, c)

/-- A field that must occur. -/
def required {α : Type} (name : String) : Option α → Except Error α
  | some a => .ok a
  | none => .error (.semantic (Error.missingFieldText name))

/-! ### Variants -/

/-- A variant: its name, at the cursor where its value stands, if it has one. The value may
nest as deep as the number beside it says. -/
def variant {α : Type} (depth : Nat)
    (select : Nat → Name → Cursor → Except Error (α × Cursor)) (c : Cursor) :
    Except Error (α × Cursor) :=
  let selected (name : Except Error (Name × Cursor)) : Except Error (α × Cursor) :=
    match name with
    | .error e => .error e
    | .ok (n, c) => select (depth - 1) n c
  match headAt c with
  | .error e => .error e
  | .ok (.map (some 1), _, after) =>
    if depth = 0 then .error .tooDeep else selected (Name.read after)
  | .ok (.text len, _, after) =>
    if depth = 0 then .error .tooDeep
    else selected (Name.ofHead (.text len) (Head.nominalStart len after.pos) after)
  | .ok (h, _, _) => .error (h.unexpected "enum")

/-- The value of a name in a table of names without values. -/
def plainVariant {α : Type} (table : List (String × α)) (depth : Nat) (c : Cursor) :
    Except Error (α × Cursor) :=
  variant depth (fun _ n c =>
    match table.find? fun p => n.is p.1 with
    | some p => .ok (p.2, c)
    | none => .error (.unknownVariant n.shown (table.map (·.1)))) c

/-! ### Writing records and variants -/

/-- A map from names to encoded values, in this order. -/
def writeRecord (fields : List (String × Bytes)) : Bytes :=
  fields.foldl (fun acc f => acc ++ writeText f.1 ++ f.2) (Head.write 5 fields.length)

/-- A variant with a value. -/
def writeVariant (name : String) (value : Bytes) : Bytes :=
  Head.write 5 1 ++ writeText name ++ value

/-- A whole number in the range of 64 bits and a sign. -/
def writeInt (n : Int) : Bytes :=
  if 0 ≤ n then Head.write 0 n.toNat else Head.write 1 (-1 - n).toNat

end Vault.Cbor
