import Vault.Cbor.Series
import Vault.Cbor.Strings

/-!
# Items of any shape

A request is first read as an item of whatever shape it has, and only then looked at.
`Vault.Cbor.Item` has one constructor per shape; null and undefined are one. A tag 2
or 3 on a short byte string is an integer and not a tag; one that does not fit 64 bits
and a sign goes back to a tag on its shortest bytes.
-/

namespace Vault.Cbor

/-- A CBOR item. -/
inductive Item where
  /-- A whole number. -/
  | integer (n : Int)
  /-- A byte string. -/
  | bytes (b : Bytes)
  /-- A floating-point number, by its bits. -/
  | float (bits : UInt64)
  /-- A text. -/
  | text (s : String)
  /-- A truth value. -/
  | bool (b : Bool)
  /-- Null or undefined. -/
  | null
  /-- A tagged item. -/
  | tag (n : Nat) (item : Item)
  /-- An array. -/
  | array (items : List Item)
  /-- A map, as pairs in the order in which they stand. -/
  | map (entries : List (Item × Item))

namespace Item

/-! ### Big integers -/

/-- A number in as few bytes as it needs, most significant byte first. -/
def shortestBytes (n : Nat) : Bytes :=
  Bytes.ofNatBE (if n = 0 then 0 else n.log2 / 8 + 1) n

/-- The item of a whole number: an integer if it fits 64 bits and a sign, a tagged byte
string otherwise. -/
def ofInt (n : Int) : Item :=
  if -(2 ^ 64) ≤ n ∧ n < 2 ^ 64 then integer n
  else if 0 ≤ n then tag 2 (bytes (shortestBytes n.toNat))
  else tag 3 (bytes (shortestBytes (-1 - n).toNat))

/-- The longest byte string that a tag turns into an integer. -/
def bigBytes : Nat := 16

/-- The integer of a tag 2 or 3 on a short byte string. -/
def ofBig (negative : Bool) (b : Bytes) : Except Error Item :=
  let n := Bytes.natBE b
  if negative then
    if n < 2 ^ 127 then .ok (ofInt (-1 - (n : Int))) else .error (.semantic "integer too large")
  else .ok (ofInt n)

/-! ### Reading -/

/-- The item of a simple value. -/
def ofSimple (n : Nat) : Except Error Item :=
  match n with
  | 20 => .ok (bool false)
  | 21 => .ok (bool true)
  | 22 => .ok null
  | 23 => .ok null
  | n => .error ((Head.simple n).unexpected "known simple value")

/-- A key and a value. -/
def pair (item : Cursor → Except Error (Item × Cursor)) (c : Cursor) :
    Except Error ((Item × Item) × Cursor) :=
  match item c with
  | .error e => .error e
  | .ok (k, c) =>
    match item c with
    | .error e => .error e
    | .ok (v, c) => .ok ((k, v), c)

/-- Apply a constructor to what was read. -/
def wrap {α : Type} (f : α → Item) : Except Error (α × Cursor) → Except Error (Item × Cursor)
  | .error e => .error e
  | .ok (a, c) => .ok (f a, c)

/-- The big integer behind a tag, when the tag is 2 or 3 and a short byte string stands
there. What stands behind a tag has to begin well, whatever the tag. -/
def big? (n : Nat) (c : Cursor) : Except Error (Option (Item × Cursor)) :=
  match Head.read c with
  | .error e => .error e
  | .ok (.bytes (some len), after) =>
    if (n = 2 ∨ n = 3) ∧ len ≤ bigBytes then
      match after.take len with
      | .error e => .error e
      | .ok (b, after) =>
        match ofBig (n == 3) b with
        | .error e => .error e
        | .ok i => .ok (some (i, after))
    else .ok none
  | .ok _ => .ok none

/-- Read what stands behind a head. Arrays, maps and tags hold items one level down, which
`nested` reads if there may be any. A tag counts as a level only once the head behind it is
read. -/
def readContent (nested : Option (Cursor → Except Error (Item × Cursor))) (h : Head)
    (after : Cursor) : Except Error (Item × Cursor) :=
  match h with
  | .positive n => .ok (integer n, after)
  | .negative n => .ok (integer (-1 - (n : Int)), after)
  | .bytes len => wrap bytes (bytesAfter len after)
  | .text len => wrap text (textAfter len after)
  | .array len =>
    match nested with
    | none => .error .tooDeep
    | some item => wrap array (series item len after)
  | .map len =>
    match nested with
    | none => .error .tooDeep
    | some item => wrap map (series (pair item) len after)
  | .tag n =>
    match big? n after with
    | .error e => .error e
    | .ok (some r) => .ok r
    | .ok none =>
      match nested with
      | none => .error .tooDeep
      | some item => wrap (tag n) (item after)
  | .float bits => .ok (float bits, after)
  | .simple n =>
    match ofSimple n with
    | .error e => .error e
    | .ok i => .ok (i, after)
  | .stop => .error (Head.stop.unexpected "non-break")

/-- Read a head and what stands behind it. -/
def readWith (nested : Option (Cursor → Except Error (Item × Cursor))) (c : Cursor) :
    Except Error (Item × Cursor) :=
  match Head.read c with
  | .error e => .error e
  | .ok (h, after) => readContent nested h after

/-- Read one item in which at most so many more arrays, maps and tags nest. -/
def read : Nat → Cursor → Except Error (Item × Cursor)
  | 0 => readWith none
  | depth + 1 => readWith (some (read depth))

/-- How the items one level down are read. -/
def deeper : Nat → Option (Cursor → Except Error (Item × Cursor))
  | 0 => none
  | depth + 1 => some (read depth)

theorem read_eq_readWith (depth : Nat) : read depth = readWith (deeper depth) := by
  cases depth <;> rfl

/-- The first item of a byte string; what stands after it is ignored. -/
def ofBytes (b : Bytes) : Except Error Item :=
  match read maxDepth ⟨b, 0⟩ with
  | .error e => .error e
  | .ok (i, _) => .ok i

/-! ### Items in diagnostics -/

/-- Texts between brackets, with commas between them. -/
def bracketed (texts : List String) : String :=
  "[" ++ ", ".intercalate texts ++ "]"

mutual

/-- An item written out in full, its shape by name. -/
def shown : Item → String
  | integer n => "Integer(Integer(" ++ toString n ++ "))"
  | bytes b => "Bytes(" ++ bracketed (b.data.toList.map fun x => toString x.toNat) ++ ")"
  | float bits => "Float(" ++ Decimal.compactText bits ++ ")"
  | text s => "Text(" ++ Text.quoted s ++ ")"
  | bool b => "Bool(" ++ toString b ++ ")"
  | null => "Null"
  | tag n i => "Tag(" ++ toString n ++ ", " ++ shown i ++ ")"
  | array items => "Array(" ++ bracketed (shownAll items) ++ ")"
  | map entries => "Map(" ++ bracketed (shownPairs entries) ++ ")"

/-- Several items. -/
def shownAll : List Item → List String
  | [] => []
  | i :: items => shown i :: shownAll items

/-- Several pairs. -/
def shownPairs : List (Item × Item) → List String
  | [] => []
  | (k, v) :: entries => ("(" ++ shown k ++ ", " ++ shown v ++ ")") :: shownPairs entries

end

/-- What an item is called when another one was expected. -/
def kindName : Item → String
  | bool b => "boolean `" ++ toString b ++ "`"
  | integer n =>
    if -(2 ^ 63) ≤ n ∧ n < 2 ^ 64 then "integer `" ++ toString n ++ "`" else "large integer"
  | float bits => "floating point `" ++ Decimal.plainText bits ++ "`"
  | bytes _ => "byte array"
  | text s => "string " ++ Text.quoted s
  | array _ => "sequence"
  | map _ => "map"
  | null => "null"
  | tag .. => "tag"

/-- The item under any number of tags. -/
def untagged : Item → Item
  | tag _ i => untagged i
  | i => i

end Item

end Vault.Cbor
