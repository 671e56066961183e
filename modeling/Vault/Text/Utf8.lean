import Vault.Bytes

/-!
# Texts as UTF-8

A text travels as its UTF-8 bytes. Reading it back is exact
(`Vault.Utf8.decode?`) or forgiving (`Vault.Utf8.lossy`, one replacement
character for each maximal broken piece). Both are settled by looking at one
scalar value at a time, `Vault.Utf8.front`.
-/

namespace Vault.Utf8

/-- The UTF-8 bytes of a text. -/
def encode (s : String) : Bytes :=
  s.toUTF8

/-- The text whose UTF-8 bytes these are, if there is one. -/
def decode? (b : Bytes) : Option String :=
  String.fromUTF8? b

theorem decode?_encode (s : String) : decode? (encode s) = some s := by
  unfold decode? encode String.fromUTF8?
  split
  · rfl
  · next h => exact absurd s.isValidUTF8 h

/-! ### One scalar value at a time -/

/-- What stands at the front of a byte list: a scalar value of some bytes, or a
broken piece that is dropped as a whole. -/
inductive Front where
  /-- A well-formed scalar value and the bytes after it. -/
  | scalar (code : Nat) (rest : List UInt8)
  /-- A broken piece and the bytes after it. -/
  | broken (rest : List UInt8)

/-- A continuation byte in a range of the second position. -/
def within (lo hi : Nat) (x : UInt8) : Bool :=
  decide (lo ≤ x.toNat) && decide (x.toNat ≤ hi)

/-- The range of the byte after a given leading byte of three or four bytes:
overlong forms, surrogates and numbers past the last scalar value are cut off
here. -/
def secondRange (lead : Nat) : Nat × Nat :=
  if lead = 0xE0 then (0xA0, 0xBF)
  else if lead = 0xED then (0x80, 0x9F)
  else if lead = 0xF0 then (0x90, 0xBF)
  else if lead = 0xF4 then (0x80, 0x8F)
  else (0x80, 0xBF)

/-- The scalar value or broken piece at the front of `lead :: rest`. A piece ends
where the next byte cannot continue it. -/
def front (lead : UInt8) (rest : List UInt8) : Front :=
  let a := lead.toNat
  let (lo, hi) := secondRange a
  if a < 0x80 then .scalar a rest
  else if a < 0xC2 then .broken rest
  else if a < 0xE0 then
    match rest with
    | x :: rest₁ =>
      if within 0x80 0xBF x then .scalar ((a - 0xC0) * 64 + (x.toNat - 0x80)) rest₁
      else .broken rest
    | [] => .broken rest
  else if a < 0xF0 then
    match rest with
    | x :: rest₁ =>
      if within lo hi x then
        match rest₁ with
        | y :: rest₂ =>
          if within 0x80 0xBF y then
            .scalar ((a - 0xE0) * 4096 + (x.toNat - 0x80) * 64 + (y.toNat - 0x80)) rest₂
          else .broken rest₁
        | [] => .broken rest₁
      else .broken rest
    | [] => .broken rest
  else if a < 0xF5 then
    match rest with
    | x :: rest₁ =>
      if within lo hi x then
        match rest₁ with
        | y :: rest₂ =>
          if within 0x80 0xBF y then
            match rest₂ with
            | z :: rest₃ =>
              if within 0x80 0xBF z then
                .scalar ((a - 0xF0) * 262144 + (x.toNat - 0x80) * 4096 +
                  (y.toNat - 0x80) * 64 + (z.toNat - 0x80)) rest₃
              else .broken rest₂
            | [] => .broken rest₂
          else .broken rest₁
        | [] => .broken rest₁
      else .broken rest
    | [] => .broken rest
  else .broken rest

/-- The scalar values of at most `fuel` pieces, broken ones replaced. -/
def lossyChars : Nat → List UInt8 → List Char
  | _, [] => []
  | 0, _ => []
  | fuel + 1, lead :: rest =>
    match front lead rest with
    | .scalar code rest => Char.ofNat code :: lossyChars fuel rest
    | .broken rest => Char.ofNat 0xFFFD :: lossyChars fuel rest

/-- The text of a byte string, with the replacement character for every maximal
piece that is not UTF-8. -/
def lossy (b : Bytes) : String :=
  String.ofList (lossyChars b.size b.data.toList)

/-- How many bytes a scalar value takes. -/
def scalarSize (code : Nat) : Nat :=
  if code < 0x80 then 1 else if code < 0x800 then 2 else if code < 0x10000 then 3 else 4

/-- The length of the longest piece at the front that is UTF-8, looking at no more
than `fuel` scalar values. -/
def validLength : Nat → List UInt8 → Nat
  | _, [] => 0
  | 0, _ => 0
  | fuel + 1, lead :: rest =>
    match front lead rest with
    | .scalar code rest => scalarSize code + validLength fuel rest
    | .broken _ => 0

/-! ### Texts read through a window -/

/-- The size of the window through which a long text is read. -/
def window : Nat := 4096

/-- Whether a text whose bytes run out is already seen to be broken. The bytes at
hand are read window by window; up to three bytes at the end of a window may be
the beginning of a scalar value and are carried into the next one, more than that
are an error. Only windows that are full are judged. -/
def brokenBeforeEnd : Nat → (carried : List UInt8) → Bytes → (pos : Nat) → Bool
  | 0, _, _, _ => false
  | fuel + 1, carried, b, pos =>
    let fresh := window - carried.length
    if pos + fresh ≤ b.size then
      let full := carried ++ (b.extract pos (pos + fresh)).data.toList
      let valid := validLength window full
      if window - valid > 3 then true
      else brokenBeforeEnd fuel (full.drop valid) b (pos + fresh)
    else false

end Vault.Utf8
