/-!
# Byte strings

Everything the vault stores on a wire or feeds to a cipher is a byte string. A
byte string is a `ByteArray`, so that appending and cutting a payload of several
mebibytes stays cheap; what it *means* is the list of its bytes, and the numbers
below are read off that list.

* `Vault.Bytes.natBE`, `Vault.Bytes.natLE` – the number written in base 256,
  most significant byte first or last;
* `Vault.Bytes.ofNatBE`, `Vault.Bytes.ofNatLE` – a number in a fixed width;
* `Vault.Bytes.hex` – two lowercase hexadecimal digits per byte.
-/

namespace Vault

/-- A byte string. -/
abbrev Bytes := ByteArray

-- Equality of byte strings and powers of numbers are the built-in ones, also next to a library
-- that has instances of its own for them.
instance bytesDecidableEq : DecidableEq ByteArray := ByteArray.instDecidableEq

@[default_instance 20000]
instance natPow : Pow Nat Nat := instPowNat

@[default_instance 15000]
instance intPow : Pow Int Nat := instPowNat

namespace Bytes

/-- The byte at position `i`, and zero past the end. -/
@[inline] def byteAt (b : Bytes) (i : Nat) : UInt8 :=
  if h : i < b.size then b[i] else 0

/-- The byte string of length `n` whose `i`-th byte is `f i`. -/
@[inline] def ofFn (n : Nat) (f : Nat → UInt8) : Bytes :=
  Nat.fold n (fun i _ acc => acc.push (f i)) ByteArray.empty

@[simp] theorem size_ofFn (n : Nat) (f : Nat → UInt8) : (ofFn n f).size = n := by
  unfold ofFn
  induction n with
  | zero => rfl
  | succ n ih => rw [Nat.fold_succ, ByteArray.size_push, ih]

/-- `n` copies of one byte. -/
def replicate (n : Nat) (x : UInt8) : Bytes :=
  ofFn n fun _ => x

/-- The first `n` bytes. -/
def take (b : Bytes) (n : Nat) : Bytes :=
  b.extract 0 n

/-- All but the first `n` bytes. -/
def drop (b : Bytes) (n : Nat) : Bytes :=
  b.extract n b.size

/-- Bytewise exclusive or, as long as the shorter of the two. -/
def xor (a b : Bytes) : Bytes :=
  ofFn (min a.size b.size) fun i => byteAt a i ^^^ byteAt b i

@[simp] theorem size_xor (a b : Bytes) : (xor a b).size = min a.size b.size :=
  size_ofFn _ _

/-! ### Numbers -/

/-- The number written most significant byte first. -/
def natBE (b : Bytes) : Nat :=
  b.data.toList.foldl (fun n x => n * 256 + x.toNat) 0

/-- The number written least significant byte first. -/
def natLE (b : Bytes) : Nat :=
  b.data.toList.foldr (fun x n => x.toNat + 256 * n) 0

/-- The low `width` bytes of a number, most significant byte first. -/
def ofNatBE (width n : Nat) : Bytes :=
  ofFn width fun i => UInt8.ofNat (n / 256 ^ (width - 1 - i))

/-- The low `width` bytes of a number, least significant byte first. -/
def ofNatLE (width n : Nat) : Bytes :=
  ofFn width fun i => UInt8.ofNat (n / 256 ^ i)

@[simp] theorem size_ofNatBE (width n : Nat) : (ofNatBE width n).size = width :=
  size_ofFn _ _

@[simp] theorem size_ofNatLE (width n : Nat) : (ofNatLE width n).size = width :=
  size_ofFn _ _

/-! ### Hexadecimal text -/

/-- The lowercase hexadecimal digit of a number below sixteen. -/
def hexDigit (n : Nat) : Char :=
  if n < 10 then Char.ofNat (48 + n) else Char.ofNat (87 + n)

/-- The two digits of one byte. -/
def hexByte (x : UInt8) : List Char :=
  [hexDigit (x.toNat / 16), hexDigit (x.toNat % 16)]

/-- Two lowercase hexadecimal digits per byte. -/
def hex (b : Bytes) : String :=
  String.ofList (b.data.toList.flatMap hexByte)

end Bytes

end Vault
