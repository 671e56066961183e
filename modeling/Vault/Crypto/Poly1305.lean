import Vault.Bytes

/-!
# The authenticator

Poly1305: a message in blocks of sixteen bytes, each a number with a one above its top
byte, is the polynomial with these coefficients at a secret point `r`, modulo
`2 ^ 130 - 5`; a secret number is added, and the low 128 bits are the **tag**.
-/

namespace Vault.Crypto.Poly1305

/-- The modulus. -/
def modulus : Nat := 2 ^ 130 - 5

/-- The size of a tag. -/
def tagBytes : Nat := 16

/-- The secret point in the first half of a key: some of its bits are cleared. -/
def point (key : Bytes) : Nat :=
  Bytes.natLE (Bytes.take key 16) &&& 0x0ffffffc0ffffffc0ffffffc0fffffff

/-- The number in the eight bytes from position `i` on, least significant byte first. -/
def wordAt (b : Bytes) (i : Nat) : UInt64 :=
  let byte (k : Nat) : UInt64 := (Bytes.byteAt b (i + k)).toUInt64
  byte 0 ||| (byte 1 <<< 8) ||| (byte 2 <<< 16) ||| (byte 3 <<< 24)
    ||| (byte 4 <<< 32) ||| (byte 5 <<< 40) ||| (byte 6 <<< 48) ||| (byte 7 <<< 56)

/-- The number of the block of `size` bytes at position `i`, a one above its top byte. The
bytes past the end of the message are zeros. -/
def blockAt (b : Bytes) (i size : Nat) : Nat :=
  (wordAt b i).toNat + (wordAt b (i + 8)).toNat * 2 ^ 64 + 256 ^ size

/-- The value of the polynomial with the block at position `i` appended. -/
def absorb (r : Nat) (b : Bytes) (i acc : Nat) : Nat :=
  (acc + blockAt b i (min 16 (b.size - i))) * r % modulus

/-- The value of the polynomial whose coefficients are the first `n` blocks. -/
def accumulate (r : Nat) (b : Bytes) (n : Nat) : Nat :=
  Nat.fold n (fun k _ acc => absorb r b (16 * k) acc) 0

/-- The tag of a message under a key of 32 bytes. -/
def tag (key message : Bytes) : Bytes :=
  let value := accumulate (point key) message ((message.size + 15) / 16)
  Bytes.ofNatLE tagBytes (value + Bytes.natLE (Bytes.drop key 16))

/-- Zeros up to the next multiple of sixteen bytes. -/
def padding (size : Nat) : Bytes :=
  Bytes.replicate ((16 - size % 16) % 16) 0

end Vault.Crypto.Poly1305
