import Vault.Bytes

/-!
# Words of 32 bits

The stream cipher and the hash both work on a block of sixteen words of 32 bits. A word
stands in a byte string with its least significant byte first.
-/

namespace Vault.Crypto

/-- A block of sixteen words. -/
abbrev Block := Vector UInt32 16

/-- The bits of a word, moved up by `n` places and round the end. -/
@[inline] def rotateLeft (x : UInt32) (n : UInt32) : UInt32 :=
  (x <<< n) ||| (x >>> (32 - n))

/-- The word in the four bytes from position `i` on. -/
def wordAt (b : Bytes) (i : Nat) : UInt32 :=
  (Bytes.byteAt b i).toUInt32
    ||| ((Bytes.byteAt b (i + 1)).toUInt32 <<< 8)
    ||| ((Bytes.byteAt b (i + 2)).toUInt32 <<< 16)
    ||| ((Bytes.byteAt b (i + 3)).toUInt32 <<< 24)

/-- A byte string with the four bytes of a word after it. -/
@[inline] def pushWord (b : Bytes) (x : UInt32) : Bytes :=
  (((b.push x.toUInt8).push (x >>> 8).toUInt8).push (x >>> 16).toUInt8).push (x >>> 24).toUInt8

/-- The words in the sixty-four bytes from position `i` on, zeros past the end. -/
def blockAt (b : Bytes) (i : Nat) : Block :=
  Vector.ofFn fun k => wordAt b (i + 4 * k.val)

end Vault.Crypto
