import Vault.Crypto.Word
import Vault.Text.Utf8

/-!
# The hash

BLAKE3 of inputs that fit one chunk of 1024 bytes, which is all the vault hashes: public
keys for their fingerprints, and shared secrets for the keys derived from them. A chunk
is compressed block by block into a chaining value of eight words, with flags that mark
its first and last block and the purpose of the hash.
-/

namespace Vault.Crypto.Blake3

/-- A chaining value. -/
abbrev Chain := Vector UInt32 8

/-- The chaining value before the first block of a plain hash. -/
def initial : Chain :=
  #v[0x6A09E667, 0xBB67AE85, 0x3C6EF372, 0xA54FF53A, 0x510E527F, 0x9B05688C, 0x1F83D9AB, 0x5BE0CD19]

/-- The bits of a word, moved down by `n` places and round the end. -/
@[inline] def rotateRight (x : UInt32) (n : UInt32) : UInt32 :=
  rotateLeft x (32 - n)

/-- Mix two words of the message into four words of the state. -/
@[inline] def mix (s : Block) (i j k l : Fin 16) (x y : UInt32) : Block :=
  let a := s[i]
  let b := s[j]
  let c := s[k]
  let d := s[l]
  let a := a + b + x
  let d := rotateRight (d ^^^ a) 16
  let c := c + d
  let b := rotateRight (b ^^^ c) 12
  let a := a + b + y
  let d := rotateRight (d ^^^ a) 8
  let c := c + d
  let b := rotateRight (b ^^^ c) 7
  (((s.set i a).set j b).set k c).set l d

/-- Mix a block of the message into the columns, then into the diagonals. -/
def round (s m : Block) : Block :=
  let s := mix s 0 4 8 12 m[0] m[1]
  let s := mix s 1 5 9 13 m[2] m[3]
  let s := mix s 2 6 10 14 m[4] m[5]
  let s := mix s 3 7 11 15 m[6] m[7]
  let s := mix s 0 5 10 15 m[8] m[9]
  let s := mix s 1 6 11 12 m[10] m[11]
  let s := mix s 2 7 8 13 m[12] m[13]
  mix s 3 4 9 14 m[14] m[15]

/-- The order of the message words in the next round. -/
def permute (m : Block) : Block :=
  #v[m[2], m[6], m[3], m[10], m[7], m[0], m[4], m[13], m[1], m[11], m[12], m[5], m[9], m[14], m[15],
    m[8]]

/-- `n` rounds. -/
def rounds : Nat → Block → Block → Block
  | 0, s, _ => s
  | n + 1, s, m => rounds n (round s m) (permute m)

/-- The chaining value after a block that holds `size` bytes. -/
def compress (h : Chain) (m : Block) (size flags : UInt32) : Chain :=
  let s : Block := #v[h[0], h[1], h[2], h[3], h[4], h[5], h[6], h[7],
    initial[0], initial[1], initial[2], initial[3], 0, 0, size, flags]
  let s := rounds 7 s m
  Vector.ofFn fun i => s[i.val] ^^^ s[i.val + 8]

/-- Marks the first block of a chunk. -/
def firstFlag : UInt32 := 1

/-- Marks the last block of the input. -/
def lastFlags : UInt32 := 2 + 8

/-- Marks the hash of a context. -/
def contextFlag : UInt32 := 32

/-- Marks the hash of key material. -/
def materialFlag : UInt32 := 64

/-- The chaining value after the last `n + 1` blocks of the input, which begin at position
`i`. -/
def chunk (purpose : UInt32) (b : Bytes) : Nat → Nat → Chain → Chain
  | n, i, h =>
    let first := if i = 0 then firstFlag else 0
    let m := blockAt b i
    match n with
    | 0 => compress h m (UInt32.ofNat (b.size - i)) (purpose ||| first ||| lastFlags)
    | n + 1 => chunk purpose b n (i + 64) (compress h m 64 (purpose ||| first))

/-- The hash of an input of at most 1024 bytes, for a purpose. -/
def keyed (key : Chain) (purpose : UInt32) (b : Bytes) : Chain :=
  chunk purpose b ((b.size - 1) / 64) 0 key

/-- The bytes of a hash. -/
def chainBytes (h : Chain) : Bytes :=
  Bytes.ofFn 32 fun i =>
    if hi : i / 4 < 8 then (h[i / 4] >>> UInt32.ofNat (8 * (i % 4))).toUInt8 else 0

@[simp] theorem size_chainBytes (h : Chain) : (chainBytes h).size = 32 :=
  Bytes.size_ofFn _ _

/-- The hash of at most 1024 bytes. -/
def hash (b : Bytes) : Bytes :=
  chainBytes (keyed initial 0 b)

/-- The key derived from at most 1024 bytes of material, for a context. -/
def deriveKey (context : String) (material : Bytes) : Bytes :=
  chainBytes (keyed (keyed initial contextFlag (Utf8.encode context)) materialFlag material)

end Vault.Crypto.Blake3
