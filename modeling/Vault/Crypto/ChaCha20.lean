import Vault.Crypto.Word

/-!
# The stream cipher

ChaCha20: a key of 32 bytes, a nonce of 12 and a block counter fill four rows of four
words; twenty rounds stir them, the rows before the rounds are added, and the bytes of
the sum are 64 bytes of **keystream**. Enciphering is the exclusive or with the
keystream, so it undoes itself.

A round stirs the four columns, all in the same way, so it is written as operations on
whole rows. The diagonals are columns once the rows are turned against each other.
-/

namespace Vault.Crypto.ChaCha20

/-! ### Rows -/

/-- Four words. -/
structure Row where
  /-- The word of the first column. -/
  fst : UInt32
  /-- The word of the second column. -/
  snd : UInt32
  /-- The word of the third column. -/
  trd : UInt32
  /-- The word of the fourth column. -/
  fth : UInt32
  deriving DecidableEq, Repr

namespace Row

/-- The sum, word by word. -/
@[inline] def add (x y : Row) : Row :=
  ⟨x.fst + y.fst, x.snd + y.snd, x.trd + y.trd, x.fth + y.fth⟩

/-- The exclusive or, word by word, with the bits of each word moved up by `n` places. -/
@[inline] def mix (x y : Row) (n : UInt32) : Row :=
  ⟨rotateLeft (x.fst ^^^ y.fst) n, rotateLeft (x.snd ^^^ y.snd) n,
    rotateLeft (x.trd ^^^ y.trd) n, rotateLeft (x.fth ^^^ y.fth) n⟩

/-- The row turned by one column. -/
@[inline] def turn (x : Row) : Row :=
  ⟨x.snd, x.trd, x.fth, x.fst⟩

/-- The row in the sixteen bytes from position `i` on. -/
def ofBytes (b : Bytes) (i : Nat) : Row :=
  ⟨wordAt b i, wordAt b (i + 4), wordAt b (i + 8), wordAt b (i + 12)⟩

/-- A byte string with the sixteen bytes of a row after it. -/
@[inline] def push (b : Bytes) (x : Row) : Bytes :=
  pushWord (pushWord (pushWord (pushWord b x.fst) x.snd) x.trd) x.fth

end Row

/-- Four rows. -/
structure State where
  /-- The first row. -/
  a : Row
  /-- The second row. -/
  b : Row
  /-- The third row. -/
  c : Row
  /-- The fourth row. -/
  d : Row
  deriving DecidableEq, Repr

namespace State

/-- Stir the columns. -/
@[inline] def stirColumns (s : State) : State :=
  let a := s.a.add s.b
  let d := s.d.mix a 16
  let c := s.c.add d
  let b := s.b.mix c 12
  let a := a.add b
  let d := d.mix a 8
  let c := c.add d
  let b := b.mix c 7
  ⟨a, b, c, d⟩

/-- Turn the rows so that diagonals become columns. -/
@[inline] def slant (s : State) : State :=
  ⟨s.a, s.b.turn, s.c.turn.turn, s.d.turn.turn.turn⟩

/-- Turn the rows back. -/
@[inline] def unslant (s : State) : State :=
  ⟨s.a, s.b.turn.turn.turn, s.c.turn.turn, s.d.turn⟩

/-- Stir the columns, then the diagonals. -/
def doubleRound (s : State) : State :=
  s.stirColumns.slant.stirColumns.unslant

/-- `n` double rounds. -/
def stir (s : State) : Nat → State
  | 0 => s
  | n + 1 => s.doubleRound.stir n

/-- The sum, row by row. -/
def add (s t : State) : State :=
  ⟨s.a.add t.a, s.b.add t.b, s.c.add t.c, s.d.add t.d⟩

/-- A byte string with the sixty-four bytes of the rows after it. -/
def push (s : State) (b : Bytes) : Bytes :=
  Row.push (Row.push (Row.push (Row.push b s.a) s.b) s.c) s.d

end State

/-! ### The keystream -/

/-- The rows of a key, a nonce and a counter before the rounds. -/
def start (key nonce : Bytes) (counter : UInt32) : State :=
  ⟨⟨0x61707865, 0x3320646e, 0x79622d32, 0x6b206574⟩, .ofBytes key 0, .ofBytes key 16,
    ⟨counter, wordAt nonce 0, wordAt nonce 4, wordAt nonce 8⟩⟩

/-- The rows of one block of keystream. -/
def block (key nonce : Bytes) (counter : UInt32) : State :=
  let s := start key nonce counter
  (s.stir 10).add s

/-- A byte string with `n` blocks of keystream after it, the first for this counter. -/
def pushBlocks (key nonce : Bytes) : Nat → UInt32 → Bytes → Bytes
  | 0, _, acc => acc
  | n + 1, counter, acc =>
    pushBlocks key nonce n (counter + 1) ((block key nonce counter).push acc)

/-- At least `size` bytes of keystream in whole blocks, the first for this counter. -/
def keystream (key nonce : Bytes) (counter : UInt32) (size : Nat) : Bytes :=
  pushBlocks key nonce ((size + 63) / 64) counter ByteArray.empty

/-- A byte string under the keystream. -/
def apply (key nonce : Bytes) (counter : UInt32) (b : Bytes) : Bytes :=
  Bytes.xor b (keystream key nonce counter b.size)

end Vault.Crypto.ChaCha20
