import Mathlib.Algebra.BigOperators.Intervals
import Mathlib.Algebra.BigOperators.Ring.Finset
import Mathlib.Tactic.Ring
import Vault.Proofs.Crypto.Envelope

/-!
# What the cipher computes

The cipher is written for speed: it stirs whole rows, keeps the keystream packed, reads the
message of the authenticator by words, and reduces after every block. This file says what it
comes to, in the terms in which the cipher is defined.

* A block of keystream is ten times four **quarter rounds** on the columns and four on the
  diagonals of sixteen words, with the words before the rounds added
  (`Vault.Crypto.ChaCha20.blockWords`); a message is enciphered byte by byte with the blocks
  one after another (`Vault.Crypto.ChaCha20.octets_apply`).
* The authenticator is a **polynomial**: the blocks of the message are the coefficients, the
  first of the highest power, and there is no constant term (`Vault.Crypto.Poly1305.tag_eq`).
-/

namespace Vault

/-! ### Little-endian numbers -/

namespace Bytes

theorem octets_xor (a b : Bytes) : (xor a b).octets = List.zipWith (· ^^^ ·) a.octets b.octets := by
  refine List.ext_getElem ?_ fun i hi hi' => ?_
  · rw [length_octets, size_xor, List.length_zipWith, length_octets, length_octets]
  · rw [length_octets, size_xor] at hi
    have ha : i < a.octets.length := by
      rw [length_octets]
      omega
    have hb : i < b.octets.length := by
      rw [length_octets]
      omega
    rw [← byteAt_eq_getElem, byteAt_xor a b ha hb, List.getElem_zipWith, byteAt_eq_getElem a ha,
      byteAt_eq_getElem b hb]

theorem natLE_append (a b : Bytes) : natLE (a ++ b) = natLE a + 256 ^ a.size * natLE b := by
  change (octets (a ++ b)).foldr (fun x n => x.toNat + 256 * n) 0 =
    a.octets.foldr (fun x n => x.toNat + 256 * n) 0 +
      256 ^ a.octets.length * b.octets.foldr (fun x n => x.toNat + 256 * n) 0
  rw [octets_append]
  induction a.octets with
  | nil => simp
  | cons x l ih =>
    rw [List.cons_append, List.foldr_cons, List.foldr_cons, ih, List.length_cons, pow_succ]
    ring

/-- The number in a piece of a byte string, byte by byte; past the end there are zeros. -/
theorem natLE_extract (b : Bytes) (i n : ℕ) :
    natLE (b.extract i (i + n)) = ∑ k ∈ Finset.range n, (byteAt b (i + k)).toNat * 256 ^ k := by
  induction n with
  | zero =>
    have hempty : b.extract i (i + 0) = ByteArray.empty := ext_octets (by simp)
    rw [hempty]
    rfl
  | succ n ih =>
    rw [Finset.sum_range_succ, ← ih]
    by_cases hn : i + n < b.size
    · -- one more byte
      have hsplit : b.extract i (i + (n + 1)) =
          b.extract i (i + n) ++ ByteArray.empty.push (byteAt b (i + n)) := by
        have hlast : i + n < b.octets.length := hn
        apply ext_octets
        rw [octets_append, octets_push, octets_empty, octets_extract, octets_extract,
          Nat.add_sub_cancel_left, Nat.add_sub_cancel_left, List.nil_append,
          byteAt_eq_getElem b hlast, List.take_add_one, List.getElem?_drop,
          List.getElem?_eq_getElem hlast]
        rfl
      have hsize : (b.extract i (i + n)).size = n := by
        rw [ByteArray.size_extract]
        omega
      rw [hsplit, natLE_append, hsize]
      change _ + 256 ^ n * ((byteAt b (i + n)).toNat + 256 * 0) = _
      ring
    · have hsame : b.extract i (i + (n + 1)) = b.extract i (i + n) := by
        apply ext_octets
        rw [octets_extract, octets_extract, List.take_of_length_le, List.take_of_length_le] <;>
        · rw [List.length_drop, length_octets]
          omega
      rw [hsame, byteAt, dif_neg hn]
      simp

end Bytes

namespace Crypto

/-! ### The keystream -/

namespace ChaCha20

/-- **A quarter round** stirs four words. -/
def quarter (a b c d : UInt32) : UInt32 × UInt32 × UInt32 × UInt32 :=
  let a := a + b
  let d := rotateLeft (d ^^^ a) 16
  let c := c + d
  let b := rotateLeft (b ^^^ c) 12
  let a := a + b
  let d := rotateLeft (d ^^^ a) 8
  let c := c + d
  let b := rotateLeft (b ^^^ c) 7
  (a, b, c, d)

/-- A quarter round on the words at four places. -/
def quarterRound (x : Block) (i j k l : ℕ) : Block :=
  let q := quarter x[i]! x[j]! x[k]! x[l]!
  (((x.setIfInBounds i q.1).setIfInBounds j q.2.1).setIfInBounds k q.2.2.1).setIfInBounds l q.2.2.2

/-- Four quarter rounds on the columns, when the words stand in four rows. -/
def columnRound (x : Block) : Block :=
  quarterRound (quarterRound (quarterRound (quarterRound x 0 4 8 12) 1 5 9 13) 2 6 10 14) 3 7 11 15

/-- Four quarter rounds on the diagonals. -/
def diagonalRound (x : Block) : Block :=
  quarterRound (quarterRound (quarterRound (quarterRound x 0 5 10 15) 1 6 11 12) 2 7 8 13) 3 4 9 14

/-- The words before the rounds: four constants, the key, the counter and the nonce. -/
def initialWords (key nonce : Bytes) (counter : UInt32) : Block :=
  #v[0x61707865, 0x3320646e, 0x79622d32, 0x6b206574,
    wordAt key 0, wordAt key 4, wordAt key 8, wordAt key 12,
    wordAt key 16, wordAt key 20, wordAt key 24, wordAt key 28,
    counter, wordAt nonce 0, wordAt nonce 4, wordAt nonce 8]

/-- **The words of a block of keystream.** -/
def blockWords (key nonce : Bytes) (counter : UInt32) : Block :=
  Vector.zipWith (· + ·)
    ((fun x => diagonalRound (columnRound x))^[10] (initialWords key nonce counter))
    (initialWords key nonce counter)

/-- The bytes of a word, the least significant first. -/
def wordBytes (x : UInt32) : List UInt8 :=
  [x.toUInt8, (x >>> 8).toUInt8, (x >>> 16).toUInt8, (x >>> 24).toUInt8]

/-- **The keystream**: so many blocks, the first for this counter. -/
def stream (key nonce : Bytes) (counter : UInt32) (blocks : ℕ) : List UInt8 :=
  (List.range blocks).flatMap fun k =>
    (blockWords key nonce (counter + UInt32.ofNat k)).toList.flatMap wordBytes

/-- The words of four rows. -/
def State.words (s : State) : Block :=
  #v[s.a.fst, s.a.snd, s.a.trd, s.a.fth, s.b.fst, s.b.snd, s.b.trd, s.b.fth,
    s.c.fst, s.c.snd, s.c.trd, s.c.fth, s.d.fst, s.d.snd, s.d.trd, s.d.fth]

/-- To stir the columns of four rows is a quarter round on each. -/
theorem stirColumns_eq (s : State) :
    s.stirColumns =
      let w := quarter s.a.fst s.b.fst s.c.fst s.d.fst
      let x := quarter s.a.snd s.b.snd s.c.snd s.d.snd
      let y := quarter s.a.trd s.b.trd s.c.trd s.d.trd
      let z := quarter s.a.fth s.b.fth s.c.fth s.d.fth
      ⟨⟨w.1, x.1, y.1, z.1⟩, ⟨w.2.1, x.2.1, y.2.1, z.2.1⟩,
        ⟨w.2.2.1, x.2.2.1, y.2.2.1, z.2.2.1⟩, ⟨w.2.2.2, x.2.2.2, y.2.2.2, z.2.2.2⟩⟩ :=
  rfl

theorem words_stirColumns (s : State) : s.stirColumns.words = columnRound s.words := by
  simp [stirColumns_eq, State.words, columnRound, quarterRound]

theorem words_diagonals (s : State) :
    s.slant.stirColumns.unslant.words = diagonalRound s.words := by
  simp [stirColumns_eq, State.words, diagonalRound, quarterRound, State.slant, State.unslant,
    Row.turn]

theorem words_stir (s : State) (n : ℕ) :
    (s.stir n).words = (fun x => diagonalRound (columnRound x))^[n] s.words := by
  induction n generalizing s with
  | zero => rfl
  | succ n ih =>
    rw [State.stir, ih, Function.iterate_succ_apply, State.doubleRound, words_diagonals,
      words_stirColumns]

theorem words_block (key nonce : Bytes) (counter : UInt32) :
    (block key nonce counter).words = blockWords key nonce counter := by
  have hadd (s t : State) : (s.add t).words = Vector.zipWith (· + ·) s.words t.words := by
    simp [State.add, Row.add, State.words]
  have hstart : (start key nonce counter).words = initialWords key nonce counter := rfl
  rw [block, hadd, words_stir, hstart, blockWords]

example : blockWords (Bytes.ofFn 32 UInt8.ofNat) ⟨#[0, 0, 0, 9, 0, 0, 0, 0x4a, 0, 0, 0, 0]⟩ 1 =
    #v[0xe4e7f110, 0x15593bd1, 0x1fdd0f50, 0xc47120a3, 0xc7f4d1c7, 0x0368c033, 0x9aaa2204,
      0x4e6cd4c3, 0x466482d2, 0x09aa9f07, 0x05d7c214, 0xa2028bd9, 0xd19c12b5, 0xb94e16de,
      0xe883d0cb, 0x4e3c50a2] := by
  decide +kernel

theorem octets_push (s : State) (b : Bytes) :
    (s.push b).octets = b.octets ++ s.words.toList.flatMap wordBytes := by
  simp [State.push, Row.push, pushWord, State.words, wordBytes]

theorem octets_pushBlocks (key nonce : Bytes) (n : ℕ) (counter : UInt32) (acc : Bytes) :
    (pushBlocks key nonce n counter acc).octets = acc.octets ++ stream key nonce counter n := by
  induction n generalizing counter acc with
  | zero => simp [pushBlocks, stream]
  | succ n ih =>
    have hnext (k : ℕ) : counter + 1 + UInt32.ofNat k = counter + UInt32.ofNat (k + 1) := by
      rw [UInt32.add_assoc, UInt32.ofNat_add, UInt32.add_comm 1]
      rfl
    have hzero : counter + UInt32.ofNat 0 = counter := UInt32.add_zero counter
    rw [pushBlocks, ih, octets_push, words_block, stream, stream, List.range_succ_eq_map,
      List.flatMap_cons, List.flatMap_map, List.append_assoc, hzero]
    simp only [hnext, Nat.succ_eq_add_one]

theorem octets_keystream (key nonce : Bytes) (counter : UInt32) (size : ℕ) :
    (keystream key nonce counter size).octets = stream key nonce counter ((size + 63) / 64) := by
  rw [keystream, octets_pushBlocks, Bytes.octets_empty, List.nil_append]

/-- **A message is enciphered byte by byte.** -/
theorem octets_apply (key nonce : Bytes) (counter : UInt32) (b : Bytes) :
    (apply key nonce counter b).octets =
      List.zipWith (· ^^^ ·) b.octets (stream key nonce counter ((b.size + 63) / 64)) := by
  rw [apply, Bytes.octets_xor, octets_keystream]

end ChaCha20

/-! ### The authenticator -/

namespace Poly1305

/-- The `i`-th block of sixteen bytes as a number, with a one above its last byte. The last
block may be shorter. -/
def coefficient (message : Bytes) (i : ℕ) : ℕ :=
  Bytes.natLE (message.extract (16 * i) (16 * i + 16) ++ ByteArray.empty.push 1)

/-- **The polynomial of a message** at a point: its blocks are the coefficients of the powers
from the highest down to the first. -/
def polynomial (r : ℕ) (message : Bytes) : ℕ :=
  let n := (message.size + 15) / 16
  ∑ i ∈ Finset.range n, coefficient message i * r ^ (n - i)

/-- A byte above the bytes of a number. -/
theorem toNat_or_shift {x : UInt64} {k : ℕ} (hk : k < 8) (hx : x.toNat < 256 ^ k) (y : UInt8) :
    (x ||| y.toUInt64 <<< UInt64.ofNat (8 * k)).toNat = x.toNat + y.toNat * 256 ^ k := by
  have hpow : (256 : ℕ) ^ k = 2 ^ (8 * k) := by rw [Nat.pow_mul]
  have hy := y.toNat_lt
  have hshift : (UInt64.ofNat (8 * k)).toNat = 8 * k := by
    rw [UInt64.toNat_ofNat']
    omega
  have hbig : y.toNat * 2 ^ (8 * k) < 2 ^ 64 := by
    calc y.toNat * 2 ^ (8 * k) < 2 ^ 8 * 2 ^ (8 * k) := by
          exact Nat.mul_lt_mul_of_pos_right hy (Nat.two_pow_pos _)
      _ = 2 ^ (8 + 8 * k) := by rw [Nat.pow_add]
      _ ≤ 2 ^ 64 := Nat.pow_le_pow_right (by decide) (by omega)
  rw [hpow] at hx ⊢
  rw [UInt64.toNat_or, UInt64.toNat_shiftLeft, hshift, UInt8.toNat_toUInt64,
    Nat.mod_eq_of_lt (by omega : 8 * k < 64), Nat.shiftLeft_eq, Nat.mod_eq_of_lt hbig,
    Nat.or_comm, ← Nat.shiftLeft_eq, ← Nat.shiftLeft_add_eq_or_of_lt hx, Nat.add_comm]

theorem sum_bytes_lt (f : ℕ → UInt8) (n : ℕ) :
    ∑ k ∈ Finset.range n, (f k).toNat * 256 ^ k < 256 ^ n := by
  induction n with
  | zero => exact Nat.one_pos
  | succ n ih =>
    have hbyte := (f n).toNat_lt
    have hmul : (f n).toNat * 256 ^ n ≤ 255 * 256 ^ n := Nat.mul_le_mul_right _ (by omega)
    rw [Finset.sum_range_succ, pow_succ]
    omega

theorem toNat_wordAt (b : Bytes) (i : ℕ) :
    (wordAt b i).toNat = ∑ k ∈ Finset.range 8, (Bytes.byteAt b (i + k)).toNat * 256 ^ k := by
  -- one byte after the other
  have hstep (x : UInt64) (k : ℕ) (hk : k < 8)
      (hx : x.toNat = ∑ k ∈ Finset.range k, (Bytes.byteAt b (i + k)).toNat * 256 ^ k) :
      (x ||| (Bytes.byteAt b (i + k)).toUInt64 <<< UInt64.ofNat (8 * k)).toNat =
        ∑ k ∈ Finset.range (k + 1), (Bytes.byteAt b (i + k)).toNat * 256 ^ k := by
    have hlt := sum_bytes_lt (fun k => Bytes.byteAt b (i + k)) k
    rw [toNat_or_shift hk (by rw [hx]; exact hlt), hx, Finset.sum_range_succ]
  have hfirst : (Bytes.byteAt b (i + 0)).toUInt64.toNat =
      ∑ k ∈ Finset.range 1, (Bytes.byteAt b (i + k)).toNat * 256 ^ k := by
    rw [UInt8.toNat_toUInt64, Finset.sum_range_one, pow_zero, mul_one]
  exact hstep _ 7 (by decide) (hstep _ 6 (by decide) (hstep _ 5 (by decide)
    (hstep _ 4 (by decide) (hstep _ 3 (by decide) (hstep _ 2 (by decide)
      (hstep _ 1 (by decide) hfirst))))))

/-- The number of a block, read by words, is its coefficient. -/
theorem blockAt_eq (b : Bytes) (i : ℕ) :
    blockAt b (16 * i) (min 16 (b.size - 16 * i)) = coefficient b i := by
  have hsize : (b.extract (16 * i) (16 * i + 16)).size = min 16 (b.size - 16 * i) := by
    rw [ByteArray.size_extract]
    omega
  have hone : Bytes.natLE (ByteArray.empty.push 1) = 1 := rfl
  have hword : (2 : ℕ) ^ 64 = 256 ^ 8 := by decide
  -- the second word stands above the first
  have hhigh : (∑ k ∈ Finset.range 8, (Bytes.byteAt b (16 * i + 8 + k)).toNat * 256 ^ k) * 2 ^ 64 =
      ∑ k ∈ Finset.range 8, (Bytes.byteAt b (16 * i + (8 + k))).toNat * 256 ^ (8 + k) := by
    rw [Finset.sum_mul]
    refine Finset.sum_congr rfl fun k _ => ?_
    rw [hword, mul_assoc, ← pow_add, Nat.add_comm k, Nat.add_assoc]
  rw [blockAt, toNat_wordAt, toNat_wordAt, coefficient, Bytes.natLE_append, Bytes.natLE_extract,
    hsize, hone, mul_one, Finset.sum_range_add _ 8 8, hhigh]

/-- **The loop evaluates the polynomial.** -/
theorem accumulate_eq (r : ℕ) (b : Bytes) (n : ℕ) :
    accumulate r b n = (∑ i ∈ Finset.range n, coefficient b i * r ^ (n - i)) % modulus := by
  induction n with
  | zero => rfl
  | succ n ih =>
    have hsum : ∑ i ∈ Finset.range (n + 1), coefficient b i * r ^ (n + 1 - i) =
        (∑ i ∈ Finset.range n, coefficient b i * r ^ (n - i) + coefficient b n) * r := by
      rw [Finset.sum_range_succ, Nat.add_sub_cancel_left, pow_one, add_mul, Finset.sum_mul,
        Finset.sum_congr rfl fun i hi => ?_]
      have hlt := Finset.mem_range.mp hi
      rw [show n + 1 - i = n - i + 1 by omega, pow_succ, mul_assoc]
    have hstep : accumulate r b (n + 1) = absorb r b (16 * n) (accumulate r b n) := by
      rw [accumulate, Nat.fold_succ, accumulate]
    rw [hstep, absorb, blockAt_eq, ih, hsum, Nat.mul_mod, Nat.mod_add_mod, ← Nat.mul_mod]

/-- **The tag of a message**: its polynomial at the secret point, and a secret number added. -/
theorem tag_eq (key message : Bytes) :
    tag key message = Bytes.ofNatLE tagBytes
      (polynomial (point key) message % modulus + Bytes.natLE (Bytes.drop key 16)) := by
  rw [tag, accumulate_eq, polynomial]

example : tag ⟨#[0x85, 0xd6, 0xbe, 0x78, 0x57, 0x55, 0x6d, 0x33, 0x7f, 0x44, 0x52, 0xfe, 0x42, 0xd5,
      0x06, 0xa8, 0x01, 0x03, 0x80, 0x8a, 0xfb, 0x0d, 0xb2, 0xfd, 0x4a, 0xbf, 0xf6, 0xaf, 0x41,
      0x49, 0xf5, 0x1b]⟩ "Cryptographic Forum Research Group".toUTF8 =
    ⟨#[0xa8, 0x06, 0x1d, 0xc1, 0x30, 0x51, 0x36, 0xc6, 0xc2, 0x2b, 0x8b, 0xaf, 0x0c, 0x01, 0x27,
      0xa9]⟩ := by
  decide +kernel

end Poly1305

end Crypto

end Vault
