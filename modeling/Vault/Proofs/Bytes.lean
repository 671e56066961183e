import Mathlib.Tactic.Ring
import Vault.Bytes

/-!
# Byte strings as lists

A byte string is packed, and its operations are given by offsets; what they *mean* is
said by the list of its bytes, `Vault.Bytes.octets`. This file moves each operation to
that list – appending is appending, cutting is taking and dropping – and settles the two
facts about numbers that everything on the wire rests on: a number in a fixed width
reads back as its remainder (`Vault.Bytes.natBE_ofNatBE`, `Vault.Bytes.natLE_ofNatLE`).

The exclusive or with a string that is long enough undoes itself
(`Vault.Bytes.xor_xor_cancel`), which is all a stream cipher has to know. And two byte
strings never have the same digits in hexadecimal (`Vault.Bytes.hexDigits_injective`).
-/

namespace Vault.Bytes

/-! ### The list of the bytes -/

/-- The bytes of a byte string, in order. -/
def octets (b : Bytes) : List UInt8 := b.data.toList

theorem ext_octets {a b : Bytes} (h : a.octets = b.octets) : a = b :=
  ByteArray.ext (Array.toList_inj.mp h)

@[simp] theorem length_octets (b : Bytes) : b.octets.length = b.size := rfl

@[simp] theorem octets_empty : octets ByteArray.empty = [] := rfl

@[simp] theorem octets_push (b : Bytes) (x : UInt8) : octets (b.push x) = b.octets ++ [x] := by
  simp [octets]

@[simp] theorem octets_append (a b : Bytes) : octets (a ++ b) = a.octets ++ b.octets := by
  simp [octets]

@[simp] theorem octets_extract (b : Bytes) (i j : ℕ) :
    octets (b.extract i j) = (b.octets.drop i).take (j - i) := by
  simp [octets, List.extract_eq_take_drop]

theorem octets_take (b : Bytes) (n : ℕ) : octets (take b n) = b.octets.take n := by
  simp [take]

theorem octets_drop (b : Bytes) (n : ℕ) : octets (drop b n) = b.octets.drop n := by
  rw [drop, octets_extract, List.take_of_length_le]
  simp

@[simp] theorem size_take (b : Bytes) (n : ℕ) : (take b n).size = min n b.size := by
  rw [← length_octets, octets_take, List.length_take, length_octets]

@[simp] theorem size_drop (b : Bytes) (n : ℕ) : (drop b n).size = b.size - n := by
  rw [← length_octets, octets_drop, List.length_drop, length_octets]

theorem take_append_drop (b : Bytes) (n : ℕ) : take b n ++ drop b n = b := by
  apply ext_octets
  rw [octets_append, octets_take, octets_drop, List.take_append_drop]

theorem octets_ofFn (n : ℕ) (f : ℕ → UInt8) : octets (ofFn n f) = (List.range n).map f := by
  unfold ofFn
  induction n with
  | zero => rfl
  | succ n ih => rw [Nat.fold_succ, octets_push, ih, List.range_succ, List.map_append]; rfl

theorem byteAt_eq_getElem (b : Bytes) {i : ℕ} (h : i < b.octets.length) :
    byteAt b i = b.octets[i] := by
  rw [byteAt, dif_pos (show i < b.size from h)]
  rfl

theorem byteAt_ofFn (n : ℕ) (f : ℕ → UInt8) {i : ℕ} (h : i < n) : byteAt (ofFn n f) i = f i := by
  have hl : i < (octets (ofFn n f)).length := by simpa using h
  rw [byteAt_eq_getElem _ hl]
  simp [octets_ofFn]

/-- Two byte strings of one size that agree at every position are one. -/
theorem ext_byteAt {a b : Bytes} (hs : a.size = b.size)
    (h : ∀ i < a.size, byteAt a i = byteAt b i) : a = b := by
  refine ext_octets (List.ext_getElem hs fun i hi hj => ?_)
  rw [← byteAt_eq_getElem a hi, ← byteAt_eq_getElem b hj, h i hi]

/-! ### Exclusive or -/

theorem byteAt_xor (a b : Bytes) {i : ℕ} (ha : i < a.size) (hb : i < b.size) :
    byteAt (xor a b) i = byteAt a i ^^^ byteAt b i :=
  byteAt_ofFn _ _ (Nat.lt_min.mpr ⟨ha, hb⟩)

/-- **The exclusive or undoes itself**, when the key is at least as long as the text. -/
theorem xor_xor_cancel {a k : Bytes} (h : a.size ≤ k.size) : xor (xor a k) k = a := by
  have hs : (xor a k).size = a.size := by rw [size_xor, Nat.min_eq_left h]
  refine ext_byteAt (by rw [size_xor, hs, Nat.min_eq_left h]) fun i hi => ?_
  have hi' : i < a.size := by
    rw [size_xor, hs, Nat.min_eq_left h] at hi
    exact hi
  rw [byteAt_xor _ _ (by omega) (by omega), byteAt_xor _ _ hi' (by omega), UInt8.xor_assoc,
    UInt8.xor_self, UInt8.xor_zero]

/-! ### Numbers in a fixed width -/

/-- Reading on at a number: what was read before moves up by the bytes read since. -/
theorem foldl_natBE (l : List UInt8) (acc : ℕ) :
    l.foldl (fun n x => n * 256 + x.toNat) acc =
      acc * 256 ^ l.length + l.foldl (fun n x => n * 256 + x.toNat) 0 := by
  induction l generalizing acc with
  | nil => simp
  | cons x l ih =>
    rw [List.foldl_cons, List.foldl_cons, ih, ih (0 * 256 + x.toNat), List.length_cons, pow_succ]
    ring

theorem natBE_lt (b : Bytes) : natBE b < 256 ^ b.size := by
  change b.octets.foldl _ 0 < 256 ^ b.octets.length
  induction b.octets with
  | nil => decide
  | cons x l ih =>
    have hx := x.toNat_lt
    have hmul : x.toNat * 256 ^ l.length ≤ 255 * 256 ^ l.length :=
      Nat.mul_le_mul_right _ (by omega)
    rw [List.foldl_cons, foldl_natBE, List.length_cons, pow_succ, Nat.zero_mul, Nat.zero_add]
    omega

theorem octets_ofNatBE_succ (width n : ℕ) :
    octets (ofNatBE (width + 1) n) =
      UInt8.ofNat (n / 256 ^ width) :: octets (ofNatBE width n) := by
  rw [ofNatBE, ofNatBE, octets_ofFn, octets_ofFn, List.range_succ_eq_map, List.map_cons,
    List.map_map]
  refine congrArg₂ List.cons (by simp) (List.map_congr_left fun i hi => ?_)
  have hi' : i < width := List.mem_range.mp hi
  simp only [Function.comp_apply, show width + 1 - 1 - i.succ = width - 1 - i by omega]

/-- **A number in a fixed width reads back as its remainder**, most significant byte
first. -/
theorem natBE_ofNatBE (width n : ℕ) : natBE (ofNatBE width n) = n % 256 ^ width := by
  change (octets (ofNatBE width n)).foldl _ 0 = _
  induction width with
  | zero => simp [ofNatBE, octets_ofFn, Nat.mod_one]
  | succ width ih =>
    have hx : (UInt8.ofNat (n / 256 ^ width)).toNat = n / 256 ^ width % 256 := by simp
    rw [octets_ofNatBE_succ, List.foldl_cons, foldl_natBE, ih, length_octets, size_ofNatBE, hx,
      Nat.mod_pow_succ]
    ring

theorem octets_ofNatLE_succ (width n : ℕ) :
    octets (ofNatLE (width + 1) n) = UInt8.ofNat n :: octets (ofNatLE width (n / 256)) := by
  rw [ofNatLE, ofNatLE, octets_ofFn, octets_ofFn, List.range_succ_eq_map, List.map_cons,
    List.map_map]
  refine congrArg₂ List.cons (by simp) (List.map_congr_left fun i _ => ?_)
  rw [Function.comp_apply, Nat.succ_eq_add_one, pow_succ', Nat.div_div_eq_div_mul]

/-- **A number in a fixed width reads back** as its remainder, the least significant byte
first. -/
theorem natLE_ofNatLE (width n : ℕ) : natLE (ofNatLE width n) = n % 256 ^ width := by
  change (octets (ofNatLE width n)).foldr (fun x n => x.toNat + 256 * n) 0 = _
  induction width generalizing n with
  | zero => simp [ofNatLE, octets_ofFn, Nat.mod_one]
  | succ width ih =>
    have hx : (UInt8.ofNat n).toNat = n % 256 := by simp
    rw [octets_ofNatLE_succ, List.foldr_cons, ih, hx, pow_succ', Nat.mod_mul]

/-! ### Hexadecimal text -/

/-- The digits of a byte string. -/
def hexDigits (b : Bytes) : List Char := b.octets.flatMap hexByte

theorem hex_eq_ofList (b : Bytes) : hex b = String.ofList b.hexDigits := rfl

theorem length_hexDigits (b : Bytes) : b.hexDigits.length = 2 * b.size := by
  rw [hexDigits, ← length_octets]
  induction b.octets with
  | nil => rfl
  | cons x l ih =>
    rw [List.flatMap_cons, List.length_append, ih, List.length_cons, Nat.mul_succ, Nat.add_comm]
    rfl

/-- A digit is a decimal digit or one of the first six small letters. -/
theorem hexDigit_range {n : ℕ} (hn : n < 16) :
    '0' ≤ hexDigit n ∧ hexDigit n ≤ '9' ∨ 'a' ≤ hexDigit n ∧ hexDigit n ≤ 'f' := by
  have hall : ∀ n < 16,
      '0' ≤ hexDigit n ∧ hexDigit n ≤ '9' ∨ 'a' ≤ hexDigit n ∧ hexDigit n ≤ 'f' := by decide
  exact hall n hn

theorem hexDigits_range {b : Bytes} {c : Char} (hc : c ∈ b.hexDigits) :
    '0' ≤ c ∧ c ≤ '9' ∨ 'a' ≤ c ∧ c ≤ 'f' := by
  obtain ⟨x, -, hx⟩ := List.mem_flatMap.mp hc
  have hlt := x.toNat_lt
  rw [hexByte, List.mem_cons, List.mem_singleton] at hx
  rcases hx with rfl | rfl
  · exact hexDigit_range (by omega)
  · exact hexDigit_range (by omega)

theorem hexDigit_inj {m n : ℕ} (hm : m < 16) (hn : n < 16) (h : hexDigit m = hexDigit n) :
    m = n := by
  have hall : ∀ m < 16, ∀ n < 16, hexDigit m = hexDigit n → m = n := by decide
  exact hall m hm n hn h

/-- The two digits of a byte are its halves. -/
theorem hexByte_injective : Function.Injective hexByte := by
  intro x y h
  have hx := x.toNat_lt
  have hy := y.toNat_lt
  obtain ⟨hhigh, hlow⟩ := List.cons_eq_cons.mp h
  have hdiv := hexDigit_inj (by omega) (by omega) hhigh
  have hmod := hexDigit_inj (by omega) (by omega) (List.head_eq_of_cons_eq hlow)
  exact UInt8.toNat_inj.mp (by omega)

/-- **Two byte strings never have the same digits**: every byte takes up two of them. -/
theorem hexDigits_injective : Function.Injective hexDigits := by
  intro a b h
  have hlist (l l' : List UInt8) (h : l.flatMap hexByte = l'.flatMap hexByte) : l = l' := by
    induction l generalizing l' with
    | nil =>
      cases l' with
      | nil => rfl
      | cons y l' => cases h
    | cons x l ih =>
      cases l' with
      | nil => cases h
      | cons y l' =>
        rw [List.flatMap_cons, List.flatMap_cons] at h
        obtain ⟨hbyte, hrest⟩ := List.append_inj h rfl
        rw [hexByte_injective hbyte, ih l' hrest]
  exact ext_octets (hlist _ _ h)

end Vault.Bytes
