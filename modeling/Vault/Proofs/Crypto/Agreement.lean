import Mathlib.Algebra.CharP.Frobenius
import Mathlib.Data.List.Prime
import Mathlib.NumberTheory.LucasPrimality
import Mathlib.Tactic.NormNum.Prime
import Mathlib.Tactic.ReduceModChar
import Vault.Crypto.Key
import Vault.Proofs.Bytes
import Vault.Proofs.Crypto.Ladder

/-!
# Two sides agree on one secret

Each side multiplies the other's public coordinate by its own scalar, and both come to the
same coordinate (`Vault.Crypto.Curve25519.multiply_comm`), since both have multiplied the base
point by both scalars. What is multiplied here are numbers modulo a prime, in numerator and
denominator, climbing a ladder bit by bit; that this is multiplication on the curve is what
has to be shown. A field of the right characteristic is all that is needed for it.

A coordinate that is zero is an exception to the ladder's rule, and there it comes out right
for another reason: every scalar is even, and twice the point of coordinate zero is zero.
-/

namespace Vault.Crypto.Curve25519

/-! ### The prime -/

/-- A number is prime if the order of some element is the predecessor of the number. -/
theorem prime_of_factors {p : ℕ} (a : ZMod p) (qs : List ℕ) (hqs : qs.Forall Nat.Prime)
    (hprod : qs.prod = p - 1) (hone : a ^ (p - 1) = 1)
    (hne : qs.Forall fun q => a ^ ((p - 1) / q) ≠ 1) : p.Prime := by
  rw [List.forall_iff_forall_mem] at hqs hne
  refine lucas_primality p a hone fun q hq hdvd => hne q ?_
  rw [← hprod] at hdvd
  exact mem_list_primes_of_dvd_prod hq.prime (fun r hr => (hqs r hr).prime) hdvd

theorem prime_72106336199 : Nat.Prime 72106336199 := by
  have hq : Nat.Prime 2773320623 := by
    refine prime_of_factors 5 [2, 2437, 569003] ?_ (by norm_num) (by reduce_mod_char) ?_
    · norm_num [List.Forall]
    · norm_num only [List.Forall]
      reduce_mod_char
      decide
  refine prime_of_factors 7 [2, 13, 2773320623] ?_ (by norm_num) (by reduce_mod_char) ?_
  · exact ⟨by norm_num, by norm_num, hq⟩
  · norm_num only [List.Forall]
    reduce_mod_char
    decide

theorem prime_1919519569386763 : Nat.Prime 1919519569386763 := by
  refine prime_of_factors 2 [2, 3, 7, 19, 47, 47, 127, 8574133] ?_ (by norm_num)
    (by reduce_mod_char) ?_
  · norm_num [List.Forall]
  · norm_num only [List.Forall]
    reduce_mod_char
    decide

theorem prime_75445702479781427272750846543864801 :
    Nat.Prime 75445702479781427272750846543864801 := by
  refine prime_of_factors 7 [2, 2, 2, 2, 2, 3, 3, 5, 5, 75707, 72106336199, 1919519569386763] ?_
    (by norm_num) (by reduce_mod_char) ?_
  · refine ⟨?_, ?_, ?_, ?_, ?_, ?_, ?_, ?_, ?_, ?_, prime_72106336199, prime_1919519569386763⟩ <;>
      norm_num
  · norm_num only [List.Forall]
    reduce_mod_char
    decide

theorem prime_31757755568855353 : Nat.Prime 31757755568855353 := by
  refine prime_of_factors 10 [2, 2, 2, 3, 31, 107, 223, 4153, 430751] ?_ (by norm_num)
    (by reduce_mod_char) ?_
  · norm_num [List.Forall]
  · norm_num only [List.Forall]
    reduce_mod_char
    decide

theorem prime_cofactor :
    Nat.Prime 74058212732561358302231226437062788676166966415465897661863160754340907 := by
  refine prime_of_factors 2
    [2, 3, 353, 57467, 132049, 1923133, 31757755568855353, 75445702479781427272750846543864801] ?_
    (by norm_num) (by reduce_mod_char) ?_
  · refine ⟨?_, ?_, ?_, ?_, ?_, ?_, prime_31757755568855353,
      prime_75445702479781427272750846543864801⟩ <;> norm_num
  · norm_num only [List.Forall]
    reduce_mod_char
    decide

/-- **The modulus is prime.** -/
theorem prime_modulus : modulus.Prime := by
  have hmodulus : modulus =
      57896044618658097711785492504343953926634992332820282019728792003956564819949 := by
    norm_num [modulus]
  rw [hmodulus]
  refine prime_of_factors 2 [2, 2, 3, 65147,
    74058212732561358302231226437062788676166966415465897661863160754340907] ?_
    (by norm_num) (by reduce_mod_char) ?_
  · refine ⟨?_, ?_, ?_, ?_, prime_cofactor⟩ <;> norm_num
  · norm_num only [List.Forall]
    reduce_mod_char
    decide

/-! ### Numbers as elements of a field -/

section Ring

variable {K : Type*} [CommRing K] [CharP K modulus]

theorem cast_mod (a : ℕ) : ((a % modulus : ℕ) : K) = a := (CharP.cast_eq_mod K modulus a).symm

theorem cast_add (a b : ℕ) : ((add a b : ℕ) : K) = a + b := by
  rw [add, cast_mod, Nat.cast_add]

theorem cast_mul (a b : ℕ) : ((mul a b : ℕ) : K) = a * b := by
  rw [mul, cast_mod, Nat.cast_mul]

theorem cast_sub {a b : ℕ} (hb : b < modulus) : ((sub a b : ℕ) : K) = a - b := by
  rw [sub, cast_mod, Nat.cast_sub (by omega), Nat.cast_add, CharP.cast_eq_zero K modulus, add_zero]

theorem mul_lt (a b : ℕ) : mul a b < modulus := Nat.mod_lt _ prime_modulus.pos

theorem cast_power (e n a acc : ℕ) :
    ((power e n a acc : ℕ) : K) = acc * a ^ (e % 2 ^ n) := by
  induction n generalizing e a acc with
  | zero => simp [power, Nat.mod_one]
  | succ n ih =>
    have hmod : e % 2 ^ (n + 1) = e % 2 + 2 * (e / 2 % 2 ^ n) := by
      rw [pow_succ', Nat.mod_mul]
    rw [power, ih, cast_mul, hmod, pow_add, pow_mul]
    split_ifs with hbit
    · rw [cast_mul, hbit]
      ring
    · rw [show e % 2 = 0 by omega]
      ring

end Ring

variable {K : Type*} [Field K] [CharP K modulus]

theorem cast_inverse (a : ℕ) : ((inverse a : ℕ) : K) = (a : K)⁻¹ := by
  have : Fact modulus.Prime := ⟨prime_modulus⟩
  have hsmall : (modulus - 2) % 2 ^ 255 = modulus - 2 := by decide
  rw [inverse, cast_power, hsmall, Nat.cast_one, one_mul]
  by_cases ha : (a : K) = 0
  · rw [ha, inv_zero, zero_pow (by decide)]
  · -- the power of the modulus leaves a number alone
    have hpow : (a : K) ^ modulus = a := by
      rw [← frobenius_def, map_natCast]
    apply eq_inv_of_mul_eq_one_left
    apply mul_right_cancel₀ ha
    rw [one_mul, mul_assoc, ← sq, ← pow_add, show modulus - 2 + 2 = modulus by decide, hpow]

/-! ### The ladder climbs the multiples of a point -/

open WeierstrassCurve.Affine

/-- The curve. -/
abbrev E (K : Type*) [Field K] : WeierstrassCurve.Affine K := Ladder.curve 486662

theorem two_ne_zero' : (2 : K) ≠ 0 := by
  have hcast : ((2 : ℕ) : K) ≠ 0 := by
    rw [Ne, CharP.cast_eq_zero_iff K modulus]
    decide
  exact_mod_cast hcast

theorem sq_ne_four : (486662 : K) ^ 2 ≠ 4 := by
  have hcast : ((236839902240 : ℕ) : K) ≠ 0 := by
    rw [Ne, CharP.cast_eq_zero_iff K modulus]
    decide
  intro hc
  apply hcast
  push_cast
  linear_combination hc

variable [DecidableEq K]

/-- A rung holds two points. -/
structure Holds (p : Rung) (P Q : (E K).Point) : Prop where
  /-- The lower point. -/
  lower : Ladder.Represents (p.x₂ : K) (p.z₂ : K) P
  /-- The upper point. -/
  upper : Ladder.Represents (p.x₃ : K) (p.z₃ : K) Q
  /-- The denominators are reduced. -/
  reduced : p.z₂ < modulus ∧ p.z₃ < modulus

omit [CharP K modulus] [DecidableEq K] in
theorem Holds.swap {p : Rung} {P Q : (E K).Point} (hp : Holds p P Q) : Holds p.swap Q P :=
  ⟨hp.upper, hp.lower, hp.reduced.symm⟩

omit [DecidableEq K] in
/-- Doubling a rung, in the field. -/
theorem cast_double (u : ℕ) {p : Rung} (hp : p.z₂ < modulus ∧ p.z₃ < modulus) :
    ((p.double u).x₂ : K) = (p.x₂ + p.z₂) ^ 2 * (p.x₂ - p.z₂) ^ 2 ∧
      ((p.double u).z₂ : K) =
        4 * p.x₂ * p.z₂ * (p.x₂ ^ 2 + 486662 * p.x₂ * p.z₂ + p.z₂ ^ 2) ∧
      ((p.double u).x₃ : K) = 4 * (p.x₂ * p.x₃ - p.z₂ * p.z₃) ^ 2 ∧
      ((p.double u).z₃ : K) = u * (4 * (p.x₂ * p.z₃ - p.x₃ * p.z₂) ^ 2) := by
  simp only [Rung.double, cast_mul, cast_add, cast_sub hp.1, cast_sub hp.2, cast_sub (mul_lt _ _)]
  push_cast
  refine ⟨?_, ?_, ?_, ?_⟩ <;> ring

section Multiples

variable {u : ℕ} {v : K} {hD : (E K).Nonsingular (u : K) v} {p : Rung} {P Q : (E K).Point} {m : ℕ}

/-- **A rung is doubled**: the lower point is, and the upper one becomes the sum. -/
theorem Holds.double (hu : (u : K) ≠ 0)
    (hPQ : Q = P + .some (u : K) v hD ∨ P = Q + .some (u : K) v hD)
    (hp : Holds p P Q) : Holds (p.double u) (P + P) (P + Q) := by
  obtain ⟨hx₂, hz₂, hx₃, hz₃⟩ := cast_double (K := K) u hp.reduced
  refine ⟨?_, ?_, mul_lt _ _, mul_lt _ _⟩
  · rw [hx₂, hz₂]
    exact hp.lower.double two_ne_zero' sq_ne_four
  · rw [hx₃, hz₃]
    exact hp.lower.add two_ne_zero' sq_ne_four hu hPQ hp.upper

/-- The next rung holds the next multiples. -/
theorem Holds.next (hu : (u : K) ≠ 0) (bit : Bool)
    (hp : Holds p (m • .some (u : K) v hD) ((m + 1) • .some (u : K) v hD)) :
    Holds (p.next u bit) ((2 * m + bit.toNat) • .some (u : K) v hD)
      ((2 * m + bit.toNat + 1) • .some (u : K) v hD) := by
  cases bit with
  | false =>
    have hdouble := hp.double hu (Or.inl (succ_nsmul _ m))
    rw [← add_nsmul, ← add_nsmul, ← two_mul, ← add_assoc, ← two_mul] at hdouble
    exact hdouble
  | true =>
    have hdouble := (hp.swap.double hu (Or.inr (succ_nsmul _ m))).swap
    rw [← add_nsmul, ← add_nsmul, show m + 1 + m = 2 * m + 1 by ring,
      show m + 1 + (m + 1) = 2 * m + 1 + 1 by ring] at hdouble
    exact hdouble

/-- **The ladder climbs the multiples of a point.** -/
theorem Holds.climb (hu : (u : K) ≠ 0) (k n : ℕ)
    (hp : Holds p (m • .some (u : K) v hD) ((m + 1) • .some (u : K) v hD)) :
    Holds (climb u k n p) ((m * 2 ^ n + k % 2 ^ n) • .some (u : K) v hD)
      ((m * 2 ^ n + k % 2 ^ n + 1) • .some (u : K) v hD) := by
  induction n generalizing m p with
  | zero => simpa [Curve25519.climb, Nat.mod_one] using hp
  | succ n ih =>
    -- the bit that is looked at is the highest of those that are left
    have hstep := ih (hp.next hu (k.testBit n))
    have hmod : (2 * m + (k.testBit n).toNat) * 2 ^ n + k % 2 ^ n =
        m * 2 ^ (n + 1) + k % 2 ^ (n + 1) := by
      rw [Nat.toNat_testBit, Nat.mod_pow_succ]
      ring
    rw [hmod] at hstep
    exact hstep

end Multiples

omit [DecidableEq K] in
/-- At the coordinate zero one of numerator and denominator is zero all the way up. -/
theorem climb_zero {p : Rung} (hp : p.z₂ < modulus ∧ p.z₃ < modulus)
    (h₂ : (p.x₂ : K) * p.z₂ = 0) (h₃ : (p.x₃ : K) * p.z₃ = 0) (k n : ℕ) :
    ((climb 0 k n p).x₂ : K) * (climb 0 k n p).z₂ = 0 := by
  have hdouble {p : Rung} (hp : p.z₂ < modulus ∧ p.z₃ < modulus) (h₂ : (p.x₂ : K) * p.z₂ = 0) :
      ((p.double 0).z₂ : K) = 0 ∧ ((p.double 0).z₃ : K) = 0 := by
    obtain ⟨-, hz₂, -, hz₃⟩ := cast_double (K := K) 0 hp
    refine ⟨?_, ?_⟩
    · rw [hz₂]
      linear_combination 4 * ((p.x₂ : K) ^ 2 + 486662 * p.x₂ * p.z₂ + p.z₂ ^ 2) * h₂
    · rw [hz₃, Nat.cast_zero, zero_mul]
  induction n generalizing p with
  | zero => exact h₂
  | succ n ih =>
    rw [climb]
    cases k.testBit n with
    | false =>
      obtain ⟨hz₂, hz₃⟩ := hdouble hp h₂
      refine ih ⟨mul_lt _ _, mul_lt _ _⟩ ?_ ?_
      · rw [Rung.next, if_neg Bool.false_ne_true, hz₂, mul_zero]
      · rw [Rung.next, if_neg Bool.false_ne_true, hz₃, mul_zero]
    | true =>
      obtain ⟨hz₂, hz₃⟩ := hdouble (p := p.swap) hp.symm h₃
      refine ih ⟨mul_lt _ _, mul_lt _ _⟩ ?_ ?_
      · change ((p.swap.double 0).x₃ : K) * (p.swap.double 0).z₃ = 0
        rw [hz₃, mul_zero]
      · change ((p.swap.double 0).x₂ : K) * (p.swap.double 0).z₂ = 0
        rw [hz₂, mul_zero]

/-! ### Coordinates as bytes -/

theorem coordinateNat_ofNatLE {n : ℕ} (hn : n < modulus) :
    coordinateNat (Bytes.ofNatLE coordinateBytes n) = n := by
  have hmodulus : modulus ≤ 2 ^ 255 := by decide
  have hwidth : 2 ^ 255 ≤ 256 ^ coordinateBytes := by decide
  rw [coordinateNat, Bytes.natLE_ofNatLE, Nat.mod_eq_of_lt (by omega : n < 256 ^ coordinateBytes),
    Nat.mod_eq_of_lt (by omega : n < 2 ^ 255), Nat.mod_eq_of_lt hn]

theorem scalarNat_lt (s : Bytes) : scalarNat s < 2 ^ 255 := by
  have hlow : Bytes.natLE s % 2 ^ 254 < 2 ^ 254 := Nat.mod_lt _ (Nat.two_pow_pos 254)
  rw [scalarNat, pow_succ 2 254]
  omega

theorem scalarNat_even (s : Bytes) : ∃ m, scalarNat s = 2 * m := by
  refine ⟨2 ^ 253 + Bytes.natLE s % 2 ^ 254 / 8 * 4, ?_⟩
  rw [scalarNat, pow_succ' 2 253]
  ring

/-- The bytes are the coordinate of the point. -/
def Encodes (c : Bytes) (P : (E K).Point) : Prop :=
  ∃ n < modulus, c = Bytes.ofNatLE coordinateBytes n ∧ (n : K) = Ladder.coordinate P

omit [DecidableEq K] in
theorem Encodes.unique {c c' : Bytes} {P : (E K).Point} (hc : Encodes c P) (hc' : Encodes c' P) :
    c = c' := by
  obtain ⟨n, hn, rfl, hP⟩ := hc
  obtain ⟨n', hn', rfl, hP'⟩ := hc'
  rw [CharP.natCast_injOn_Iio K modulus hn hn' (hP.trans hP'.symm)]

/-- **Multiplication by a scalar is multiplication on the curve.** -/
theorem Encodes.multiply {c : Bytes} {P : (E K).Point} (hc : Encodes c P) (s : Bytes) :
    Encodes (multiply s c) (scalarNat s • P) := by
  obtain ⟨u, hu, rfl, hP⟩ := hc
  refine ⟨_, mul_lt _ _, by rw [Curve25519.multiply, coordinateNat_ofNatLE hu], ?_⟩
  rw [cast_mul, cast_inverse]
  have hone : 1 < modulus := prime_modulus.one_lt
  by_cases hzero : (u : K) = 0
  · -- the ladder divides by the coordinate of the difference, so it says nothing here
    obtain rfl : u = 0 :=
      Nat.eq_zero_of_dvd_of_lt ((CharP.cast_eq_zero_iff K modulus u).mp hzero) hu
    obtain ⟨m, hm⟩ := scalarNat_even s
    rw [hm, Ladder.coordinate_even_nsmul (hP.symm.trans hzero) m, ← hm]
    have hclimb := climb_zero (K := K) (p := ⟨1, 0, 0, 1⟩) ⟨prime_modulus.pos, hone⟩ (by simp)
      (by simp) (scalarNat s) 255
    rcases mul_eq_zero.mp hclimb with hx | hz
    · rw [hx, zero_mul]
    · rw [hz, inv_zero, mul_zero]
  · cases P with
    | zero => exact absurd hP hzero
    | some x v hD =>
      obtain rfl : (u : K) = x := hP
      have hstart : Holds ⟨1, 0, u, 1⟩ ((0 : ℕ) • Point.some (u : K) v hD)
          ((0 + 1 : ℕ) • Point.some (u : K) v hD) := by
        refine ⟨?_, ?_, prime_modulus.pos, hone⟩
        · rw [zero_nsmul]
          exact Ladder.represents_zero.mpr ⟨Nat.cast_zero, by simp⟩
        · rw [zero_add, one_nsmul]
          exact ⟨by simp, by simp⟩
      have htop := hstart.climb hzero (scalarNat s) 255
      rw [zero_mul, zero_add, Nat.mod_eq_of_lt (scalarNat_lt s)] at htop
      exact htop.lower.mul_inv

omit [DecidableEq K] in
/-- The base point is on the curve. -/
theorem exists_encodes_base : ∃ B : (E K).Point, Encodes base B := by
  have hy : ((14781619447589544791020593568409986887264606134616475288964881837755586237401 : ℕ) :
      K) ^ 2 = ((39420360 : ℕ) : K) := by
    rw [← Nat.cast_pow, CharP.natCast_eq_natCast K modulus]
    decide
  have hne : ((39420360 : ℕ) : K) ≠ 0 := by
    rw [Ne, CharP.cast_eq_zero_iff K modulus]
    decide
  -- the number above is a root of `9 ^ 3 + 486662 * 9 ^ 2 + 9`
  refine ⟨.some 9 _ (Ladder.nonsingular_of_ne_zero two_ne_zero' (hy.trans ?_) ?_),
    9, by decide, rfl, ?_⟩
  · push_cast
    norm_num
  · intro hc
    rw [hc] at hy
    exact hne (by rw [← hy]; simp)
  · rw [Ladder.coordinate]
    norm_num

end Vault.Crypto.Curve25519

namespace Vault.Crypto

/-- **Both ways around the secret is the same.** -/
theorem Curve25519.multiply_comm (s t : Bytes) :
    multiply s (multiply t base) = multiply t (multiply s base) := by
  have : Fact modulus.Prime := ⟨prime_modulus⟩
  obtain ⟨B, hB⟩ := exists_encodes_base (K := ZMod modulus)
  have hts := (hB.multiply s).multiply t
  rw [smul_comm] at hts
  exact ((hB.multiply t).multiply s).unique hts

/-- **Two sides agree on one secret**, or neither of them on any. -/
theorem KeyPair.agree_comm (p q : KeyPair) : p.agree q.publicKey = q.agree p.publicKey := by
  have hcomm : Curve25519.multiply p.scalar q.publicKey.bytes =
      Curve25519.multiply q.scalar p.publicKey.bytes := by
    rw [p.public_eq, q.public_eq]
    exact Curve25519.multiply_comm p.scalar q.scalar
  simp only [agree, hcomm]

end Vault.Crypto
