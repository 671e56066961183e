import Mathlib.AlgebraicGeometry.EllipticCurve.Affine.Point
import Mathlib.Tactic.LinearCombination

/-!
# Points by their first coordinates

On the curve `y² = x³ + A x² + x` a point is known up to its sign by its first coordinate, and
that may be held as a fraction `X / Z`, with a denominator of zero for the point at infinity
(`Vault.Crypto.Ladder.Represents`). In this form a point can be doubled
(`Vault.Crypto.Ladder.Represents.double`), and two points can be added as soon as the first
coordinate of their difference is known (`Vault.Crypto.Ladder.Represents.add`). There are no
exceptions to the two rules but one: the difference must not have the coordinate zero.
-/

namespace Vault.Crypto.Ladder

open WeierstrassCurve.Affine

variable {K : Type*} [Field K]

/-- The curve `y² = x³ + A x² + x`. -/
def curve (A : K) : WeierstrassCurve.Affine K := ⟨0, A, 0, 1, 0⟩

variable {A : K}

theorem equation_iff_eq {x y : K} :
    (curve A).Equation x y ↔ y ^ 2 = x ^ 3 + A * x ^ 2 + x := by
  rw [WeierstrassCurve.Affine.equation_iff]
  simp [curve]

theorem negY_eq (x y : K) : (curve A).negY x y = -y := by
  simp [WeierstrassCurve.Affine.negY, curve]

theorem addX_eq (x₁ x₂ l : K) : (curve A).addX x₁ x₂ l = l ^ 2 - A - x₁ - x₂ := by
  simp [WeierstrassCurve.Affine.addX, curve]

theorem nonsingular_of_ne_zero (h2 : (2 : K) ≠ 0) {x y : K}
    (hxy : y ^ 2 = x ^ 3 + A * x ^ 2 + x) (hy : y ≠ 0) : (curve A).Nonsingular x y := by
  refine (WeierstrassCurve.Affine.nonsingular_iff x y).mpr ⟨equation_iff_eq.mpr hxy, Or.inr ?_⟩
  intro hc
  apply mul_ne_zero h2 hy
  simp only [curve] at hc
  linear_combination hc

/-- The first coordinate of a point, and zero for the point at infinity. -/
def coordinate : (curve A).Point → K
  | .zero => 0
  | .some x _ _ => x

/-- The fraction `X / Z` is the first coordinate of a point. -/
def Represents (X Z : K) : (curve A).Point → Prop
  | .zero => Z = 0 ∧ X ≠ 0
  | .some x _ _ => Z ≠ 0 ∧ X = x * Z

theorem four_ne_zero_of_two_ne_zero (h2 : (2 : K) ≠ 0) : (4 : K) ≠ 0 := by
  rw [show (4 : K) = 2 * 2 by norm_num]
  exact mul_ne_zero h2 h2

variable {X Z X₁ Z₁ X₂ Z₂ : K} {P Q : (curve A).Point}

theorem Represents.mul_inv (h : Represents X Z P) : X * Z⁻¹ = coordinate P := by
  cases P with
  | zero => rw [h.1, inv_zero, mul_zero, coordinate]
  | some x y hp => rw [h.2, mul_inv_cancel_right₀ h.1, coordinate]

theorem represents_zero : Represents X Z (0 : (curve A).Point) ↔ Z = 0 ∧ X ≠ 0 := Iff.rfl

variable [DecidableEq K]

/-- The point of coordinate zero is its own opposite. -/
theorem coordinate_even_nsmul (hP : coordinate P = 0) (m : ℕ) : coordinate ((2 * m) • P) = 0 := by
  have htwice : (2 : ℕ) • P = 0 := by
    cases P with
    | zero => exact nsmul_zero 2
    | some x y hp =>
      obtain rfl : x = 0 := hP
      have hy : y ^ 2 = 0 := by linear_combination equation_iff_eq.mp hp.1
      rw [two_nsmul]
      refine Point.add_self_of_Y_eq ?_
      rw [negY_eq, pow_eq_zero_iff two_ne_zero |>.mp hy, neg_zero]
  rw [mul_nsmul, htwice, nsmul_zero]
  rfl

/-- **Doubling.** -/
theorem Represents.double (h2 : (2 : K) ≠ 0) (hA : A ^ 2 ≠ 4) (h : Represents X Z P) :
    Represents ((X + Z) ^ 2 * (X - Z) ^ 2) (4 * X * Z * (X ^ 2 + A * X * Z + Z ^ 2)) (P + P) := by
  have h4 := four_ne_zero_of_two_ne_zero h2
  cases P with
  | zero =>
    obtain ⟨rfl, hX⟩ := h
    refine represents_zero.mpr ⟨by ring, ?_⟩
    rw [add_zero, sub_zero]
    exact mul_ne_zero (pow_ne_zero 2 hX) (pow_ne_zero 2 hX)
  | some x y hp =>
    obtain ⟨hZ, rfl⟩ := h
    have hxy := equation_iff_eq.mp hp.1
    by_cases hy : y = 0
    · -- the tangent is vertical
      rw [Point.add_self_of_Y_eq (by rw [negY_eq, hy, neg_zero])]
      have hroot : x * (x ^ 2 + A * x + 1) = 0 := by
        rw [hy] at hxy
        linear_combination -hxy
      refine represents_zero.mpr ⟨by linear_combination 4 * Z ^ 4 * hroot, ?_⟩
      have hx : x ^ 2 - 1 ≠ 0 := by
        intro hx
        have hx0 : x ≠ 0 := by
          rintro rfl
          exact (one_ne_zero : (1 : K) ≠ 0) (by linear_combination -hx)
        have hA' := (mul_eq_zero.mp hroot).resolve_left hx0
        exact hA (by linear_combination (A * x - 2) * hA' - (A * x - 2 + A ^ 2) * hx)
      have hne : (x ^ 2 - 1) ^ 2 * Z ^ 4 ≠ 0 :=
        mul_ne_zero (pow_ne_zero 2 hx) (pow_ne_zero 4 hZ)
      intro hc
      exact hne (by linear_combination hc)
    · -- the tangent has a slope; times `2 * y` it is a polynomial in `x`
      have hne : y ≠ (curve A).negY x y := by
        rw [negY_eq]
        intro hc
        exact (mul_ne_zero h2 hy) (by linear_combination hc)
      have hslope : (curve A).slope x x y y * (2 * y) = 3 * x ^ 2 + 2 * A * x + 1 := by
        rw [WeierstrassCurve.Affine.slope_of_Y_ne rfl hne, negY_eq]
        have hyy : y - -y ≠ 0 := by
          rw [sub_neg_eq_add, ← two_mul]
          exact mul_ne_zero h2 hy
        rw [show 2 * y = y - -y by ring, div_mul_cancel₀ _ hyy]
        simp [curve]
      rw [Point.add_self_of_Y_ne hne]
      refine ⟨?_, ?_⟩
      · have hZ' : 4 * y ^ 2 * Z ^ 4 ≠ 0 :=
          mul_ne_zero (mul_ne_zero h4 (pow_ne_zero 2 hy)) (pow_ne_zero 4 hZ)
        intro hc
        exact hZ' (by linear_combination hc + 4 * Z ^ 4 * hxy)
      · rw [addX_eq]
        set l := (curve A).slope x x y y
        linear_combination (-Z ^ 4 * (l * (2 * y) + (3 * x ^ 2 + 2 * A * x + 1))) * hslope +
          4 * Z ^ 4 * l ^ 2 * hxy

/-- The slope of the line through two points, freed of its denominator. -/
theorem slope_mul {x₁ x₂ : K} (y₁ y₂ : K) (hx : x₁ ≠ x₂) :
    (curve A).slope x₁ x₂ y₁ y₂ * (x₁ - x₂) = y₁ - y₂ := by
  rw [WeierstrassCurve.Affine.slope_of_X_ne hx, div_mul_cancel₀ _ (sub_ne_zero.mpr hx)]

omit [DecidableEq K] in
/-- The first coordinates of a sum and of the difference of the same two points determine each
other. -/
theorem addX_mul_addX {x₁ x₂ y₁ y₂ l m : K} (hx : x₁ ≠ x₂)
    (h₁ : y₁ ^ 2 = x₁ ^ 3 + A * x₁ ^ 2 + x₁) (h₂ : y₂ ^ 2 = x₂ ^ 3 + A * x₂ ^ 2 + x₂)
    (hl : l * (x₁ - x₂) = y₁ - y₂) (hm : m * (x₁ - x₂) = y₁ + y₂) :
    (l ^ 2 - A - x₁ - x₂) * (m ^ 2 - A - x₁ - x₂) * (x₁ - x₂) ^ 2 = (x₁ * x₂ - 1) ^ 2 := by
  have hsub : x₁ - x₂ ≠ 0 := sub_ne_zero.mpr hx
  have hl' : (l ^ 2 - A - x₁ - x₂) * (x₁ - x₂) ^ 2 =
      (y₁ - y₂) ^ 2 - (A + x₁ + x₂) * (x₁ - x₂) ^ 2 := by
    linear_combination (l * (x₁ - x₂) + (y₁ - y₂)) * hl
  have hm' : (m ^ 2 - A - x₁ - x₂) * (x₁ - x₂) ^ 2 =
      (y₁ + y₂) ^ 2 - (A + x₁ + x₂) * (x₁ - x₂) ^ 2 := by
    linear_combination (m * (x₁ - x₂) + (y₁ + y₂)) * hm
  apply mul_left_cancel₀ (pow_ne_zero 2 hsub)
  calc (x₁ - x₂) ^ 2 * ((l ^ 2 - A - x₁ - x₂) * (m ^ 2 - A - x₁ - x₂) * (x₁ - x₂) ^ 2)
      = ((y₁ - y₂) ^ 2 - (A + x₁ + x₂) * (x₁ - x₂) ^ 2) *
          ((y₁ + y₂) ^ 2 - (A + x₁ + x₂) * (x₁ - x₂) ^ 2) := by
        rw [← hl', ← hm']
        ring
    _ = (y₁ ^ 2 - y₂ ^ 2) ^ 2 - 2 * (A + x₁ + x₂) * (x₁ - x₂) ^ 2 * (y₁ ^ 2 + y₂ ^ 2) +
          ((A + x₁ + x₂) * (x₁ - x₂) ^ 2) ^ 2 := by ring
    _ = (x₁ - x₂) ^ 2 * (x₁ * x₂ - 1) ^ 2 := by
        rw [h₁, h₂]
        ring

/-- Adding, when the second point is ahead of the first by a known coordinate. -/
theorem Represents.add_ahead (h2 : (2 : K) ≠ 0) (hA : A ^ 2 ≠ 4) {u v : K}
    {hD : (curve A).Nonsingular u v} (hu : u ≠ 0) (hPQ : Q = P + .some u v hD)
    (hP : Represents X₁ Z₁ P) (hQ : Represents X₂ Z₂ Q) :
    Represents (4 * (X₁ * X₂ - Z₁ * Z₂) ^ 2) (u * (4 * (X₁ * Z₂ - X₂ * Z₁) ^ 2)) (P + Q) := by
  have h4 := four_ne_zero_of_two_ne_zero h2
  cases P with
  | zero =>
    -- the second point is the difference itself
    obtain ⟨rfl, hX⟩ := hP
    obtain rfl : Q = .some u v hD := hPQ.trans (zero_add _)
    obtain ⟨hZ, rfl⟩ := hQ
    rw [← Point.zero_def, zero_add]
    refine ⟨?_, by ring⟩
    exact mul_ne_zero hu (mul_ne_zero h4 (pow_ne_zero 2 (by simpa using ⟨hX, hZ⟩)))
  | some x₁ y₁ h₁ =>
    obtain ⟨hZ₁, rfl⟩ := hP
    cases Q with
    | zero =>
      -- the first point is the opposite of the difference
      obtain ⟨rfl, hX⟩ := hQ
      have hneg : Point.some x₁ y₁ h₁ = -.some u v hD := eq_neg_of_add_eq_zero_left hPQ.symm
      rw [Point.neg_some] at hneg
      obtain ⟨rfl, -⟩ := Point.some.inj hneg
      rw [← Point.zero_def, add_zero]
      refine ⟨?_, by ring⟩
      exact mul_ne_zero hu (mul_ne_zero h4 (pow_ne_zero 2 (by simpa using ⟨hX, hZ₁⟩)))
    | some x₂ y₂ h₂ =>
      obtain ⟨hZ₂, rfl⟩ := hQ
      have e₁ := equation_iff_eq.mp h₁.1
      have e₂ := equation_iff_eq.mp h₂.1
      have hdiff : Point.some u v hD = .some x₂ y₂ h₂ + -.some x₁ y₁ h₁ := by
        rw [hPQ]
        abel
      by_cases hx : x₁ = x₂
      · rcases Point.X_eq_iff.mp hx.symm with hsame | hneg
        · rw [hsame, add_neg_cancel] at hdiff
          exact absurd hdiff (Point.some_ne_zero hD)
        · -- the points are opposite, and their difference is twice the one of them
          subst hx
          rw [hneg, add_neg_cancel]
          refine represents_zero.mpr ⟨by ring, ?_⟩
          have hdouble : Represents ((x₁ + 1) ^ 2 * (x₁ - 1) ^ 2)
              (4 * x₁ * 1 * (x₁ ^ 2 + A * x₁ * 1 + 1 ^ 2)) (Point.some u v hD) := by
            have hrep : Represents x₁ 1 (Point.some x₁ y₂ h₂) := ⟨one_ne_zero, (mul_one x₁).symm⟩
            rw [hdiff, ← hneg]
            exact hrep.double h2 hA
          obtain ⟨hne, heq⟩ := hdouble
          intro hc
          have hroot : (x₁ ^ 2 - 1) ^ 2 = 0 := by
            have hZZ : 4 * (Z₁ * Z₂) ^ 2 ≠ 0 :=
              mul_ne_zero h4 (pow_ne_zero 2 (mul_ne_zero hZ₁ hZ₂))
            apply (mul_eq_zero.mp _).resolve_left hZZ
            linear_combination hc
          exact mul_ne_zero hu hne (by linear_combination hroot - heq)
      · -- two lines: the sum lies on the one through the points, the difference on the one
        -- through the second point and the opposite of the first
        have hsum : Point.some x₁ y₁ h₁ + .some x₂ y₂ h₂ = _ := Point.add_of_X_ne hx
        rw [Point.neg_some, Point.add_of_X_ne (fun hc => hx hc.symm)] at hdiff
        obtain ⟨hu', -⟩ := Point.some.inj hdiff
        rw [addX_eq, negY_eq] at hu'
        rw [hsum]
        refine ⟨?_, ?_⟩
        · refine mul_ne_zero hu (mul_ne_zero h4 (pow_ne_zero 2 ?_))
          intro hc
          exact mul_ne_zero (sub_ne_zero.mpr hx) (mul_ne_zero hZ₁ hZ₂)
            (by linear_combination hc)
        · have hl := slope_mul (A := A) y₁ y₂ hx
          have hm := slope_mul (A := A) y₂ (-y₁) (fun hc => hx hc.symm)
          have hprod := addX_mul_addX hx e₁ e₂ hl
            (by linear_combination hm : -(curve A).slope x₂ x₁ y₂ (-y₁) * (x₁ - x₂) = y₁ + y₂)
          rw [addX_eq]
          rw [show (-(curve A).slope x₂ x₁ y₂ (-y₁)) ^ 2 - A - x₁ - x₂ = u by
            rw [hu']
            ring] at hprod
          linear_combination (-4 * Z₁ ^ 2 * Z₂ ^ 2) * hprod

/-- **Adding**, when the first coordinate of the difference is known. -/
theorem Represents.add (h2 : (2 : K) ≠ 0) (hA : A ^ 2 ≠ 4) {u v : K}
    {hD : (curve A).Nonsingular u v} (hu : u ≠ 0)
    (hPQ : Q = P + .some u v hD ∨ P = Q + .some u v hD)
    (hP : Represents X₁ Z₁ P) (hQ : Represents X₂ Z₂ Q) :
    Represents (4 * (X₁ * X₂ - Z₁ * Z₂) ^ 2) (u * (4 * (X₁ * Z₂ - X₂ * Z₁) ^ 2)) (P + Q) := by
  rcases hPQ with hPQ | hQP
  · exact hP.add_ahead h2 hA hu hPQ hQ
  · have hsum := hQ.add_ahead h2 hA hu hQP hP
    rw [add_comm Q P] at hsum
    rw [show X₁ * X₂ - Z₁ * Z₂ = X₂ * X₁ - Z₂ * Z₁ by ring,
      show (X₁ * Z₂ - X₂ * Z₁) ^ 2 = (X₂ * Z₁ - X₁ * Z₂) ^ 2 by ring]
    exact hsum

end Vault.Crypto.Ladder
