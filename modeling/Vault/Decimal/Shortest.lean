import Vault.Bytes

/-!
# The shortest decimal of a floating-point number

A finite double is a whole number times a power of two, so all of this is
arithmetic on natural numbers: no floating-point operation is used. The **shortest
decimal** of a double is the one with the fewest digits among those nearer to it
than to any other double (both ends of that interval count when the significand is
even); of two with equally few digits the nearer one is taken, and the larger one
when both are equally near.

* `Vault.Decimal.Double` – a double by its fields;
* `Vault.Decimal.shortest` – its digits and the place of the point.
-/

namespace Vault.Decimal

/-- A floating-point number of double precision, read from its 64 bits. -/
inductive Double where
  /-- Not a number. -/
  | nan
  /-- An infinity. -/
  | infinite (negative : Bool)
  /-- The number `significand * 2 ^ (exponent - 1075)`, with the sign in front; `tight`
  marks the least significand of its binade, below which doubles are twice as dense. -/
  | finite (negative : Bool) (significand exponent : Nat) (tight : Bool)
  deriving DecidableEq, Repr

/-- The double with these 64 bits. -/
def Double.ofBits (bits : UInt64) : Double :=
  let n := bits.toNat
  let negative := decide (2 ^ 63 ≤ n)
  let exponent := n / 2 ^ 52 % 2048
  let fraction := n % 2 ^ 52
  if exponent = 2047 then
    if fraction = 0 then .infinite negative else .nan
  else if exponent = 0 then .finite negative fraction 1 false
  else .finite negative (2 ^ 52 + fraction) exponent (fraction == 0 && decide (1 < exponent))

/-- The bits of the double equal to a number of lower precision, given by the widths of
its exponent and fraction fields. -/
def widen (exponentBits fractionBits : Nat) (n : Nat) : UInt64 :=
  let sign := n / 2 ^ (exponentBits + fractionBits) % 2
  let exponent := n / 2 ^ fractionBits % 2 ^ exponentBits
  let fraction := n % 2 ^ fractionBits
  let bias := 1023 - (2 ^ (exponentBits - 1) - 1)
  let magnitude :=
    if exponent = 2 ^ exponentBits - 1 then
      2047 * 2 ^ 52 + fraction * 2 ^ (52 - fractionBits)
    else if exponent = 0 then
      if fraction = 0 then 0
      else
        -- a subnormal number becomes normal: its leading bit is `top`
        let top := fraction.log2
        (bias + 1 + top - fractionBits) * 2 ^ 52 + (fraction - 2 ^ top) * 2 ^ (52 - top)
    else (exponent + bias) * 2 ^ 52 + fraction * 2 ^ (52 - fractionBits)
  UInt64.ofNat (sign * 2 ^ 63 + magnitude)

/-- The decimal `digits * 10 ^ exponent`. -/
structure Numeral where
  /-- The digits, as a number without a trailing zero. -/
  digits : Nat
  /-- The power of ten that the digits count. -/
  exponent : Int
  deriving DecidableEq, Repr

/-- How many decimal digits a number has; zero has one. -/
def width (n : Nat) : Nat :=
  (Nat.toDigits 10 n).length

/-- The place of the leading digit of `num / den`: the whole number `e` with
`10 ^ e ≤ num / den < 10 ^ (e + 1)`. -/
def leadingPlace (num den : Nat) : Int :=
  if den ≤ num then (width (num / den) : Int) - 1
  else
    match (List.range 400).find? fun k => decide (den ≤ num * 10 ^ (k + 1)) with
    | some k => -((k : Int) + 1)
    | none => 0

/-- The better of the two grid points next to `num / den` on the grid of `10 ^ place`,
among those that lie in the interval from `low / den` to `high / den`. -/
def gridPoint (num low high den : Nat) (closed : Bool) (place : Int) : Option Nat :=
  let up := 10 ^ place.toNat
  let down := 10 ^ (-place).toNat
  let unit := den * up
  let below := num * down / unit
  let above := below + 1
  let inside (point : Nat) : Bool :=
    if closed then decide (low * down ≤ point * unit) && decide (point * unit ≤ high * down)
    else decide (low * down < point * unit) && decide (point * unit < high * down)
  let belowIn := decide (0 < below) && inside below
  let aboveIn := inside above
  if belowIn && aboveIn then
    if 2 * (num * down - below * unit) < unit then some below else some above
  else if belowIn then some below
  else if aboveIn then some above
  else none

/-- A decimal without trailing zeros in its digits. -/
def trimmed : Nat → Nat → Int → Numeral
  | 0, digits, exponent => ⟨digits, exponent⟩
  | fuel + 1, digits, exponent =>
    if digits ≠ 0 ∧ digits % 10 = 0 then trimmed fuel (digits / 10) (exponent + 1)
    else ⟨digits, exponent⟩

/-- The shortest decimal of `significand * 2 ^ (exponent - 1075)`. -/
def shortest (significand exponent : Nat) (tight : Bool) : Numeral :=
  if significand = 0 then ⟨0, 0⟩
  else
    -- everything is counted in quarters of the last place
    let scale := 2 ^ (exponent - 1077)
    let den := 2 ^ (1077 - exponent)
    let num := 4 * significand * scale
    let low := (4 * significand - if tight then 1 else 2) * scale
    let high := (4 * significand + 2) * scale
    let top := leadingPlace num den
    let closed := significand % 2 == 0
    let place (n : Nat) : Int := top - (n : Int)
    match (List.range 18).findSome? fun n =>
        (gridPoint num low high den closed (place n)).map fun d => (d, place n) with
    | some (digits, exponent) => trimmed 20 digits exponent
    | none => ⟨0, 0⟩

end Vault.Decimal
