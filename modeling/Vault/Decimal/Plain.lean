import Vault.Decimal.Shortest

/-!
# How floating-point numbers are written

Two forms show the same digits, those of `Vault.Decimal.shortest`:

* the **plain** form has no exponent, and at least one digit after the point;
* the **compact** form turns to an exponent below `1e-4` and from `1e16` on.

Neither writes a plus sign, and both write `NaN`, `inf` and `-inf`.
-/

namespace Vault.Decimal

/-- The digits of a number. -/
def digitsText (n : Nat) : String :=
  String.ofList (Nat.toDigits 10 n)

/-- `n` zeros. -/
def zeros (n : Nat) : String :=
  String.ofList (List.replicate n '0')

/-- A positive decimal without exponent, with at least one digit on both sides of the
point. -/
def Numeral.plain (d : Numeral) : String :=
  let text := digitsText d.digits
  if 0 ≤ d.exponent then text ++ zeros d.exponent.toNat ++ ".0"
  else
    let places := (-d.exponent).toNat
    if places < text.length then
      String.ofList (text.toList.take (text.length - places)) ++ "." ++
        String.ofList (text.toList.drop (text.length - places))
    else "0." ++ zeros (places - text.length) ++ text

/-- A positive decimal with one digit before the point and an exponent. -/
def Numeral.scientific (d : Numeral) : String :=
  let text := digitsText d.digits
  let power := d.exponent + (text.length : Int) - 1
  let fraction := String.ofList (text.toList.drop 1)
  String.ofList (text.toList.take 1) ++ (if fraction.isEmpty then "" else "." ++ fraction) ++
    "e" ++ toString power

/-- The place of the leading digit. -/
def Numeral.leading (d : Numeral) : Int :=
  d.exponent + (width d.digits : Int) - 1

/-- A double without exponent. -/
def plainText (bits : UInt64) : String :=
  match Double.ofBits bits with
  | .nan => "NaN"
  | .infinite negative => if negative then "-inf" else "inf"
  | .finite negative significand exponent tight =>
    (if negative then "-" else "") ++ (shortest significand exponent tight).plain

/-- A double with an exponent where it is very small or very large. -/
def compactText (bits : UInt64) : String :=
  match Double.ofBits bits with
  | .nan => "NaN"
  | .infinite negative => if negative then "-inf" else "inf"
  | .finite negative significand exponent tight =>
    let d := shortest significand exponent tight
    let sign := if negative then "-" else ""
    if significand ≠ 0 ∧ (d.leading < -4 ∨ 16 ≤ d.leading) then sign ++ d.scientific
    else sign ++ d.plain

end Vault.Decimal
