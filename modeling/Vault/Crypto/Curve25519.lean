import Vault.Bytes

/-!
# The curve

Key agreement happens on the curve `v² = u³ + 486662 u² + u` over the integers modulo
`2 ^ 255 - 19`, on first coordinates alone. A **scalar** of 32 bytes stands for a number
whose low three bits and top bit are cleared and whose second bit from the top is set;
multiplying a coordinate by it climbs a ladder, one bit at a time.
-/

namespace Vault.Crypto.Curve25519

/-- The modulus. -/
def modulus : Nat := 2 ^ 255 - 19

/-- The size of a scalar and of a coordinate. -/
def coordinateBytes : Nat := 32

/-! ### Arithmetic modulo the prime -/

/-- The sum. -/
def add (a b : Nat) : Nat := (a + b) % modulus

/-- The difference, of numbers below the modulus. -/
def sub (a b : Nat) : Nat := (a + modulus - b) % modulus

/-- The product. -/
def mul (a b : Nat) : Nat := a * b % modulus

/-- The power of `a` to the number in the low `n` bits of `e`, times `acc`. -/
def power (e : Nat) : Nat → Nat → Nat → Nat
  | 0, _, acc => acc
  | n + 1, a, acc =>
    power (e / 2) n (mul a a) (if e % 2 = 1 then mul acc a else acc)

/-- The inverse, and zero for zero. -/
def inverse (a : Nat) : Nat :=
  power (modulus - 2) 255 a 1

/-! ### The ladder -/

/-- Two points that differ by the start of the ladder, each by a numerator and a
denominator of its coordinate. -/
structure Rung where
  /-- The numerator of the lower point. -/
  x₂ : Nat
  /-- The denominator of the lower point. -/
  z₂ : Nat
  /-- The numerator of the upper point. -/
  x₃ : Nat
  /-- The denominator of the upper point. -/
  z₃ : Nat

/-- Double the lower point and put the sum of the two in place of the upper. -/
def Rung.double (u : Nat) (p : Rung) : Rung :=
  let a := add p.x₂ p.z₂
  let aa := mul a a
  let b := sub p.x₂ p.z₂
  let bb := mul b b
  let e := sub aa bb
  let c := add p.x₃ p.z₃
  let d := sub p.x₃ p.z₃
  let da := mul d a
  let cb := mul c b
  let s := add da cb
  let t := sub da cb
  ⟨mul aa bb, mul e (add aa (mul 121665 e)), mul s s, mul u (mul t t)⟩

/-- The same rung with its points exchanged. -/
def Rung.swap (p : Rung) : Rung :=
  ⟨p.x₃, p.z₃, p.x₂, p.z₂⟩

/-- The next rung, for one bit of the scalar. -/
def Rung.next (u : Nat) (bit : Bool) (p : Rung) : Rung :=
  if bit then (p.swap.double u).swap else p.double u

/-- Climb the low `n` bits of a number, the highest first. -/
def climb (u k : Nat) : Nat → Rung → Rung
  | 0, p => p
  | n + 1, p => climb u k n (p.next u (k.testBit n))

/-! ### Scalars and coordinates as bytes -/

/-- The number a scalar stands for. -/
def scalarNat (scalar : Bytes) : Nat :=
  2 ^ 254 + Bytes.natLE scalar % 2 ^ 254 / 8 * 8

/-- The number of a coordinate; the top bit is ignored. -/
def coordinateNat (u : Bytes) : Nat :=
  Bytes.natLE u % 2 ^ 255 % modulus

/-- A coordinate multiplied by a scalar. -/
def multiply (scalar coordinate : Bytes) : Bytes :=
  let u := coordinateNat coordinate
  let p := climb u (scalarNat scalar) 255 ⟨1, 0, u, 1⟩
  Bytes.ofNatLE coordinateBytes (mul p.x₂ (inverse p.z₂))

@[simp] theorem size_multiply (scalar coordinate : Bytes) :
    (multiply scalar coordinate).size = 32 :=
  Bytes.size_ofNatLE _ _

/-- The coordinate of the base point. -/
def base : Bytes :=
  Bytes.ofNatLE coordinateBytes 9

end Vault.Crypto.Curve25519
