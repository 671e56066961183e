import Vault.Bytes

/-!
# Points in time and lengths of time

The vault stamps a document with a **timestamp**: microseconds since the epoch, in
the range of a signed 64-bit word. A **duration** is what a setting or a timeout
holds: seconds in an unsigned 64-bit word and a fraction in nanoseconds. A
timestamp moves by a duration in two clamped steps, first the duration to the
largest timestamp, then the result to the range of timestamps; the two steps are
kept apart because together they are *not* one clamp of the exact result.
-/

namespace Vault

/-! ### Durations -/

/-- A length of time: whole seconds, and nanoseconds below one second. -/
structure Duration where
  /-- Whole seconds. -/
  secs : UInt64
  /-- The rest, in nanoseconds. -/
  nanos : Fin 1000000000
  deriving DecidableEq, Repr

namespace Duration

/-- A whole number of seconds. -/
def ofSecs (n : UInt64) : Duration :=
  ⟨n, 0⟩

/-- A number of milliseconds. -/
def ofMillis (n : Nat) : Duration :=
  ⟨UInt64.ofNat (n / 1000), ⟨n % 1000 * 1000000, by omega⟩⟩

/-- All of it in nanoseconds. -/
def totalNanos (d : Duration) : Nat :=
  d.secs.toNat * 1000000000 + d.nanos.val

/-- The whole microseconds in it. -/
def wholeMicros (d : Duration) : Nat :=
  d.secs.toNat * 1000000 + d.nanos.val / 1000

/-- The decimal fraction `part / 10 ^ places`, with its point and without trailing zeros;
nothing when it is zero. -/
def fractionText (places part : Nat) : String :=
  if part = 0 then ""
  else
    let digits := Nat.toDigits 10 part
    let padded := List.replicate (places - digits.length) '0' ++ digits
    "." ++ String.ofList (padded.reverse.dropWhile (· == '0')).reverse

/-- The duration in its largest unit: seconds, milliseconds, microseconds or
nanoseconds. -/
def text (d : Duration) : String :=
  let n := d.nanos.val
  if 0 < d.secs then toString d.secs.toNat ++ fractionText 9 n ++ "s"
  else if 1000000 ≤ n then toString (n / 1000000) ++ fractionText 6 (n % 1000000) ++ "ms"
  else if 1000 ≤ n then toString (n / 1000) ++ fractionText 3 (n % 1000) ++ "µs"
  else toString n ++ "ns"

end Duration

/-! ### Timestamps -/

/-- Microseconds since the epoch, in the range of a signed 64-bit word. -/
structure Timestamp where
  /-- The number of microseconds. -/
  micros : Int
  /-- It is at least the least word. -/
  least_le : -(2 ^ 63) ≤ micros
  /-- It is at most the greatest word. -/
  le_greatest : micros ≤ 2 ^ 63 - 1
  deriving DecidableEq, Repr

namespace Timestamp

/-- The largest number of microseconds. -/
def greatest : Int := 2 ^ 63 - 1

/-- The smallest number of microseconds. -/
def least : Int := -(2 ^ 63)

/-- The timestamp nearest to a number of microseconds. -/
def clamp (micros : Int) : Timestamp :=
  ⟨max (-(2 ^ 63)) (min micros (2 ^ 63 - 1)), by omega, by omega⟩

/-- The timestamp with exactly this number of microseconds, if there is one. -/
def ofMicros? (micros : Int) : Option Timestamp :=
  if h : -(2 ^ 63) ≤ micros ∧ micros ≤ 2 ^ 63 - 1 then some ⟨micros, h.1, h.2⟩ else none

/-- The epoch itself. -/
def epoch : Timestamp := clamp 0

theorem ext_micros {s t : Timestamp} (h : s.micros = t.micros) : s = t := by
  cases s
  cases t
  cases h
  rfl

/-- How far a duration can move a timestamp: its whole microseconds, at most the largest
timestamp. -/
def reach (d : Duration) : Int :=
  min (d.wholeMicros : Int) greatest

/-- The timestamp a duration earlier, at the earliest the least timestamp. -/
def back (t : Timestamp) (d : Duration) : Timestamp :=
  clamp (t.micros - reach d)

/-- The timestamp a duration later, at the latest the greatest timestamp. -/
def forward (t : Timestamp) (d : Duration) : Timestamp :=
  clamp (t.micros + reach d)

instance : LE Timestamp := ⟨fun s t => s.micros ≤ t.micros⟩

instance : LT Timestamp := ⟨fun s t => s.micros < t.micros⟩

instance (s t : Timestamp) : Decidable (s ≤ t) :=
  inferInstanceAs (Decidable (s.micros ≤ t.micros))

instance (s t : Timestamp) : Decidable (s < t) :=
  inferInstanceAs (Decidable (s.micros < t.micros))

/-- The microseconds and their unit. -/
def text (t : Timestamp) : String :=
  toString t.micros ++ "us"

end Timestamp

end Vault
