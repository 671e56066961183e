import Vault.Bytes

/-!
# Random bytes

Randomness is a value: an endless stream of bytes and the number of bytes already
drawn from it. Keys, nonces and ids all draw from the same stream, in the order in
which they are made, so a run of the vault is a function of its stream.

`Vault.Entropy.seeded` is a stream for rehearsals: some given bytes, and after them
the output words of a small mixing generator, least significant byte first.
-/

namespace Vault

/-- A stream of random bytes, some of them already drawn. -/
structure Entropy where
  /-- The whole stream. -/
  stream : Nat → UInt8
  /-- How many bytes have been drawn. -/
  drawn : Nat := 0

namespace Entropy

/-- The next `n` bytes, and the stream after them. -/
def draw (e : Entropy) (n : Nat) : Bytes × Entropy :=
  (Bytes.ofFn n fun i => e.stream (e.drawn + i), { e with drawn := e.drawn + n })

@[simp] theorem size_draw (e : Entropy) (n : Nat) : (e.draw n).1.size = n :=
  Bytes.size_ofFn _ _

/-- The `k`-th word of the mixing generator: the state advances by a fixed step, and each
state is scrambled by two rounds of shift and multiplication. -/
def mixedWord (seed : UInt64) (k : Nat) : UInt64 :=
  let s := seed + 0x9E3779B97F4A7C15 * UInt64.ofNat (k + 1)
  let z := (s ^^^ (s >>> 30)) * 0xBF58476D1CE4E5B9
  let z := (z ^^^ (z >>> 27)) * 0x94D049BB133111EB
  z ^^^ (z >>> 31)

/-- A reproducible stream: the given bytes, then the words of the mixing generator. -/
def seeded (given : Bytes) (seed : UInt64) : Entropy where
  stream i :=
    if i < given.size then Bytes.byteAt given i
    else
      let j := i - given.size
      (mixedWord seed (j / 8) >>> UInt64.ofNat (8 * (j % 8))).toUInt8

end Entropy

end Vault
