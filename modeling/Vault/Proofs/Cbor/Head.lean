import Mathlib.Tactic.IntervalCases
import Vault.Cbor.Direct
import Vault.Proofs.Bytes

/-!
# Reading back what was written

Every reader takes a cursor into a longer input, and every writer gives bytes without a
place. What ties the two is `Vault.Cbor.ReadsBack p w a`: wherever the bytes `w` stand,
whatever follows them, the reader `p` takes exactly them and gives `a`. The statement
speaks of the rest of the input, so it composes: a reader made of parts reads back what
a writer made of the same parts wrote.

This file settles heads, the parts every item begins with
(`Vault.Cbor.readsBack_write`). The argument of a head is a number below `2 ^ 64`, in
one of five widths; one lemma covers all of them, because a head is a first byte that
announces how many bytes follow and those bytes (`Vault.Cbor.readsBack_headBytes`).
-/

namespace Vault.Cbor

/-! ### Cursors and the bytes in front of them -/

namespace Cursor

/-- The cursor stands in its input, and these are the bytes from there on. -/
def Sees (c : Cursor) (l : List UInt8) : Prop :=
  c.pos ≤ c.input.size ∧ c.input.octets.drop c.pos = l

/-- The cursor `n` bytes further on. -/
def skip (c : Cursor) (n : ℕ) : Cursor := { c with pos := c.pos + n }

theorem sees_zero (b : Bytes) : Sees ⟨b, 0⟩ b.octets :=
  ⟨Nat.zero_le _, List.drop_zero⟩

theorem skip_skip (c : Cursor) (m n : ℕ) : (c.skip m).skip n = c.skip (m + n) := by
  simp [skip, Nat.add_assoc]

variable {c : Cursor} {l rest : List UInt8}

theorem Sees.left_eq (h : c.Sees l) : c.left = l.length := by
  rw [← h.2, List.length_drop, Bytes.length_octets, left]

theorem Sees.skip {n : ℕ} (h : c.Sees (l ++ rest)) (hn : l.length = n) :
    (c.skip n).Sees rest := by
  have hlen := h.left_eq
  rw [left, List.length_append] at hlen
  have hpos := h.1
  refine ⟨?_, ?_⟩
  · change c.pos + n ≤ c.input.size
    omega
  · change c.input.octets.drop (c.pos + n) = rest
    rw [← List.drop_drop, h.2, ← hn, List.drop_left]

/-- A cursor takes the bytes it sees. -/
theorem Sees.take? {w : Bytes} (h : c.Sees (w.octets ++ rest)) :
    c.take? w.size = some (w, c.skip w.size) := by
  have hlen := h.left_eq
  rw [left, List.length_append, Bytes.length_octets] at hlen
  have hpos := h.1
  rw [Cursor.take?, if_pos (by omega)]
  refine congrArg some (Prod.ext (Bytes.ext_octets ?_) rfl)
  rw [Bytes.octets_extract, h.2, Nat.add_sub_cancel_left]
  exact List.take_left' (Bytes.length_octets w)

theorem Sees.take {w : Bytes} (h : c.Sees (w.octets ++ rest)) :
    c.take w.size = .ok (w, c.skip w.size) := by
  rw [Cursor.take, h.take?]

end Cursor

/-- **A reader reads back these bytes**: wherever they stand and whatever follows them, it
takes exactly them and gives this value. -/
def ReadsBack {α : Type} (p : Cursor → Except Error (α × Cursor)) (w : Bytes) (a : α) : Prop :=
  ∀ (c : Cursor) (rest : List UInt8), c.Sees (w.octets ++ rest) → p c = .ok (a, c.skip w.size)

/-! ### Heads -/

namespace Head

/-- A first byte that announces `k` bytes of argument, and these bytes. -/
def bytesOf (major info k arg : ℕ) : Bytes :=
  ByteArray.empty.push (UInt8.ofNat (major * 32 + info)) ++ Bytes.ofNatBE k arg

theorem octets_bytesOf (major info k arg : ℕ) :
    (bytesOf major info k arg).octets =
      UInt8.ofNat (major * 32 + info) :: (Bytes.ofNatBE k arg).octets := by
  simp [bytesOf]

theorem size_bytesOf (major info k arg : ℕ) : (bytesOf major info k arg).size = 1 + k := by
  rw [← Bytes.length_octets, octets_bytesOf, List.length_cons, Bytes.length_octets,
    Bytes.size_ofNatBE, Nat.add_comm]

/-- The additional information and the number of argument bytes of the shortest head fit
together. -/
structure Announces (info k arg : ℕ) : Prop where
  info_lt : info < 31
  bytes_eq : argumentBytes? info = some k
  arg_eq : (if k = 0 then info else arg % 256 ^ k) = arg

/-- The shortest head, whatever its width, is a first byte and the bytes it announces. -/
theorem write_eq_bytesOf (major : ℕ) {arg : ℕ} (h : arg < 2 ^ 64) :
    ∃ info k, Announces info k arg ∧ write major arg = bytesOf major info k arg := by
  have hzero (n : ℕ) : Bytes.ofNatBE 0 n = ByteArray.empty := rfl
  unfold write
  dsimp only
  by_cases h24 : arg < 24
  · refine ⟨arg, 0, ⟨by omega, by simp [argumentBytes?, h24], rfl⟩, ?_⟩
    rw [if_pos h24, bytesOf, hzero, ByteArray.append_empty]
  rw [if_neg h24]
  by_cases h8 : arg < 2 ^ 8
  · exact ⟨24, 1, ⟨by omega, rfl, Nat.mod_eq_of_lt h8⟩, by rw [if_pos h8]; rfl⟩
  rw [if_neg h8]
  by_cases h16 : arg < 2 ^ 16
  · exact ⟨25, 2, ⟨by omega, rfl, Nat.mod_eq_of_lt h16⟩, by rw [if_pos h16]; rfl⟩
  rw [if_neg h16]
  by_cases h32 : arg < 2 ^ 32
  · exact ⟨26, 4, ⟨by omega, rfl, Nat.mod_eq_of_lt h32⟩, by rw [if_pos h32]; rfl⟩
  · exact ⟨27, 8, ⟨by omega, rfl, Nat.mod_eq_of_lt h⟩, by rw [if_neg h32]; rfl⟩

theorem size_write_pos (major arg : ℕ) : 0 < (write major arg).size := by
  unfold write
  dsimp only
  split_ifs <;> simp only [ByteArray.size_append, ByteArray.size_push, ByteArray.size_empty] <;>
    omega

end Head

/-- A first byte and the bytes it announces read back as one head. -/
theorem readsBack_headBytes {major info k arg : ℕ} {h : Head} (hm : major < 8)
    (ha : Head.Announces info k arg) (hh : Head.assemble? major info arg = some h) :
    ReadsBack Head.read (Head.bytesOf major info k arg) h := by
  intro c rest hc
  have hinfo := ha.info_lt
  set x := UInt8.ofNat (major * 32 + info) with hx
  have hxnat : x.toNat = major * 32 + info := by
    rw [hx, UInt8.toNat_ofNat']
    omega
  -- the first byte, alone
  have hsee : c.Sees (Bytes.octets (ByteArray.empty.push x) ++
      ((Bytes.ofNatBE k arg).octets ++ rest)) := by
    rw [Head.octets_bytesOf, ← hx] at hc
    exact hc
  have hfirst : c.take 1 = .ok (ByteArray.empty.push x, c.skip 1) := hsee.take
  have hbyte : Bytes.byteAt (ByteArray.empty.push x) 0 = x := rfl
  -- then the argument
  have harg : (c.skip 1).take k = .ok (Bytes.ofNatBE k arg, (c.skip 1).skip k) := by
    have h2 := (hsee.skip (n := 1) rfl).take
    rwa [Bytes.size_ofNatBE] at h2
  have hvalue : (if k = 0 then info else Bytes.natBE (Bytes.ofNatBE k arg)) = arg := by
    rw [Bytes.natBE_ofNatBE, ha.arg_eq]
  have hmod : (major * 32 + info) % 32 = info := by omega
  have hdiv : (major * 32 + info) / 32 = major := by omega
  rw [Head.size_bytesOf, ← c.skip_skip]
  simp only [Head.read, hfirst, bind, Except.bind, hbyte, hxnat, hmod, hdiv, ha.bytes_eq, harg,
    hvalue, hh]

/-- The head of a number, a string, an array or a map, by its major type. -/
def Head.definite (n : ℕ) : ℕ → Head
  | 0 => .positive n
  | 1 => .negative n
  | 2 => .bytes (some n)
  | 3 => .text (some n)
  | 4 => .array (some n)
  | _ => .map (some n)

/-- **A head reads back**: every argument below `2 ^ 64`, in the width it needs. -/
theorem readsBack_write (major : ℕ) {n : ℕ} (hm : major < 6) (hn : n < 2 ^ 64) :
    ReadsBack Head.read (Head.write major n) (Head.definite n major) := by
  obtain ⟨info, k, ha, hw⟩ := Head.write_eq_bytesOf major hn
  have hinfo : info ≠ 31 := Nat.ne_of_lt ha.info_lt
  rw [hw]
  refine readsBack_headBytes (by omega) ha ?_
  interval_cases major <;> simp [Head.assemble?, Head.definite, hinfo]

/-- None of these heads is a tag, so each is the next head that is none. -/
theorem headAt_write (major : ℕ) {n : ℕ} (hm : major < 6) (hn : n < 2 ^ 64) {c : Cursor}
    {rest : List UInt8} (hc : c.Sees ((Head.write major n).octets ++ rest)) :
    headAt c = .ok (Head.definite n major, c.pos, c.skip (Head.write major n).size) := by
  have hpos := Head.size_write_pos major n
  have hleft : c.left = (Head.write major n).size + rest.length := by
    rw [hc.left_eq, List.length_append, Bytes.length_octets]
  obtain ⟨fuel, hfuel⟩ : ∃ fuel, c.left = fuel + 1 := ⟨c.left - 1, by omega⟩
  rw [headAt, hfuel, skipTags, readsBack_write major hm hn c rest hc]
  interval_cases major <;> rfl

end Vault.Cbor
