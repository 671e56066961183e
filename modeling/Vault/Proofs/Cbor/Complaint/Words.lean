import Mathlib.Data.Nat.Digits.Defs
import Mathlib.Tactic.NormNum
import Vault.Proofs.Wire.Size

/-!
# The words of a complaint

What is wrong with the bytes of a frame is said in words, and the words quote the bytes: a
number, a name, an offset. A quoted text is not much longer than the text, and a number is at
most as long as its digits; so each kind of complaint is short where what it quotes is
(`Vault.Cbor.Error.Terse`).

For the readers this is one property (`Vault.Cbor.Tame`): a failure is short in words, and
what is read is something of which the same can be said when it is quoted.
-/

namespace Vault

/-! ### Quoted texts -/

namespace Text

theorem length_quotedChar_le (c : Char) : (quotedChar c).length ≤ 10 := by
  unfold quotedChar
  split_ifs
  · decide
  · decide
  · decide
  · decide
  · decide
  · decide
  · have hcode : c.toNat < 16 ^ 6 := by
      have hvalid : c.toNat < 0xD800 ∨ 0xDFFF < c.toNat ∧ c.toNat < 0x110000 := c.valid
      omega
    have hdigits : (Nat.toDigits 16 c.toNat).length ≤ 6 :=
      (Nat.length_toDigits_le_iff (by decide) (by decide)).mpr hcode
    simp only [hexNat, String.length_append, String.length_ofList]
    have hbraces : "\\u\x7b".length = 3 ∧ "\x7d".length = 1 := by decide
    omega
  · exact Nat.le_trans (Nat.le_of_eq (by simp)) (by decide : 1 ≤ 10)

theorem length_join_le (k : ℕ) (l : List String) (h : ∀ s ∈ l, s.length ≤ k) :
    (String.join l).length ≤ k * l.length := by
  induction l with
  | nil => simp
  | cons s l ih =>
    have hs := h s List.mem_cons_self
    have hl := ih fun t ht => h t (List.mem_cons_of_mem s ht)
    rw [String.join_cons, String.length_append, List.length_cons, Nat.mul_succ]
    omega

/-- A quoted text is at most ten times as long as the text. -/
theorem length_quoted_le (s : String) : (quoted s).length ≤ 10 * s.length + 2 := by
  have hjoin := length_join_le 10 (s.toList.map quotedChar) (by
    intro t ht
    obtain ⟨c, -, rfl⟩ := List.mem_map.mp ht
    exact length_quotedChar_le c)
  rw [List.length_map, String.length_toList] at hjoin
  have hquotes : "\"".length = 1 := by decide
  rw [quoted, String.length_append, String.length_append]
  omega

end Text

namespace Utf8

/-- A character takes a byte at least. -/
theorem length_le_size_encode (s : String) : s.length ≤ (encode s).size := by
  rw [← String.ofList_toList (s := s), size_encode_ofList, String.length_ofList]
  induction s.toList with
  | nil => exact Nat.zero_le _
  | cons c l ih =>
    have hc := c.utf8Size_pos
    rw [List.map_cons, List.sum_cons, List.length_cons]
    omega

theorem length_le_of_decode? {b : Bytes} {s : String} (h : decode? b = some s) :
    s.length ≤ b.size := by
  have hencode : encode s = b := by
    unfold decode? String.fromUTF8? at h
    split at h
    · rw [← Option.some.inj h]
      rfl
    · cases h
  exact hencode ▸ length_le_size_encode s

/-- Every broken piece is a byte at least. -/
theorem length_lossy_le (b : Bytes) : (lossy b).length ≤ b.size := by
  have hchars (fuel : ℕ) (l : List UInt8) : (lossyChars fuel l).length ≤ fuel := by
    induction fuel generalizing l with
    | zero => cases l <;> exact Nat.le_refl 0
    | succ fuel ih =>
      cases l with
      | nil => exact Nat.zero_le _
      | cons lead rest =>
        rw [lossyChars]
        split <;> exact Nat.succ_le_succ (ih _)
  rw [lossy, String.length_ofList]
  exact hchars _ _

end Utf8

/-! ### Numbers -/

theorem length_toString_le {n k : ℕ} (hk : 0 < k) (hn : n < 10 ^ k) : (toString n).length ≤ k :=
  (Nat.length_repr_le_iff hk).mpr hn

theorem length_toString_int_le {n : ℤ} {k : ℕ} (hk : 0 < k) (hn : n.natAbs < 10 ^ k) :
    (toString n).length ≤ k + 1 := by
  rcases n with m | m
  · exact Nat.le_succ_of_le (length_toString_le hk hn)
  · have hdigits : (toString (m + 1)).length ≤ k := length_toString_le hk hn
    have hminus : "-".length = 1 := by decide
    have htext : toString (Int.negSucc m) = "-" ++ toString (m + 1) := rfl
    rw [htext, String.length_append]
    omega

namespace Decimal

theorem length_plain_le (d : Numeral) :
    d.plain.length ≤ (digitsText d.digits).length + d.exponent.natAbs + 2 := by
  have hzero : ".0".length = 2 ∧ ".".length = 1 ∧ "0.".length = 2 := by decide
  unfold Numeral.plain
  dsimp only
  split_ifs with hpos hinside
  · simp only [zeros, String.length_append, String.length_ofList, List.length_replicate]
    omega
  · simp only [String.length_append, String.length_ofList, List.length_take, List.length_drop,
      String.length_toList]
    omega
  · simp only [zeros, String.length_append, String.length_ofList, List.length_replicate]
    omega

/-- Digits may be trimmed, but not added. -/
theorem trimmed_le (fuel digits : ℕ) (exponent : ℤ) :
    (trimmed fuel digits exponent).digits ≤ digits ∧
      exponent ≤ (trimmed fuel digits exponent).exponent ∧
      (trimmed fuel digits exponent).exponent ≤ exponent + fuel := by
  induction fuel generalizing digits exponent with
  | zero => simp [trimmed]
  | succ fuel ih =>
    rw [trimmed]
    split_ifs
    · obtain ⟨hdigits, hlow, hhigh⟩ := ih (digits / 10) (exponent + 1)
      have hdiv := Nat.div_le_self digits 10
      push_cast
      omega
    · dsimp only
      push_cast
      omega

theorem leadingPlace_le {num k : ℕ} (den : ℕ) (hk : 0 < k) (hnum : num < 10 ^ k) :
    -400 ≤ leadingPlace num den ∧ leadingPlace num den ≤ k := by
  rw [leadingPlace]
  split_ifs with hle
  · have hwidth : width (num / den) ≤ k :=
      (Nat.length_toDigits_le_iff (by decide) hk).mpr
        (Nat.lt_of_le_of_lt (Nat.div_le_self num den) hnum)
    omega
  · split
    · rename_i j hj
      have hmem := List.mem_of_find?_eq_some hj
      rw [List.mem_range] at hmem
      omega
    · omega

/-- A grid point is no more than one above the number, counted in units of the grid. -/
theorem gridPoint_le {num low high den point : ℕ} {closed : Bool} {place : ℤ}
    (h : gridPoint num low high den closed place = some point) :
    point ≤ num * 10 ^ (-place).toNat + 1 := by
  have hbelow : num * 10 ^ (-place).toNat / (den * 10 ^ place.toNat) ≤ num * 10 ^ (-place).toNat :=
    Nat.div_le_self _ _
  unfold gridPoint at h
  dsimp only at h
  generalize num * 10 ^ (-place).toNat / (den * 10 ^ place.toNat) = below at h hbelow
  split_ifs at h
  all_goals
    have hpoint := Option.some.inj h
    omega

/-- The significand of a double in quarters of its last place has no more than 310 digits. -/
theorem scaled_lt {significand exponent : ℕ} (hs : significand < 2 ^ 53) (he : exponent < 2048) :
    ∃ a, 0 < a ∧ a ≤ 310 ∧ 4 * significand * 2 ^ (exponent - 1077) < 10 ^ a := by
  refine ⟨310, by decide, Nat.le_refl _, ?_⟩
  have hscale : 2 ^ (exponent - 1077) ≤ 2 ^ 971 := by
    gcongr
    · decide
    · omega
  calc 4 * significand * 2 ^ (exponent - 1077) ≤ 4 * 2 ^ 53 * 2 ^ 971 :=
        Nat.mul_le_mul (by omega) hscale
    _ < 10 ^ 310 := by decide +kernel

/-- The shortest decimal of a double has few digits, and its point is not far off. -/
theorem shortest_le {significand exponent : ℕ} (hs : significand < 2 ^ 53) (he : exponent < 2048)
    (tight : Bool) : width (shortest significand exponent tight).digits ≤ 728 ∧
      (shortest significand exponent tight).exponent.natAbs ≤ 440 := by
  have hnone : width (⟨0, 0⟩ : Numeral).digits ≤ 728 ∧
      (⟨0, 0⟩ : Numeral).exponent.natAbs ≤ 440 := by
    decide
  obtain ⟨a, ha, hle, hnum⟩ := scaled_lt hs he
  rw [shortest]
  by_cases hzero : significand = 0
  · rw [if_pos hzero]
    exact hnone
  rw [if_neg hzero]
  dsimp only
  generalize 4 * significand * 2 ^ (exponent - 1077) = num at hnum ⊢
  split
  · rename_i digits place hfind
    obtain ⟨n, hn, hpoint⟩ := List.exists_of_findSome?_eq_some hfind
    obtain ⟨point, hgrid, hpair⟩ := Option.map_eq_some_iff.mp hpoint
    obtain ⟨rfl, rfl⟩ := Prod.mk.inj hpair
    rw [List.mem_range] at hn
    -- the last digit is fewer than 18 places below the first, which bounds both
    -- the point of the grid and, after the zeros are trimmed, the exponent
    obtain ⟨hlow, hhigh⟩ := leadingPlace_le (2 ^ (1077 - exponent)) ha hnum
    have hbound := gridPoint_le hgrid
    generalize hp : leadingPlace num (2 ^ (1077 - exponent)) - (n : ℤ) = place at *
    obtain ⟨hdigits, hplace, hplace'⟩ := trimmed_le 20 point place
    have hpoint : point < 10 ^ (a + (-place).toNat + 1) := by
      have hmul : num * 10 ^ (-place).toNat < 10 ^ a * 10 ^ (-place).toNat :=
        Nat.mul_lt_mul_of_pos_right hnum (Nat.pow_pos (by decide))
      rw [Nat.pow_succ, Nat.pow_add]
      omega
    have hwidth := Nat.toDigits_length 10 (trimmed 20 point place).digits
      (a + (-place).toNat + 1) (Nat.succ_pos _) (Nat.lt_of_le_of_lt hdigits hpoint)
    rw [width]
    omega
  · exact hnone

/-- **A double is written without exponent in no more than 1200 characters.** -/
theorem length_plainText_le (bits : UInt64) : (plainText bits).length ≤ 1200 := by
  have hfinite (negative : Bool) {significand exponent : ℕ} (hs : significand < 2 ^ 53)
      (he : exponent < 2048) (tight : Bool) :
      ((if negative then "-" else "") ++ (shortest significand exponent tight).plain).length ≤
        1200 := by
    obtain ⟨hdigits, hexponent⟩ := shortest_le hs he tight
    have hplain := length_plain_le (shortest significand exponent tight)
    have htext : (digitsText (shortest significand exponent tight).digits).length ≤ 728 := by
      rw [digitsText, String.length_ofList]
      exact hdigits
    have hsign : (if negative then "-" else "").length ≤ 1 := by cases negative <;> decide
    rw [String.length_append]
    omega
  have hfraction : bits.toNat % 2 ^ 52 < 2 ^ 52 := Nat.mod_lt _ (by decide)
  have hexponent : bits.toNat / 2 ^ 52 % 2048 < 2048 := Nat.mod_lt _ (by decide)
  unfold plainText Double.ofBits
  dsimp only
  split_ifs
  · dsimp only
    split_ifs <;> decide
  · exact (by decide : "NaN".length ≤ 1200)
  · exact hfinite _ (by omega) (by decide) _
  · exact hfinite _ (by omega) hexponent _

end Decimal

namespace Cbor

/-! ### Short complaints -/

/-- A failure that is short in words. -/
def Error.Terse (e : Error) : Prop := e.message.length ≤ 60000

namespace Error

theorem terse_inputEnds : inputEnds.Terse := by
  unfold Terse
  decide

theorem terse_tooDeep : tooDeep.Terse := by
  unfold Terse
  decide

theorem terse_malformed {offset : ℕ} (h : offset < 10 ^ 20) : (malformed offset).Terse := by
  have hdigits := length_toString_le (by decide) h
  have hwords : "Syntax(".length = 7 ∧ ")".length = 1 := by decide
  change ("Syntax(" ++ toString offset ++ ")").length ≤ 60000
  rw [String.length_append, String.length_append]
  omega

theorem terse_semantic {text : String} (h : text.length ≤ 5000) : (semantic text).Terse := by
  have hquoted := Text.length_quoted_le text
  have hwords : "Semantic(None, ".length = 15 ∧ ")".length = 1 := by decide
  change ("Semantic(None, " ++ Text.quoted text ++ ")").length ≤ 60000
  rw [String.length_append, String.length_append]
  omega

theorem terse_invalidType {found expected : String} (hfound : found.length ≤ 2000)
    (hexpected : expected.length ≤ 100) : (invalidType found expected).Terse := by
  have hwords : "invalid type: ".length = 14 ∧ ", expected ".length = 11 := by decide
  refine terse_semantic ?_
  simp only [String.length_append]
  omega

theorem terse_unknownVariant {name : String} {known : List String} (hname : name.length ≤ 4096)
    (hknown : (alternatives known).length ≤ 200) : (unknownVariant name known).Terse := by
  have hwords : "unknown variant `".length = 17 ∧ "`, expected ".length = 12 := by decide
  refine terse_semantic ?_
  simp only [String.length_append]
  omega

end Error

/-! ### Tame readers -/

/-- A cursor whose offsets have few digits. -/
def Cursor.Small (c : Cursor) : Prop := c.input.size < 10 ^ 20 ∧ c.pos < 10 ^ 20

theorem Cursor.Small.malformed {c : Cursor} (hc : c.Small) : (Error.malformed c.pos).Terse :=
  Error.terse_malformed hc.2

/-- **A tame reader**: a failure is short in words; otherwise what is read is as `Q` says, and the
offsets still have few digits. -/
def Tame {α : Type} (Q : α → Prop) : Except Error (α × Cursor) → Prop
  | .error e => e.Terse
  | .ok (a, c) => Q a ∧ c.Small

/-- Nothing is said of what is read. -/
def Any {α : Type} (_ : α) : Prop := True

section Tame

variable {α β σ : Type} {Q : α → Prop} {R : β → Prop} {c : Cursor}

theorem Tame.cases {x : Except Error (α × Cursor)} (h : Tame Q x) :
    (∃ e, x = .error e ∧ e.Terse) ∨ ∃ a c, x = .ok (a, c) ∧ Q a ∧ c.Small := by
  rcases x with e | ⟨a, c⟩
  · exact Or.inl ⟨e, rfl, h⟩
  · exact Or.inr ⟨a, c, rfl, h⟩

theorem Tame.mono {Q' : α → Prop} {x : Except Error (α × Cursor)} (h : Tame Q x)
    (hq : ∀ a, Q a → Q' a) : Tame Q' x := by
  rcases x with e | ⟨a, c⟩
  · exact h
  · exact ⟨hq a h.1, h.2⟩

theorem Tame.any {x : Except Error (α × Cursor)} (h : Tame Q x) : Tame Any x :=
  h.mono fun _ _ => trivial

theorem Tame.map {x : Except Error (α × Cursor)} (hx : Tame Q x) {f : α → β}
    (hf : ∀ a, Q a → R (f a)) : Tame R (Wire.mapValue f x) := by
  rcases x with e | ⟨a, c⟩
  · exact hx
  · exact ⟨hf a hx.1, hx.2⟩

/-- What is made of something that was read: a failure is passed on, or the reading goes on. -/
@[elab_as_elim]
theorem Tame.elim {P : Except Error (α × Cursor) → Prop} {x : Except Error (α × Cursor)}
    (hx : Tame Q x) (herror : ∀ e, e.Terse → P (.error e))
    (hok : ∀ a c, Q a → c.Small → P (.ok (a, c))) : P x := by
  rcases x with e | ⟨a, c⟩
  · exact herror e hx
  · exact hok a c hx.1 hx.2

theorem Cursor.Small.take? (hc : c.Small) {k : ℕ} {b : Bytes} {c' : Cursor}
    (h : c.take? k = some (b, c')) : (b.size = k ∧ k ≤ 10 ^ 20) ∧ c'.Small := by
  rw [Cursor.take?] at h
  split_ifs at h with hle
  obtain ⟨rfl, rfl⟩ := Prod.mk.inj (Option.some.inj h)
  have hsize := hc.1
  refine ⟨⟨?_, by omega⟩, hc.1, Nat.lt_of_le_of_lt hle hc.1⟩
  rw [ByteArray.size_extract]
  omega

theorem tame_take (hc : c.Small) (k : ℕ) :
    Tame (fun b => ByteArray.size b = k ∧ k ≤ 10 ^ 20) (c.take k) := by
  rw [Cursor.take]
  rcases h : c.take? k with _ | ⟨b, c'⟩
  · exact Error.terse_inputEnds
  · exact hc.take? h

end Tame

end Cbor

end Vault
