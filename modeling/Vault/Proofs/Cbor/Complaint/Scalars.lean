import Vault.Proofs.Cbor.Complaint.Words

/-!
# Heads, strings and integers are read tamely

The readers of what has no parts: heads, strings whole and in chunks, names and integers. Names
are read only up to a length, and the offset that a complaint gives lies within the bytes.
-/

namespace Vault

namespace Cbor

section Tame

variable {α β σ : Type} {Q : α → Prop} {R : β → Prop} {c : Cursor}

/-! ### Heads -/

/-- A head that is short in words, and does not announce more entries than a number of few
digits. -/
structure Head.Terse (h : Head) : Prop where
  short : h.shown.length ≤ 2000
  few : ∀ n, h = .array (some n) → n ≤ 10 ^ 20

theorem Head.Terse.unexpected {h : Head} (hh : h.Terse) {expected : String}
    (he : expected.length ≤ 100) : (h.unexpected expected).Terse :=
  Error.terse_invalidType hh.short he

theorem Head.length_shown_float (bits : UInt64) : (Head.float bits).shown.length ≤ 2000 := by
  have hplain := Decimal.length_plainText_le bits
  have hwords : "floating point `".length = 16 ∧ "`".length = 1 := by decide
  change ("floating point `" ++ Decimal.plainText bits ++ "`").length ≤ 2000
  rw [String.length_append, String.length_append]
  omega

theorem Head.length_shown_simple (k : ℕ) : (Head.simple k).shown.length ≤ 2000 := by
  unfold shown
  split <;> first | decide | contradiction

/-- The argument of a head fits 64 bits, so the head is short in words. -/
theorem Head.length_shown_assemble? {major info arg : ℕ} (harg : arg < 2 ^ 64) {h : Head}
    (hh : assemble? major info arg = some h) : h.shown.length ≤ 2000 := by
  have hnumber (k : ℤ) (hk : k.natAbs < 10 ^ 20) :
      ("integer `" ++ toString k ++ "`").length ≤ 2000 := by
    have hdigits := length_toString_int_le (by decide) hk
    have hwords : "integer `".length = 9 ∧ "`".length = 1 := by decide
    rw [String.length_append, String.length_append]
    omega
  have hnegative : (wrapNegative arg).natAbs < 10 ^ 20 := by
    rw [wrapNegative]
    split_ifs <;> omega
  have hmap {f : ℕ → Head} (hf : (f arg).shown.length ≤ 2000)
      (hh : (if info = 31 then none else some arg).map f = some h) : h.shown.length ≤ 2000 := by
    split_ifs at hh
    · cases hh
    · rw [← Option.some.inj hh]
      exact hf
  unfold assemble? at hh
  dsimp only at hh
  split at hh
  · exact hmap (f := positive) (hnumber arg (by omega)) hh
  · exact hmap (f := negative) (hnumber _ hnegative) hh
  · rw [← Option.some.inj hh]
    exact (by decide : "bytes".length ≤ 2000)
  · rw [← Option.some.inj hh]
    exact (by decide : "string".length ≤ 2000)
  · rw [← Option.some.inj hh]
    exact (by decide : "sequence".length ≤ 2000)
  · rw [← Option.some.inj hh]
    exact (by decide : "map".length ≤ 2000)
  · exact hmap (f := tag) (by decide : "tag".length ≤ 2000) hh
  · split_ifs at hh
    · rw [← Option.some.inj hh]
      exact (by decide : "break".length ≤ 2000)
    · rw [← Option.some.inj hh]
      exact length_shown_float _
    · rw [← Option.some.inj hh]
      exact length_shown_float _
    · rw [← Option.some.inj hh]
      exact length_shown_float _
    · rw [← Option.some.inj hh]
      exact length_shown_simple _

theorem Head.terse_assemble? {major info arg : ℕ} (harg : arg < 2 ^ 64) {h : Head}
    (hh : assemble? major info arg = some h) : h.Terse := by
  refine ⟨length_shown_assemble? harg hh, ?_⟩
  rintro n rfl
  have hn : some n = if info = 31 then none else some arg := by
    unfold assemble? at hh
    dsimp only at hh
    split at hh
    all_goals split_ifs at hh
    all_goals simp_all
  split_ifs at hn
  have harg' := Option.some.inj hn
  omega

theorem Head.argumentBytes?_le {info k : ℕ} (h : argumentBytes? info = some k) : k ≤ 8 := by
  unfold argumentBytes? at h
  split_ifs at h
  all_goals
    have hk := Option.some.inj h
    omega

theorem tame_headRead (hc : c.Small) : Tame Head.Terse (Head.read c) := by
  unfold Head.read
  obtain ⟨e, hx, he⟩ | ⟨first, after, hx, -, hafter⟩ := (tame_take hc 1).cases
  · rw [hx]
    exact he
  simp only [hx, bind, Except.bind]
  rcases hk : Head.argumentBytes? ((Bytes.byteAt first 0).toNat % 32) with _ | k
  · exact hc.malformed
  obtain ⟨e, hx, he⟩ | ⟨argument, after, hx, hsize, hafter⟩ := (tame_take hafter k).cases
  · simp only [hx]
    exact he
  simp only [hx]
  have harg : (if k = 0 then (Bytes.byteAt first 0).toNat % 32 else Bytes.natBE argument) <
      2 ^ 64 := by
    split_ifs
    · omega
    · calc Bytes.natBE argument < 256 ^ argument.size := Bytes.natBE_lt argument
        _ ≤ 256 ^ 8 := by
          rw [hsize.1]
          exact Nat.pow_le_pow_right (by decide) (Head.argumentBytes?_le hk)
        _ = 2 ^ 64 := by decide
  rcases hh : Head.assemble? ((Bytes.byteAt first 0).toNat / 32)
    ((Bytes.byteAt first 0).toNat % 32)
    (if k = 0 then (Bytes.byteAt first 0).toNat % 32 else Bytes.natBE argument) with _ | h
  · exact hc.malformed
  · exact ⟨Head.terse_assemble? harg hh, hafter⟩

/-- The next head that is not a tag: a complaint about it is short, and it stands at an offset of
few digits. -/
theorem skipTags_cases (fuel : ℕ) (hc : c.Small) :
    (∃ e, skipTags fuel c = .error e ∧ e.Terse) ∨ ∃ h start c',
      skipTags fuel c = .ok (h, start, c') ∧ h.Terse ∧ start < 10 ^ 20 ∧ c'.Small := by
  induction fuel generalizing c with
  | zero => exact Or.inl ⟨_, rfl, Error.terse_inputEnds⟩
  | succ fuel ih =>
    rw [skipTags]
    obtain ⟨e, hx, he⟩ | ⟨h, after, hx, hh, hafter⟩ := (tame_headRead hc).cases
    · rw [hx]
      exact Or.inl ⟨e, rfl, he⟩
    · rw [hx]
      cases h with
      | tag k => exact ih hafter
      | _ => exact Or.inr ⟨_, _, _, rfl, hh, hc.2, hafter⟩

theorem headAt_cases (hc : c.Small) :
    (∃ e, headAt c = .error e ∧ e.Terse) ∨ ∃ h start c',
      headAt c = .ok (h, start, c') ∧ h.Terse ∧ start < 10 ^ 20 ∧ c'.Small :=
  skipTags_cases c.left hc

/-! ### Strings -/

theorem tame_definiteBytes (start len : ℕ) (c : Cursor) (_ : start < 10 ^ 20) (hc : c.Small) :
    Tame (fun b => ByteArray.size b ≤ 10 ^ 20) (definiteBytes start len c) :=
  (tame_take hc len).mono fun _ hb => hb.1 ▸ hb.2

theorem tame_definiteText (start len : ℕ) (c : Cursor) (hstart : start < 10 ^ 20)
    (hc : c.Small) : Tame Any (definiteText start len c) := by
  unfold definiteText
  rcases htake : c.take? len with _ | ⟨b, after⟩
  · dsimp only
    split_ifs
    · exact Error.terse_malformed hstart
    · exact Error.terse_inputEnds
  · dsimp only
    cases Utf8.decode? b with
    | none => exact Error.terse_malformed hstart
    | some s => exact ⟨trivial, (hc.take? htake).2⟩

/-- Every piece adds no more than `m` to the weight of what is read. -/
theorem tame_pieces (length? : Head → Option (Option ℕ))
    {piece : σ → ℕ → ℕ → Cursor → Except Error (σ × Cursor)} (weight : σ → ℕ) (m : ℕ)
    (hpiece : ∀ s start len c, start < 10 ^ 20 → c.Small →
      Tame (fun t => weight t ≤ weight s + m) (piece s start len c))
    (fuel nested : ℕ) (s : σ) (hc : c.Small) :
    Tame (fun t => weight t ≤ weight s + fuel * m) (pieces length? piece fuel nested s c) := by
  induction fuel generalizing nested s c with
  | zero => exact Error.terse_inputEnds
  | succ fuel ih =>
    have hmul : (fuel + 1) * m = fuel * m + m := Nat.succ_mul fuel m
    have hlater {t : σ} (ht : weight t ≤ weight s + m) {nested : ℕ} {c : Cursor} (hc : c.Small) :
        Tame (fun u => weight u ≤ weight s + (fuel + 1) * m)
          (pieces length? piece fuel nested t c) :=
      (ih nested t hc).mono fun u hu => by omega
    rw [pieces]
    obtain ⟨e, hx, he⟩ | ⟨h, after, hx, hh, hafter⟩ := (tame_headRead hc).cases <;> rw [hx]
    · exact he
    · dsimp only
      split_ifs
      · exact ⟨Nat.le_add_right _ _, hafter⟩
      · exact hlater (Nat.le_add_right _ _) hafter
      · split
        · exact hc.malformed
        · exact hlater (Nat.le_add_right _ _) hafter
        · rename_i len _
          obtain ⟨e, hx, he⟩ | ⟨t, after', hx, ht, hafter'⟩ :=
            (hpiece s c.pos len after hc.2 hafter).cases <;> rw [hx]
          · exact he
          · exact hlater ht hafter'

theorem tame_pushPiece {piece : ℕ → ℕ → Cursor → Except Error (α × Cursor)}
    (hpiece : ∀ start len c, start < 10 ^ 20 → c.Small → Tame Q (piece start len c))
    (acc : List α) (start len : ℕ) (c : Cursor) (hstart : start < 10 ^ 20) (hc : c.Small) :
    Tame (fun l => ∃ a, l = a :: acc ∧ Q a) (pushPiece piece acc start len c) := by
  rw [pushPiece]
  obtain ⟨e, hx, he⟩ | ⟨a, after, hx, ha, hafter⟩ :=
    (hpiece start len c hstart hc).cases <;> rw [hx]
  · exact he
  · exact ⟨⟨a, rfl, ha⟩, hafter⟩

theorem size_foldl_append (l : List Bytes) (b : Bytes) :
    (l.foldl (· ++ ·) b).size = b.size + (l.map ByteArray.size).sum := by
  induction l generalizing b with
  | nil => rfl
  | cons a l ih =>
    rw [List.foldl_cons, ih, ByteArray.size_append, List.map_cons, List.sum_cons]
    omega

theorem tame_bytesAfter (len : Option ℕ) (hc : c.Small) :
    Tame (fun b => ByteArray.size b ≤ 10 ^ 40) (bytesAfter len c) := by
  cases len with
  | some k => exact (tame_definiteBytes c.pos k c hc.2 hc).mono fun b hb => by omega
  | none =>
    have hleft : c.left ≤ 10 ^ 20 := Nat.le_of_lt (Nat.lt_of_le_of_lt (Nat.sub_le _ _) hc.1)
    have hpieces := tame_pieces bytesLength? (fun acc => (acc.map ByteArray.size).sum) (10 ^ 20)
      (fun acc start len c hstart hc => (tame_pushPiece tame_definiteBytes acc start len c hstart
        hc).mono fun l hl => by
          obtain ⟨b, rfl, hb⟩ := hl
          rw [List.map_cons, List.sum_cons]
          omega)
      c.left 1 [] hc
    rw [bytesAfter]
    obtain ⟨e, hx, he⟩ | ⟨acc, after, hx, hacc, hafter⟩ := hpieces.cases <;> rw [hx]
    · exact he
    · have hmul : c.left * 10 ^ 20 ≤ 10 ^ 20 * 10 ^ 20 := Nat.mul_le_mul_right _ hleft
      have hsize : (acc.reverse.foldl (· ++ ·) ByteArray.empty).size ≤ 10 ^ 40 := by
        rw [size_foldl_append, List.map_reverse, List.sum_reverse, ByteArray.size_empty]
        rw [List.map_nil, List.sum_nil] at hacc
        omega
      exact ⟨hsize, hafter⟩

theorem tame_textAfter (len : Option ℕ) (hc : c.Small) : Tame Any (textAfter len c) := by
  cases len with
  | some k => exact tame_definiteText _ k c (Nat.lt_of_le_of_lt (Nat.sub_le _ _) hc.2) hc
  | none =>
    have hpieces := tame_pieces textLength? (fun _ => 0) 0
      (fun acc start len c hstart hc => (tame_pushPiece tame_definiteText acc start len c hstart
        hc).mono fun _ _ => Nat.zero_le _)
      c.left 1 [] hc
    rw [textAfter]
    obtain ⟨e, hx, he⟩ | ⟨acc, after, hx, -, hafter⟩ := hpieces.cases <;> rw [hx]
    · exact he
    · exact ⟨trivial, hafter⟩

theorem tame_string (hc : c.Small) : Tame Any (string c) := by
  rw [string]
  obtain ⟨e, hx, he⟩ | ⟨h, start, after, hx, hh, -, hafter⟩ := headAt_cases hc <;> rw [hx]
  · exact he
  · cases h with
    | text len => exact tame_textAfter len hafter
    | _ => exact hh.unexpected (by decide)

/-! ### Names -/

/-- A name that is short in words. -/
def Name.Terse (n : Name) : Prop := n.shown.length ≤ Name.maxLength

theorem Name.Terse.unknownVariant {name : Name} (hn : name.Terse) {known : List String}
    (hknown : (Error.alternatives known).length ≤ 200) :
    (Error.unknownVariant name.shown known).Terse :=
  Error.terse_unknownVariant hn hknown

theorem tame_ofHead {h : Head} (hh : h.Terse) {start : ℕ} (hstart : start < 10 ^ 20)
    (hc : c.Small) : Tame Name.Terse (Name.ofHead h start c) := by
  have hother : Tame Name.Terse (.error (h.unexpected "str or bytes")) :=
    hh.unexpected (by decide)
  cases h with
  | text len =>
    cases len with
    | none => exact hother
    | some len =>
      rw [Name.ofHead]
      split_ifs with hle
      · obtain ⟨e, hx, he⟩ | ⟨b, after, hx, hb, hafter⟩ := (tame_take hc len).cases <;> rw [hx]
        · exact he
        · dsimp only
          rcases hs : Utf8.decode? b with _ | s
          · exact Error.terse_malformed hstart
          · exact ⟨Nat.le_trans (Utf8.length_le_of_decode? hs) (hb.1 ▸ hle), hafter⟩
      · exact hother
  | bytes len =>
    cases len with
    | none => exact hother
    | some len =>
      rw [Name.ofHead]
      split_ifs with hle
      · obtain ⟨e, hx, he⟩ | ⟨b, after, hx, hb, hafter⟩ := (tame_take hc len).cases <;> rw [hx]
        · exact he
        · exact ⟨Nat.le_trans (Utf8.length_lossy_le b) (hb.1 ▸ hle), hafter⟩
      · exact hother
  | _ => exact hother

theorem tame_nameRead (hc : c.Small) : Tame Name.Terse (Name.read c) := by
  rw [Name.read]
  obtain ⟨e, hx, he⟩ | ⟨h, start, after, hx, hh, hstart, hafter⟩ := headAt_cases hc <;> rw [hx]
  · exact he
  · exact tame_ofHead hh hstart hafter

theorem tame_readLookedAt {h : Head} (hh : h.Terse) (hc : c.Small) :
    Tame Name.Terse (Name.readLookedAt h c) := by
  cases h with
  | tag k => exact tame_nameRead hc
  | text len => exact tame_ofHead hh (Nat.lt_of_le_of_lt (Nat.sub_le _ _) hc.2) hc
  | _ => exact tame_ofHead hh hc.2 hc

/-! ### Integers -/

theorem tame_significantTake (fuel : ℕ) (s : Significant) (len : ℕ) (hc : c.Small) :
    Tame Any (Significant.take fuel s len c) := by
  induction fuel generalizing s len c with
  | zero => exact ⟨trivial, hc⟩
  | succ fuel ih =>
    rw [Significant.take]
    split_ifs
    · exact ⟨trivial, hc⟩
    · dsimp only
      obtain ⟨e, hx, he⟩ | ⟨b, after, hx, -, hafter⟩ :=
        (tame_take hc (min Item.bigBytes len)).cases <;> rw [hx]
      · exact he
      · dsimp only
        cases b.data.toList.foldlM Significant.push s with
        | none => exact Error.terse_semantic (by decide)
        | some t => exact ih t _ hafter

theorem tame_bigMagnitude (hc : c.Small) : Tame Any (bigMagnitude c) := by
  unfold bigMagnitude
  obtain ⟨e, hx, he⟩ | ⟨h, after, hx, hh, hafter⟩ := (tame_headRead hc).cases <;> rw [hx]
  · exact he
  · cases h with
    | bytes len =>
      cases len with
      | some len =>
        have hpiece : Tame Any (Significant.piece {} c.pos len after) :=
          tame_significantTake _ _ _ hafter
        dsimp only
        exact hpiece.elim (fun _ he => he) fun _ _ _ hafter => ⟨trivial, hafter⟩
      | none =>
        dsimp only
        exact (tame_pieces bytesLength? (fun _ => 0) 0 (fun s _ len c _ hc' =>
          (tame_significantTake _ s len hc').mono fun _ _ => Nat.zero_le _) _ _ _ hafter).elim
          (fun _ he => he) fun _ _ _ hafter => ⟨trivial, hafter⟩
    | _ => exact hh.unexpected (by decide)

theorem tame_integerParts (fuel : ℕ) (hc : c.Small) : Tame Any (integerParts fuel c) := by
  induction fuel generalizing c with
  | zero => exact Error.terse_inputEnds
  | succ fuel ih =>
    unfold integerParts
    obtain ⟨e, hx, he⟩ | ⟨h, after, hx, hh, hafter⟩ := (tame_headRead hc).cases <;> rw [hx]
    · exact he
    · cases h with
      | positive n => exact ⟨trivial, hafter⟩
      | negative n => exact ⟨trivial, hafter⟩
      | tag k =>
        rcases k with _ | _ | _ | _ | k
        · exact ih hafter
        · exact ih hafter
        · simp only [Nat.reduceAdd]
          exact (tame_bigMagnitude hafter).elim (fun _ he => he) fun _ _ _ hc' => ⟨trivial, hc'⟩
        · simp only [Nat.reduceAdd]
          exact (tame_bigMagnitude hafter).elim (fun _ he => he) fun _ _ _ hc' => ⟨trivial, hc'⟩
        · exact ih hafter
      | _ => exact hh.unexpected (by decide)

theorem tame_byte (hc : c.Small) : Tame Any (byte c) := by
  unfold byte
  obtain ⟨e, hx, he⟩ | ⟨⟨negative, k⟩, after, hx, -, hafter⟩ :=
    (tame_integerParts c.left hc).cases <;> rw [hx]
  · exact he
  cases negative with
  | true => exact Error.terse_semantic (by decide)
  | false =>
    dsimp only
    split_ifs with hbig hbyte
    · exact Error.terse_semantic (by decide)
    · have hdigits : (toString k).length ≤ 20 := length_toString_le (by decide) (by omega)
      have hwords : "invalid value: integer `".length = 24 ∧ "`, expected ".length = 12 ∧
          "u8".length = 2 := by
        decide
      refine Error.terse_semantic ?_
      rw [String.length_append, String.length_append, String.length_append]
      omega
    · exact ⟨trivial, hafter⟩

end Tame

end Cbor

end Vault
