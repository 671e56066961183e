import Vault.Proofs.Cbor.Complaint.Scalars

/-!
# Complaints are short

Each reader of something with parts is shown to be tame from the readers it is made of: series
and buffers, items of any shape, records and variants, and in the end frames. So whatever the
bytes of a frame are, the words about what is wrong with them stay short
(`Vault.Frame.decodeBody_cases`).
-/

namespace Vault

namespace Cbor

section Tame

variable {α β σ : Type} {Q : α → Prop} {R : β → Prop} {c : Cursor}

/-! ### Series and buffers -/

/-- Every entry adds no more than `m` to the weight of what is read. -/
theorem tame_entries {entry : σ → Cursor → Except Error (σ × Cursor)} (weight : σ → ℕ) (m : ℕ)
    (hentry : ∀ s c, c.Small → Tame (fun t => weight t ≤ weight s + m) (entry s c))
    (k : ℕ) (s : σ) (hc : c.Small) :
    Tame (fun t => weight t ≤ weight s + k * m) (entries entry k s c) := by
  induction k generalizing s c with
  | zero => exact ⟨Nat.le_add_right _ _, hc⟩
  | succ k ih =>
    have hmul : (k + 1) * m = k * m + m := Nat.succ_mul k m
    rw [entries]
    obtain ⟨e, hx, he⟩ | ⟨t, after, hx, ht, hafter⟩ := (hentry s c hc).cases <;> rw [hx]
    · exact he
    · exact (ih t hafter).mono fun u hu => by omega

theorem tame_entriesToStop {entry : σ → Head → Cursor → Cursor → Except Error (σ × Cursor)}
    (weight : σ → ℕ) (m : ℕ)
    (hentry : ∀ s h c after, h.Terse → c.Small → after.Small →
      Tame (fun t => weight t ≤ weight s + m) (entry s h c after))
    (fuel : ℕ) (s : σ) (hc : c.Small) :
    Tame (fun t => weight t ≤ weight s + fuel * m) (entriesToStop entry fuel s c) := by
  induction fuel generalizing s c with
  | zero => exact Error.terse_inputEnds
  | succ fuel ih =>
    have hmul : (fuel + 1) * m = fuel * m + m := Nat.succ_mul fuel m
    rw [entriesToStop]
    obtain ⟨e, hx, he⟩ | ⟨h, after, hx, hh, hafter⟩ := (tame_headRead hc).cases <;> rw [hx]
    · exact he
    dsimp only
    split_ifs
    · exact ⟨Nat.le_add_right _ _, hafter⟩
    · obtain ⟨e, hx, he⟩ | ⟨t, after', hx, ht, hafter'⟩ :=
        (hentry s h c after hh hc hafter).cases <;> rw [hx]
      · exact he
      · exact (ih t hafter').mono fun u hu => by omega

/-- A series has as many items as its head announces, or as there are bytes left. -/
theorem tame_series {item : Cursor → Except Error (α × Cursor)}
    (hitem : ∀ c, c.Small → Tame Any (item c)) (len : Option ℕ) (hc : c.Small) :
    Tame (fun l => l.length ≤ len.getD c.left) (series item len c) := by
  have hreversed {k : ℕ} {l : List α} (hl : l.length ≤ ([] : List α).length + k * 1) :
      l.reverse.length ≤ k := by
    rw [List.length_reverse]
    rw [List.length_nil] at hl
    omega
  unfold series
  cases len with
  | some k =>
    dsimp only
    refine (tame_entries List.length 1 (fun acc c hc' => ?_) k [] hc).elim (fun _ he => he)
      fun _ _ hl hafter => ⟨hreversed hl, hafter⟩
    exact (hitem c hc').elim (fun _ he => he) fun _ _ _ hafter => ⟨Nat.le_refl _, hafter⟩
  | none =>
    dsimp only
    refine (tame_entriesToStop List.length 1 (fun acc _ c _ _ hc' _ => ?_) c.left [] hc).elim
      (fun _ he => he) fun _ _ hl hafter => ⟨hreversed hl, hafter⟩
    exact (hitem c hc').elim (fun _ he => he) fun _ _ _ hafter => ⟨Nat.le_refl _, hafter⟩

theorem tame_byteBuffer (depth : ℕ) (hc : c.Small) :
    Tame (fun b => ByteArray.size b ≤ 10 ^ 40) (byteBuffer depth c) := by
  unfold byteBuffer
  obtain ⟨e, hx, he⟩ | ⟨h, start, after, hx, hh, -, hafter⟩ := headAt_cases hc <;> rw [hx]
  · exact he
  cases h with
  | bytes len => exact tame_bytesAfter len hafter
  | array len =>
    dsimp only
    split_ifs
    · exact Error.terse_tooDeep
    · have hlen : len.getD after.left ≤ 10 ^ 20 := by
        cases len with
        | some k => exact hh.few k rfl
        | none => exact Nat.le_of_lt (Nat.lt_of_le_of_lt (Nat.sub_le _ _) hafter.1)
      obtain ⟨e, hx, he⟩ | ⟨xs, after', hx, hxs, hafter'⟩ :=
        (tame_series (fun _ hc' => tame_byte hc') len hafter).cases <;> rw [hx]
      · exact he
      · have hsize : xs.toByteArray.size ≤ 10 ^ 40 := by
          rw [List.size_toByteArray]
          omega
        exact ⟨hsize, hafter'⟩
  | _ => exact hh.unexpected (by decide)

/-! ### Items of any shape -/

namespace Item

theorem big?_cases (k : ℕ) (hc : c.Small) : (∃ e, big? k c = .error e ∧ e.Terse) ∨
    big? k c = .ok none ∨ ∃ i c', big? k c = .ok (some (i, c')) ∧ c'.Small := by
  unfold big?
  obtain ⟨e, hx, he⟩ | ⟨h, after, hx, -, hafter⟩ := (tame_headRead hc).cases <;> rw [hx]
  · exact Or.inl ⟨e, rfl, he⟩
  split
  · cases ‹Except.ok _ = Except.error _›
  · rename_i len after' heq
    obtain ⟨rfl, rfl⟩ := Prod.mk.inj (Except.ok.inj heq)
    split_ifs
    · obtain ⟨e, hx, he⟩ | ⟨b, after', hx, -, hafter'⟩ := (tame_take hafter len).cases <;> rw [hx]
      · exact Or.inl ⟨e, rfl, he⟩
      · dsimp only
        rcases hbig : ofBig (k == 3) b with e | i
        · refine Or.inl ⟨e, rfl, ?_⟩
          unfold ofBig at hbig
          dsimp only at hbig
          split_ifs at hbig
          rw [← Except.error.inj hbig]
          exact Error.terse_semantic (by decide)
        · exact Or.inr (Or.inr ⟨i, after', rfl, hafter'⟩)
    · exact Or.inr (Or.inl rfl)
  · exact Or.inr (Or.inl rfl)

theorem tame_wrap {x : Except Error (α × Cursor)} (hx : Tame Q x) (f : α → Item) :
    Tame Any (wrap f x) := by
  rcases x with e | ⟨a, c⟩
  · exact hx
  · exact ⟨trivial, hx.2⟩

theorem tame_pair {item : Cursor → Except Error (Item × Cursor)}
    (hitem : ∀ c, c.Small → Tame Any (item c)) (c : Cursor) (hc : c.Small) :
    Tame Any (pair item c) := by
  rw [pair]
  obtain ⟨e, hx, he⟩ | ⟨k, after, hx, -, hafter⟩ := (hitem c hc).cases <;> rw [hx]
  · exact he
  dsimp only
  obtain ⟨e, hx, he⟩ | ⟨v, after', hx, -, hafter'⟩ := (hitem after hafter).cases <;> rw [hx]
  · exact he
  · exact ⟨trivial, hafter'⟩

theorem terse_of_ofSimple {k : ℕ} {e : Error} (h : ofSimple k = .error e) : e.Terse := by
  unfold ofSimple at h
  split at h
  · cases h
  · cases h
  · cases h
  · cases h
  · rw [← Except.error.inj h]
    exact Error.terse_invalidType (Head.length_shown_simple _) (by decide)

/-- What stands behind a head is read tamely, if what nests in it is. -/
theorem tame_readContent {nested : Option (Cursor → Except Error (Item × Cursor))}
    (hnested : ∀ item ∈ nested, ∀ c : Cursor, c.Small → Tame Any (item c)) {h : Head}
    (hh : h.Terse) (hc : c.Small) : Tame Any (readContent nested h c) := by
  unfold readContent
  cases h with
  | positive k => exact ⟨trivial, hc⟩
  | negative k => exact ⟨trivial, hc⟩
  | bytes len => exact tame_wrap (tame_bytesAfter len hc) bytes
  | text len => exact tame_wrap (tame_textAfter len hc) text
  | array len =>
    cases nested with
    | none => exact Error.terse_tooDeep
    | some item => exact tame_wrap (tame_series (hnested item rfl) len hc) array
  | map len =>
    cases nested with
    | none => exact Error.terse_tooDeep
    | some item => exact tame_wrap (tame_series (tame_pair (hnested item rfl)) len hc) map
  | tag k =>
    dsimp only
    obtain ⟨e, hx, he⟩ | hx | ⟨i, after, hx, hafter⟩ := big?_cases k hc <;> rw [hx]
    · exact he
    · cases nested with
      | none => exact Error.terse_tooDeep
      | some item => exact tame_wrap (hnested item rfl c hc) (tag k)
    · exact ⟨trivial, hafter⟩
  | float bits => exact ⟨trivial, hc⟩
  | simple k =>
    dsimp only
    rcases hs : ofSimple k with e | i
    · exact terse_of_ofSimple hs
    · exact ⟨trivial, hc⟩
  | stop => exact hh.unexpected (by decide)

theorem tame_readWith {nested : Option (Cursor → Except Error (Item × Cursor))}
    (hnested : ∀ item ∈ nested, ∀ c : Cursor, c.Small → Tame Any (item c)) (hc : c.Small) :
    Tame Any (readWith nested c) := by
  unfold readWith
  obtain ⟨e, hx, he⟩ | ⟨h, after, hx, hh, hafter⟩ := (tame_headRead hc).cases <;> rw [hx]
  · exact he
  · exact tame_readContent hnested hh hafter

/-- Reading an item, whatever its shape, is tame at every depth. -/
theorem tame_read (depth : ℕ) (c : Cursor) (hc : c.Small) : Tame Any (read depth c) := by
  induction depth generalizing c with
  | zero => exact tame_readWith (fun _ hitem => by cases hitem) hc
  | succ depth ih =>
    refine tame_readWith (fun item hitem => ?_) hc
    obtain rfl := Option.some.inj hitem
    exact ih

end Item

/-! ### Records and variants -/

/-- A name is read, and what stands under it. -/
theorem Tame.named {x : Except Error (Name × Cursor)} (hx : Tame Name.Terse x)
    {value : Name → Cursor → Except Error (α × Cursor)}
    (hvalue : ∀ n c, n.Terse → c.Small → Tame Q (value n c)) :
    Tame Q (match x with | .error e => .error e | .ok (n, c) => value n c) :=
  hx.elim (fun _ he => he) hvalue

theorem tame_record (depth : ℕ) (start : σ)
    {field : ℕ → σ → Name → Cursor → Except Error (σ × Cursor)}
    (hfield : ∀ depth s n c, n.Terse → c.Small → Tame Any (field depth s n c)) (hc : c.Small) :
    Tame Any (record depth start field c) := by
  unfold record
  obtain ⟨e, hx, he⟩ | ⟨h, start, after, hx, hh, -, hafter⟩ := headAt_cases hc <;> rw [hx]
  · exact he
  cases h with
  | map len =>
    cases depth with
    | zero => exact Error.terse_tooDeep
    | succ depth =>
      cases len with
      | some k =>
        exact (tame_entries (fun _ => 0) 0 (fun s c hc' =>
          ((tame_nameRead hc').named (hfield depth s)).mono fun _ _ => Nat.zero_le _)
          k _ hafter).any
      | none =>
        exact (tame_entriesToStop (fun _ => 0) 0 (fun s h c after hh _ hafter =>
          ((tame_readLookedAt hh hafter).named (hfield depth s)).mono fun _ _ => Nat.zero_le _)
          _ _ hafter).any
  | _ => exact hh.unexpected (by decide)

theorem tame_once {name : String} (hname : (Error.duplicateFieldText name).length ≤ 5000)
    (old : Option α) {value : Except Error (α × Cursor)} (hvalue : Tame Any value) (set : α → σ) :
    Tame Any (once name old value set) := by
  cases old with
  | some a => exact Error.terse_semantic hname
  | none =>
    rcases value with e | ⟨a, c⟩
    · exact hvalue
    · exact ⟨trivial, hvalue.2⟩

theorem tame_variant (depth : ℕ) {select : ℕ → Name → Cursor → Except Error (α × Cursor)}
    (hselect : ∀ depth n c, n.Terse → c.Small → Tame Q (select depth n c)) (hc : c.Small) :
    Tame Q (variant depth select c) := by
  unfold variant
  obtain ⟨e, hx, he⟩ | ⟨h, start, after, hx, hh, -, hafter⟩ := headAt_cases hc <;> rw [hx]
  · exact he
  cases h with
  | map len =>
    rcases len with _ | _ | _ | k
    · exact hh.unexpected (by decide)
    · exact hh.unexpected (by decide)
    · dsimp only
      split_ifs
      · exact Error.terse_tooDeep
      · exact (tame_nameRead hafter).named (hselect (depth - 1))
    · exact hh.unexpected (by decide)
  | text len =>
    dsimp only
    split_ifs
    · exact Error.terse_tooDeep
    · exact (tame_ofHead hh (Nat.lt_of_le_of_lt (Nat.sub_le _ _) hafter.2) hafter).named
        (hselect (depth - 1))
  | _ => exact hh.unexpected (by decide)

theorem tame_plainVariant {table : List (String × α)}
    (htable : (Error.alternatives (table.map (·.1))).length ≤ 200) (depth : ℕ) (hc : c.Small) :
    Tame Any (plainVariant table depth c) := by
  refine tame_variant depth (fun _ n c hn hc => ?_) hc
  split
  · exact ⟨trivial, hc⟩
  · exact hn.unknownVariant htable

/-! ### Frames -/

theorem tame_statusField (depth : ℕ) (s : Wire.StatusFields) (n : Name) (c : Cursor)
    (_ : n.Terse) (hc : c.Small) : Tame Any (Wire.statusField depth s n c) := by
  unfold Wire.statusField
  split_ifs
  · exact tame_once (by decide) _ (tame_plainVariant (by decide) depth hc) _
  · exact tame_once (by decide) _ (tame_string hc) _
  · rw [ignore]
    obtain ⟨e, hx, he⟩ | ⟨i, after, hx, -, hafter⟩ := (Item.tame_read depth c hc).cases <;> rw [hx]
    · exact he
    · exact ⟨trivial, hafter⟩

theorem tame_readStatus (depth : ℕ) (hc : c.Small) : Tame Any (Wire.readStatus depth c) := by
  have hmissing {α : Type} (name : String) (hname : (Error.missingFieldText name).length ≤ 5000)
      (o : Option α) {f : α → Except Error (Status × Cursor)} (hf : ∀ a, Tame Any (f a)) :
      Tame Any (required name o >>= f) := by
    cases o with
    | none => exact Error.terse_semantic hname
    | some a => exact hf a
  rw [Wire.readStatus]
  obtain ⟨e, hx, he⟩ | ⟨s, after, hx, -, hafter⟩ :=
    (tame_record depth {} tame_statusField hc).cases <;> rw [hx]
  · exact he
  · exact hmissing "kind" (by decide) s.kind fun kind =>
      hmissing "message" (by decide) s.message fun text => ⟨trivial, hafter⟩

/-- The message in a frame has a size of few digits. -/
def Sized (f : Frame) : Prop := ∀ m, f = .message m → m.size ≤ 10 ^ 40

theorem tame_bodyVariant (depth : ℕ) (n : Name) (c : Cursor) (hn : n.Terse) (hc : c.Small) :
    Tame Sized (Frame.bodyVariant depth n c) := by
  unfold Frame.bodyVariant
  split_ifs
  · exact (tame_plainVariant (by decide) depth hc).map fun _ _ _ h => nomatch h
  · exact (tame_byteBuffer depth hc).map fun b hb m h => Frame.message.inj h ▸ hb
  · have hend : Sized .end := fun _ h => nomatch h
    exact ⟨hend, hc⟩
  · exact (tame_readStatus depth hc).map fun _ _ _ h => nomatch h
  · exact hn.unknownVariant (by decide)

end Tame

end Cbor

/-- **The words about a broken frame are few**, whatever the bytes of the frame are, and the size
of a message that arrives has few digits. -/
theorem Frame.decodeBody_cases {b : Bytes} (hb : b.size < 10 ^ 20) :
    (∃ text : String, decodeBody b = .error (.codec text) ∧ text.length ≤ 60000) ∨
      ∃ f, decodeBody b = .ok f ∧ ∀ m, f = message m → m.size ≤ 10 ^ 40 := by
  have hsmall : Cbor.Cursor.Small ⟨b, 0⟩ := ⟨hb, Nat.pow_pos (by decide)⟩
  rw [decodeBody]
  obtain ⟨e, hx, he⟩ | ⟨f, c, hx, hf, -⟩ :=
    (Cbor.tame_variant Cbor.maxDepth Cbor.tame_bodyVariant hsmall).cases <;> rw [hx]
  · exact Or.inl ⟨_, rfl, he⟩
  · exact Or.inr ⟨f, rfl, hf⟩

end Vault
