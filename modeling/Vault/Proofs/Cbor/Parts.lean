import Vault.Proofs.Cbor.Head

/-!
# Reading back texts, numbers, records and variants

The parts that responses and frames are made of, each with the writer it reads back. Two
of them have parts of their own. A **record** is read field by field into a state, so
what a writer has to match is a chain of states (`Vault.Cbor.Fills`); a **variant** is a
name and a value, and reads back when the value does under that name.

Lengths travel in at most eight bytes, so strings and lists of `2 ^ 64` bytes or entries
are out of reach; names may not be longer than `Vault.Cbor.Name.maxLength`.
-/

namespace Vault.Cbor

/-! ### Putting readers together -/

/-- Bytes in two parts, seen from the second. -/
theorem Cursor.Sees.append {c : Cursor} {u w : Bytes} {rest : List UInt8}
    (h : c.Sees ((u ++ w).octets ++ rest)) :
    c.Sees (u.octets ++ (w.octets ++ rest)) ∧ (c.skip u.size).Sees (w.octets ++ rest) := by
  rw [Bytes.octets_append, List.append_assoc] at h
  exact ⟨h, h.skip (Bytes.length_octets u)⟩

theorem Cursor.skip_append (c : Cursor) (u w : Bytes) :
    (c.skip u.size).skip w.size = c.skip (u ++ w).size := by
  rw [Cursor.skip_skip, ByteArray.size_append]

/-! ### Strings -/

theorem readsBack_string {s : String} (hs : (Utf8.encode s).size < 2 ^ 64) :
    ReadsBack string (writeText s) s := by
  intro c rest hc
  obtain ⟨hhead, hbody⟩ := Cursor.Sees.append hc
  have hh : headAt c = .ok (.text (some _), c.pos, c.skip _) :=
    headAt_write 3 (by omega) hs hhead
  rw [string, hh]
  change definiteText _ _ _ = _
  rw [definiteText, hbody.take?]
  dsimp only
  rw [Utf8.decode?_encode, Cursor.skip_append]
  rfl

theorem bytesAfter_eq {b : Bytes} {c : Cursor} {rest : List UInt8}
    (hc : c.Sees (b.octets ++ rest)) :
    bytesAfter (some b.size) c = .ok (b, c.skip b.size) :=
  hc.take

theorem readsBack_byteBuffer (depth : ℕ) {b : Bytes} (hb : b.size < 2 ^ 64) :
    ReadsBack (byteBuffer depth) (writeBytes b) b := by
  intro c rest hc
  obtain ⟨hhead, hbody⟩ := Cursor.Sees.append hc
  have hh : headAt c = .ok (.bytes (some _), c.pos, c.skip _) :=
    headAt_write 2 (by omega) hb hhead
  rw [byteBuffer, hh]
  change bytesAfter (some b.size) _ = _
  rw [bytesAfter_eq hbody, Cursor.skip_append]
  rfl

/-! ### Names -/

namespace Name

/-- A text that may stand as a name. -/
def Short (s : String) : Prop := (Utf8.encode s).size ≤ maxLength

instance (s : String) : Decidable (Short s) := inferInstanceAs (Decidable (_ ≤ _))

variable {s : String}

theorem Short.lt (hs : Short s) : (Utf8.encode s).size < 2 ^ 64 :=
  lt_of_le_of_lt hs (by decide)

theorem ofHead_text (hs : Short s) (start : ℕ) {c : Cursor} {rest : List UInt8}
    (hc : c.Sees ((Utf8.encode s).octets ++ rest)) :
    ofHead (.text (some (Utf8.encode s).size)) start c =
      .ok (text s, c.skip (Utf8.encode s).size) := by
  have hs' : (Utf8.encode s).size ≤ maxLength := hs
  rw [ofHead, if_pos hs', hc.take]
  dsimp only
  rw [Utf8.decode?_encode]

theorem readsBack_read (hs : Short s) : ReadsBack read (writeText s) (text s) := by
  intro c rest hc
  obtain ⟨hhead, hbody⟩ := Cursor.Sees.append hc
  have hh : headAt c = .ok (.text (some _), c.pos, c.skip _) :=
    headAt_write 3 (by omega) hs.lt hhead
  rw [read, hh]
  dsimp only
  rw [ofHead_text hs _ hbody, Cursor.skip_append]
  rfl

@[simp] theorem is_text (s t : String) : (text s).is t = (s == t) := rfl

end Name

/-! ### Whole numbers -/

/-- The sign and the argument of a whole number. -/
theorem integerParts_writeInt {n : ℤ} (hlo : -(2 ^ 64) ≤ n) (hhi : n < 2 ^ 64) {c : Cursor}
    {rest : List UInt8} (hc : c.Sees ((writeInt n).octets ++ rest)) :
    integerParts c.left c =
      .ok ((decide (n < 0), if n < 0 then (-1 - n).toNat else n.toNat),
        c.skip (writeInt n).size) := by
  have hpos : 0 < (writeInt n).size := by
    rw [writeInt]
    split_ifs <;> exact Head.size_write_pos _ _
  have hleft : c.left = (writeInt n).size + rest.length := by
    rw [hc.left_eq, List.length_append, Bytes.length_octets]
  obtain ⟨fuel, hfuel⟩ : ∃ fuel, c.left = fuel + 1 := ⟨c.left - 1, by omega⟩
  rw [hfuel, integerParts]
  rcases lt_or_ge n 0 with hn | hn
  · have hw : writeInt n = Head.write 1 (-1 - n).toNat := by rw [writeInt, if_neg (by omega)]
    rw [hw] at hc ⊢
    have hh : Head.read c = .ok (.negative _, c.skip _) :=
      readsBack_write 1 (by omega) (by omega) c rest hc
    rw [hh]
    simp [hn]
  · have hw : writeInt n = Head.write 0 n.toNat := by rw [writeInt, if_pos hn]
    rw [hw] at hc ⊢
    have hh : Head.read c = .ok (.positive _, c.skip _) :=
      readsBack_write 0 (by omega) (by omega) c rest hc
    rw [hh]
    simp [not_lt.mpr hn]

theorem readsBack_timestamp (t : Timestamp) : ReadsBack timestamp (writeInt t.micros) t := by
  have hlo := t.least_le
  have hhi := t.le_greatest
  intro c rest hc
  rw [timestamp, integerParts_writeInt (by omega) (by omega) hc]
  have hvalue : (if decide (t.micros < 0) = true
      then -1 - (((if t.micros < 0 then (-1 - t.micros).toNat else t.micros.toNat) : ℕ) : ℤ)
      else (((if t.micros < 0 then (-1 - t.micros).toNat else t.micros.toNat) : ℕ) : ℤ)) =
      t.micros := by
    rcases lt_or_ge t.micros 0 with hn | hn
    · simp only [hn, decide_true, if_true]
      omega
    · simp only [not_lt.mpr hn, decide_false, Bool.false_eq_true, if_false]
      omega
  have hof : Timestamp.ofMicros? t.micros = some t := by
    rw [Timestamp.ofMicros?, dif_pos ⟨hlo, hhi⟩]
  dsimp only
  rw [hvalue, hof]

/-! ### Series -/

/-- What several writers wrote, one after the other. -/
def concat (ws : List Bytes) : Bytes := ws.foldr (· ++ ·) ByteArray.empty

@[simp] theorem concat_nil : concat [] = ByteArray.empty := rfl

@[simp] theorem concat_cons (w : Bytes) (ws : List Bytes) : concat (w :: ws) = w ++ concat ws :=
  rfl

theorem octets_concat (ws : List Bytes) : (concat ws).octets = (ws.map Bytes.octets).flatten := by
  induction ws with
  | nil => rfl
  | cons w ws ih => rw [concat_cons, Bytes.octets_append, ih]; rfl

theorem size_le_concat {w : Bytes} {ws : List Bytes} (h : w ∈ ws) : w.size ≤ (concat ws).size := by
  induction ws with
  | nil => cases h
  | cons u ws ih =>
    rw [concat_cons, ByteArray.size_append]
    rcases List.mem_cons.mp h with rfl | h
    · omega
    · have := ih h
      omega

/-- A writer that appends one piece after the other writes the pieces after what it
began with. -/
theorem foldl_append {β : Type} (f : β → Bytes) (xs : List β) (start : Bytes) :
    xs.foldl (fun acc x => acc ++ f x) start = start ++ concat (xs.map f) := by
  induction xs generalizing start with
  | nil => simp
  | cons x xs ih =>
    rw [List.foldl_cons, ih, List.map_cons, concat_cons, ByteArray.append_assoc]

/-- Entries read back one by one, each taking the state a step further. -/
theorem entries_concat {β σ : Type} {entry : σ → Cursor → Except Error (σ × Cursor)}
    {write : β → Bytes} {t : σ → β → σ} {xs : List β} {s : σ}
    (h : ∀ x ∈ xs, ∀ s, ReadsBack (entry s) (write x) (t s x)) :
    ReadsBack (entries entry xs.length s) (concat (xs.map write)) (xs.foldl t s) := by
  induction xs generalizing s with
  | nil =>
    intro c rest _
    rfl
  | cons x xs ih =>
    intro c rest hc
    obtain ⟨hfirst, hrest⟩ := Cursor.Sees.append hc
    rw [List.length_cons, entries, h x (by simp) s c _ hfirst]
    dsimp only
    rw [ih (fun y hy => h y (by simp [hy])) _ rest hrest, Cursor.skip_append]
    rfl

/-- **A series of known length reads back**, item by item. -/
theorem readsBack_series {α β : Type} {item : Cursor → Except Error (α × Cursor)}
    {write : β → Bytes} {value : β → α} {xs : List β}
    (h : ∀ x ∈ xs, ReadsBack item (write x) (value x)) :
    ReadsBack (series item (some xs.length)) (concat (xs.map write)) (xs.map value) := by
  have hrev (xs : List β) (acc : List α) :
      xs.foldl (fun acc x => value x :: acc) acc = (xs.map value).reverse ++ acc := by
    induction xs generalizing acc with
    | nil => rfl
    | cons x xs ih => simp [ih]
  intro c rest hc
  rw [series, entries_concat (t := fun acc x => value x :: acc) ?_ c rest hc, hrev,
    List.append_nil]
  · dsimp only
    rw [List.reverse_reverse]
  · intro x hx acc c rest hc
    simp only [h x hx c rest hc]

/-! ### Records -/

/-- **The fields of a record fill its state**, from the first to the last: each is written
under a short name and read back from the state that those before it left. -/
inductive Fills {σ : Type} (field : σ → Name → Cursor → Except Error (σ × Cursor)) :
    σ → List (String × Bytes) → σ → Prop
  /-- Without fields the state stays. -/
  | nil (s : σ) : Fills field s [] s
  /-- One more field in front. -/
  | cons {s t u : σ} {name : String} {w : Bytes} {fields : List (String × Bytes)} :
      Name.Short name → ReadsBack (field s (.text name)) w t → Fills field t fields u →
      Fills field s ((name, w) :: fields) u

theorem writeRecord_eq (fields : List (String × Bytes)) :
    writeRecord fields =
      Head.write 5 fields.length ++ concat (fields.map fun f => writeText f.1 ++ f.2) := by
  rw [writeRecord, ← foldl_append]
  simp only [ByteArray.append_assoc]

/-- The entries of a record, read one by one. -/
theorem Fills.entries_eq {σ : Type} {field : σ → Name → Cursor → Except Error (σ × Cursor)}
    {entry : σ → Cursor → Except Error (σ × Cursor)}
    (hentry : ∀ s c, entry s c = match Name.read c with
      | .error e => .error e
      | .ok (n, c) => field s n c) {s t : σ} {fields : List (String × Bytes)}
    (h : Fills field s fields t) :
    ReadsBack (entries entry fields.length s)
      (concat (fields.map fun f => writeText f.1 ++ f.2)) t := by
  induction h with
  | nil s =>
    intro c rest _
    rfl
  | @cons s t u name w fields hname hfield _ ih =>
    intro c rest hc
    obtain ⟨hfirst, hrest⟩ := Cursor.Sees.append hc
    obtain ⟨hn, hw⟩ := Cursor.Sees.append hfirst
    rw [List.length_cons, entries, hentry, Name.readsBack_read hname c _ hn]
    dsimp only
    rw [hfield _ _ hw, Cursor.skip_append]
    dsimp only
    rw [ih _ rest hrest, Cursor.skip_append]
    rfl

/-- **A record reads back** when its fields fill the state it is read into. -/
theorem readsBack_record {σ : Type} {depth : ℕ} {s t : σ}
    {field : ℕ → σ → Name → Cursor → Except Error (σ × Cursor)} {fields : List (String × Bytes)}
    (h : Fills (field depth) s fields t) (hlen : fields.length < 2 ^ 64) :
    ReadsBack (record (depth + 1) s field) (writeRecord fields) t := by
  intro c rest hc
  rw [writeRecord_eq] at hc ⊢
  obtain ⟨hhead, hbody⟩ := Cursor.Sees.append hc
  have hh : headAt c = .ok (.map (some _), c.pos, c.skip _) :=
    headAt_write 5 (by omega) hlen hhead
  rw [record, hh, ← Cursor.skip_append]
  exact h.entries_eq (fun _ _ => rfl) _ rest hbody

/-- A field that must not occur twice, when it occurs first. -/
theorem readsBack_once {α σ : Type} (name : String) {p : Cursor → Except Error (α × Cursor)}
    {w : Bytes} {a : α} (h : ReadsBack p w a) (set : α → σ) :
    ReadsBack (fun c => once name none (p c) set) w (set a) := by
  intro c rest hc
  simp only [once, h c rest hc]

/-! ### Variants -/

theorem writeVariant_eq (name : String) (w : Bytes) :
    writeVariant name w = Head.write 5 1 ++ (writeText name ++ w) :=
  ByteArray.append_assoc

/-- **A variant with a value reads back** when its value does. -/
theorem readsBack_variant {α : Type} {depth : ℕ} {name : String} {w : Bytes} {a : α}
    {select : ℕ → Name → Cursor → Except Error (α × Cursor)} (hname : Name.Short name)
    (h : ReadsBack (select depth (.text name)) w a) :
    ReadsBack (variant (depth + 1) select) (writeVariant name w) a := by
  intro c rest hc
  rw [writeVariant_eq] at hc ⊢
  obtain ⟨hhead, hbody⟩ := Cursor.Sees.append hc
  obtain ⟨hn, hw⟩ := Cursor.Sees.append hbody
  have hh : headAt c = .ok (.map (some 1), c.pos, c.skip _) :=
    headAt_write 5 (by omega) (by omega) hhead
  rw [variant, hh]
  change (if depth + 1 = 0 then _ else _) = _
  rw [if_neg (Nat.succ_ne_zero depth), Name.readsBack_read hname _ _ hn]
  change select depth (.text name) _ = _
  rw [h _ rest hw, Cursor.skip_append, Cursor.skip_append]

/-- **A variant without a value reads back** from its name alone. -/
theorem readsBack_variant_name {α : Type} {depth : ℕ} {name : String} {a : α}
    {select : ℕ → Name → Cursor → Except Error (α × Cursor)} (hname : Name.Short name)
    (h : ∀ c, select depth (.text name) c = .ok (a, c)) :
    ReadsBack (variant (depth + 1) select) (writeText name) a := by
  intro c rest hc
  obtain ⟨hhead, hbody⟩ := Cursor.Sees.append hc
  have hh : headAt c = .ok (.text (some _), c.pos, c.skip _) :=
    headAt_write 3 (by omega) hname.lt hhead
  rw [variant, hh]
  dsimp only
  rw [if_neg (Nat.succ_ne_zero depth), Name.ofHead_text hname _ hbody]
  change select depth (.text name) _ = _
  rw [h, Cursor.skip_append]
  rfl

/-- A name in a table of names without values. -/
theorem readsBack_plainVariant {α : Type} {table : List (String × α)} {depth : ℕ}
    (entry : String × α) (hname : Name.Short entry.1)
    (hfind : table.find? (fun p => entry.1 == p.1) = some entry) :
    ReadsBack (plainVariant table (depth + 1)) (writeText entry.1) entry.2 :=
  readsBack_variant_name hname fun c => by simp only [Name.is_text, hfind]

end Vault.Cbor
