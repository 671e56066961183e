import Vault.Proofs.Cbor.Grammar

/-!
# The language of items

An item is a head and what the head calls for (`Vault.Cbor.Item.Content`): nothing, the bytes of
a string, or further items, which may nest only so deep. `Vault.Cbor.Item.Spells d` is the
language of items in which at most `d` arrays, maps and tags nest, and the reader of items reads
exactly this language (`Vault.Cbor.Item.reads_spells`).

Two places need a look ahead. A series of unknown length ends at a break, and no item begins with
one, so a head decides whether another item follows. A tag 2 or 3 on a byte string of known length
up to 16 is a whole number; what else stands behind a tag is an item of its own. A negative number
below `-2 ^ 127` that is written in this way is no item at all, and neither is a simple value
without a meaning: there are words with a head in front that are read by no one.
-/

namespace Vault.Cbor

variable {α : Type}

/-! ### Series -/

/-- Words of a language, one after another. -/
inductive Run (P : Spelling α) : Spelling (List α)
  /-- No word. -/
  | nil : Run P [] []
  /-- One more word in front. -/
  | cons {a : α} {as : List α} {u v : List UInt8} (hu : P a u) (hv : Run P as v) :
    Run P (a :: as) (u ++ v)

/-- **What stands behind the head of a series**: as many words as it says, or words up to a
break. -/
inductive Series (P : Spelling α) : Option ℕ → Spelling (List α)
  /-- A known number of words. -/
  | definite {as : List α} {v : List UInt8} (hv : Run P as v) : Series P (some as.length) as v
  /-- Words up to a break. -/
  | toStop {as : List α} {u v : List UInt8} (hu : Run P as u) (hv : Head.Spells .stop v) :
    Series P none as (u ++ v)

/-- Every word begins with a head that is not a break. -/
def Headed (P : Spelling α) : Prop :=
  ∀ a w, P a w → ∃ h u v, w = u ++ v ∧ Head.Spells h u ∧ h ≠ .stop

/-- Read one more value in front of those read before. -/
def push (item : Cursor → Except Error (α × Cursor)) (acc : List α) (c : Cursor) :
    Except Error (List α × Cursor) :=
  chain (item c) fun a c => .ok (a :: acc, c)

section Series

variable {item : Cursor → Except Error (α × Cursor)} {P : Spelling α}

theorem series_some (n : ℕ) (c : Cursor) : series item (some n) c =
    chain (entries (push item) n [] c) fun acc c => .ok (acc.reverse, c) := by
  have hentry {f : List α → Cursor → Except Error (List α × Cursor)}
      (hf : ∀ acc c, f acc c = push item acc c) :
      entries f n [] c = entries (push item) n [] c := by
    rw [show f = push item from funext fun acc => funext (hf acc)]
  unfold series
  dsimp only
  rw [hentry]
  · rcases entries (push item) n [] c with e | ⟨acc, c'⟩ <;> rfl
  · intro acc c
    rw [push]
    rcases item c with e | ⟨a, c'⟩ <;> rfl

theorem series_none (c : Cursor) : series item none c =
    chain (entriesToStop (fun acc _ c _ => push item acc c) c.left [] c)
      fun acc c => .ok (acc.reverse, c) := by
  have hentry {f : List α → Head → Cursor → Cursor → Except Error (List α × Cursor)}
      (hf : ∀ acc h c c', f acc h c c' = push item acc c) : entriesToStop f c.left [] c =
        entriesToStop (fun acc _ c _ => push item acc c) c.left [] c := by
    rw [show f = fun acc _ c _ => push item acc c from
      funext fun acc => funext fun h => funext fun c => funext (hf acc h c)]
  unfold series
  dsimp only
  rw [hentry]
  · rcases entriesToStop (fun acc _ c _ => push item acc c) c.left [] c with e | ⟨acc, c'⟩ <;> rfl
  · intro acc h c c'
    rw [push]
    rcases item c with e | ⟨a, c'⟩ <;> rfl

theorem entriesToStop_succ (fuel : ℕ) (acc : List α) (c : Cursor) :
    entriesToStop (fun acc _ c _ => push item acc c) (fuel + 1) acc c =
      chain (Head.read c) fun h after =>
        if h = .stop then .ok (acc, after)
        else chain (push item acc c)
          (entriesToStop (fun acc _ c _ => push item acc c) fuel) := by
  rw [entriesToStop]
  rcases Head.read c with e | ⟨h, after⟩
  · rfl
  · rcases push item acc c with e | ⟨s, c'⟩ <;> rfl

theorem finds_push (hp : Reads item P) (acc : List α) {c : Cursor} {l : List UInt8}
    (hc : c.Sees l) : Finds (push item acc c) c l fun s w => ∃ a, s = a :: acc ∧ P a w :=
  (hp c l hc).map

theorem finds_entries (hp : Reads item P) (n : ℕ) (acc : List α) {c : Cursor} {l : List UInt8}
    (hc : c.Sees l) : Finds (entries (push item) n acc c) c l
      (Onto acc fun as w => as.length = n ∧ Run P as w) := by
  induction n generalizing acc c l with
  | zero =>
    refine (finds_ok acc c l).congr fun s w => ?_
    constructor
    · rintro ⟨rfl, rfl⟩
      exact ⟨[], rfl, rfl, .nil⟩
    · rintro ⟨as, rfl, hlen, hrun⟩
      obtain rfl := List.length_eq_zero_iff.mp hlen
      cases hrun
      exact ⟨rfl, rfl⟩
  | succ n ih =>
    have hchain : entries (push item) (n + 1) acc c =
        chain (push item acc c) (entries (push item) n) := by
      rw [entries]
      rcases push item acc c with e | ⟨s, c'⟩ <;> rfl
    rw [hchain]
    refine ((finds_push hp acc hc).andThen
      (Q := fun s => Onto s fun as w => as.length = n ∧ Run P as w)
      fun s u rest hl _ => ih s (Cursor.Sees.skip (hl ▸ hc) rfl)).congr fun s w => ?_
    constructor
    · rintro ⟨_, u, v, rfl, ⟨a, rfl, ha⟩, as, rfl, hlen, hrun⟩
      exact ⟨a :: as, by simp, congrArg Nat.succ hlen, .cons ha hrun⟩
    · rintro ⟨as, rfl, hlen, hrun⟩
      cases hrun with
      | nil => cases hlen
      | @cons a as u v hu hv =>
        exact ⟨a :: acc, u, v, rfl, ⟨a, rfl, hu⟩, as, by simp, Nat.succ.inj hlen, hv⟩

/-- Words up to a break. -/
def ToStop (P : Spelling α) : Spelling (List α) :=
  fun as w => ∃ u v, w = u ++ v ∧ Run P as u ∧ Head.Spells .stop v

theorem toStop_nil {w : List UInt8} : ToStop P [] w ↔ Head.Spells .stop w := by
  constructor
  · rintro ⟨u, v, rfl, ⟨⟩, hv⟩
    exact hv
  · exact fun hw => ⟨[], w, rfl, .nil, hw⟩

theorem toStop_cons {a : α} {as : List α} {w : List UInt8} :
    ToStop P (a :: as) w ↔ ∃ u v, w = u ++ v ∧ P a u ∧ ToStop P as v := by
  constructor
  · rintro ⟨u, v, rfl, hrun, hv⟩
    cases hrun with
    | @cons a as u u' hu hu' => exact ⟨u, u' ++ v, List.append_assoc .., hu, u', v, rfl, hu', hv⟩
  · rintro ⟨u, v, rfl, hu, u', v', rfl, hu', hv⟩
    exact ⟨u ++ u', v', (List.append_assoc ..).symm, .cons hu hu', hv⟩

/-- What comes first is a break exactly if there are no words. -/
theorem ToStop.head (hP : Headed P) {as : List α} {w : List UInt8} (h : ToStop P as w) :
    ∃ h u v, w = u ++ v ∧ Head.Spells h u ∧ (h = .stop ↔ as = []) := by
  cases as with
  | nil => exact ⟨.stop, w, [], (List.append_nil w).symm, toStop_nil.mp h, by simp⟩
  | cons a as =>
    obtain ⟨u, v, rfl, hu, -⟩ := toStop_cons.mp h
    obtain ⟨h', u, u', rfl, hu, hne⟩ := hP a u hu
    exact ⟨h', u, u' ++ v, List.append_assoc .., hu, by simp [hne]⟩

theorem ToStop.length_pos (hP : Headed P) {as : List α} {w : List UInt8} (h : ToStop P as w) :
    0 < w.length := by
  obtain ⟨h, u, v, rfl, hu, -⟩ := h.head hP
  have hpos := hu.length_pos
  rw [List.length_append]
  omega

theorem finds_entriesToStop (hp : Reads item P) (hP : Headed P) {fuel : ℕ} (acc : List α)
    {c : Cursor} {l : List UInt8} (hc : c.Sees l) (hfuel : l.length ≤ fuel) :
    Finds (entriesToStop (fun acc _ c _ => push item acc c) fuel acc c) c l
      (Onto acc (ToStop P)) := by
  induction fuel generalizing acc c l with
  | zero =>
    refine finds_error _ ?_
    rintro s w rest rfl ⟨as, -, hw⟩
    have hpos := hw.length_pos hP
    rw [List.length_append] at hfuel
    omega
  | succ fuel ih =>
    have hhead := Head.reads_spells c l hc
    rw [entriesToStop_succ]
    rcases hread : Head.read c with e | ⟨h, after⟩
    · refine finds_error _ ?_
      rintro s w rest rfl ⟨as, -, hw⟩
      obtain ⟨h, u, v, rfl, hu, -⟩ := hw.head hP
      cases hread.symm.trans ((hhead h _).mpr ⟨u, v ++ rest, List.append_assoc .., hu, rfl⟩)
    obtain ⟨u, rest, hl, hu, rfl⟩ := (hhead h after).mp hread
    -- the head that was looked at is the first of any series found here, by uniqueness of heads
    have hfirst {as : List α} {w rest' : List UInt8} (hw : ToStop P as w) (hl' : l = w ++ rest') :
        h = .stop ↔ as = [] := by
      obtain ⟨h', u', v', rfl, hu', hiff⟩ := hw.head hP
      rw [List.append_assoc] at hl'
      obtain ⟨rfl, -⟩ := hhead.unique hu hu' hl hl'
      exact hiff
    dsimp only [chain]
    by_cases hstop : h = .stop
    · rw [if_pos hstop]
      subst hstop
      rw [hl]
      refine (finds_ok acc _ rest).prepend.congr_front fun s w rest' hl' => ?_
      rw [← hl] at hl'
      constructor
      · rintro ⟨_, rfl, rfl, rfl⟩
        exact ⟨[], rfl, toStop_nil.mpr (by rwa [List.append_nil])⟩
      · rintro ⟨as, rfl, hw⟩
        obtain rfl := (hfirst hw hl').mp rfl
        obtain ⟨-, rfl, -⟩ := hhead.unique hu (toStop_nil.mp hw) hl hl'
        exact ⟨[], (List.append_nil _).symm, rfl, rfl⟩
    · -- the cursor is back before the head, and the item reads it again
      rw [if_neg hstop]
      have hmore := (finds_push hp acc hc).andThen (Q := fun s => Onto s (ToStop P))
        fun s v rest' hl' hv => ih s (Cursor.Sees.skip (hl' ▸ hc) rfl) (by
          obtain ⟨a, -, hv⟩ := hv
          obtain ⟨h', u', v', rfl, hu', -⟩ := hP a v hv
          have hpos := hu'.length_pos
          rw [hl', List.length_append, List.length_append] at hfuel
          omega)
      refine hmore.congr_front fun s w rest' hl' => ?_
      constructor
      · rintro ⟨_, v, v', rfl, ⟨a, rfl, ha⟩, as, rfl, hw⟩
        exact ⟨a :: as, by simp, toStop_cons.mpr ⟨v, v', rfl, ha, hw⟩⟩
      · rintro ⟨as, rfl, hw⟩
        cases as with
        | nil => exact absurd ((hfirst hw hl').mpr rfl) hstop
        | cons a as =>
          obtain ⟨v, v', rfl, ha, hw⟩ := toStop_cons.mp hw
          exact ⟨a :: acc, v, v', rfl, ⟨a, rfl, ha⟩, as, by simp, hw⟩

/-- **The reader of series.** -/
theorem finds_series (hp : Reads item P) (hP : Headed P) (len : Option ℕ) {c : Cursor}
    {l : List UInt8} (hc : c.Sees l) : Finds (series item len c) c l (Series P len) := by
  have hreverse {r : Except Error (List α × Cursor)} {R : Spelling (List α)}
      (hr : Finds r c l (Onto [] R)) :
      Finds (chain r fun acc c => .ok (acc.reverse, c)) c l R := by
    refine hr.map.congr fun as w => ?_
    constructor
    · rintro ⟨_, rfl, as, rfl, has⟩
      rwa [List.append_nil, List.reverse_reverse]
    · intro has
      exact ⟨as.reverse, (List.reverse_reverse as).symm, as, (List.append_nil _).symm, has⟩
  rcases len with _ | n
  · rw [series_none]
    refine (hreverse (finds_entriesToStop hp hP [] hc hc.left_eq.ge)).congr fun as w => ?_
    constructor
    · rintro ⟨u, v, rfl, hu, hv⟩
      exact .toStop hu hv
    · intro has
      cases has with
      | toStop hu hv => exact ⟨_, _, rfl, hu, hv⟩
  · rw [series_some]
    refine (hreverse (finds_entries hp n [] hc)).congr fun as w => ?_
    constructor
    · rintro ⟨rfl, hrun⟩
      exact .definite hrun
    · intro has
      cases has with
      | definite hrun => exact ⟨rfl, hrun⟩

end Series

/-! ### Items -/

namespace Item

/-- A byte string of known length, behind its head. -/
def Chunk : Spelling Bytes :=
  fun b w => ∃ u, w = u ++ b.octets ∧ Head.Spells (.bytes (some b.size)) u

/-- A word that a tag of this number turns into a whole number: a byte string of known length,
and short. -/
def Big (n : ℕ) (w : List UInt8) : Prop := (n = 2 ∨ n = 3) ∧ ∃ b, Chunk b w ∧ b.size ≤ 16

/-- What a head calls for if no other item is in it. -/
inductive Plain : Head → Spelling Item
  /-- A number. -/
  | positive (n : ℕ) : Plain (.positive n) (.integer n) []
  /-- A negative number. -/
  | negative (n : ℕ) : Plain (.negative n) (.integer (-1 - n)) []
  /-- A floating-point number. -/
  | float (bits : UInt64) : Plain (.float bits) (.float bits) []
  /-- A truth value. -/
  | bool (b : Bool) : Plain (.simple (if b then 21 else 20)) (.bool b) []
  /-- Null. -/
  | null : Plain (.simple 22) .null []
  /-- Undefined. -/
  | undefined : Plain (.simple 23) .null []
  /-- A byte string. -/
  | bytes {len : Option ℕ} {b : Bytes} {w : List UInt8} (hw : ByteString len b w) :
    Plain (.bytes len) (.bytes b) w
  /-- A text. -/
  | text {len : Option ℕ} {s : String} {w : List UInt8} (hw : TextString len s w) :
    Plain (.text len) (.text s) w
  /-- A big number. -/
  | big {b : Bytes} {w : List UInt8} (hw : Chunk b w) (hb : b.size ≤ 16) :
    Plain (.tag 2) (.ofInt (Bytes.natBE b)) w
  /-- A big negative number. -/
  | bigNegative {b : Bytes} {w : List UInt8} (hw : Chunk b w) (hb : b.size ≤ 16)
    (hn : Bytes.natBE b < 2 ^ 127) : Plain (.tag 3) (.ofInt (-1 - Bytes.natBE b)) w

/-- A key and a value. -/
def Pair (P : Spelling Item) : Spelling (Item × Item) :=
  fun e w => ∃ u v, w = u ++ v ∧ P e.1 u ∧ P e.2 v

/-- What a head calls for if items of a language are in it. -/
inductive Nested (P : Spelling Item) : Head → Spelling Item
  /-- An array. -/
  | array {len : Option ℕ} {items : List Item} {w : List UInt8} (hw : Series P len items w) :
    Nested P (.array len) (.array items) w
  /-- A map. -/
  | map {len : Option ℕ} {entries : List (Item × Item)} {w : List UInt8}
    (hw : Series (Pair P) len entries w) : Nested P (.map len) (.map entries) w
  /-- A tagged item that is no big number. -/
  | tag {n : ℕ} {i : Item} {w : List UInt8} (hw : P i w) (hn : ¬Big n w) :
    Nested P (.tag n) (.tag n i) w

/-- **What a head calls for**, where at most `d` arrays, maps and tags nest. -/
def Content : ℕ → Head → Spelling Item
  | 0, h, i, w => Plain h i w
  | d + 1, h, i, w => Plain h i w ∨ Nested (Spelling.andThen Head.Spells (Content d)) h i w

/-- **The language of items** in which at most `d` arrays, maps and tags nest: a head and what it
calls for. -/
def Spells (d : ℕ) : Spelling Item := Spelling.andThen Head.Spells (Content d)

/-- What calls for no other item is the same at every depth. -/
theorem content_iff_plain {d : ℕ} {h : Head} {i : Item} {w : List UInt8}
    (hn : ∀ P, ¬Nested P h i w) : Content d h i w ↔ Plain h i w := by
  cases d with
  | zero => rfl
  | succ d => exact or_iff_left (hn _)

theorem content_succ {d : ℕ} {h : Head} {i : Item} {w : List UInt8} :
    Content (d + 1) h i w ↔ Plain h i w ∨ Nested (Spells d) h i w := Iff.rfl

theorem headed_spells (d : ℕ) : Headed (Spells d) := by
  rintro i w ⟨h, u, v, rfl, hu, hv⟩
  refine ⟨h, u, v, rfl, hu, ?_⟩
  rintro rfl
  cases d with
  | zero => cases hv
  | succ d => rcases hv with ⟨⟨⟩⟩ | ⟨⟨⟩⟩

theorem headed_pair {P : Spelling Item} (hP : Headed P) : Headed (Pair P) := by
  rintro e w ⟨u, v, rfl, hu, -⟩
  obtain ⟨h, u, u', rfl, hu, hne⟩ := hP _ u hu
  exact ⟨h, u, u' ++ v, List.append_assoc .., hu, hne⟩

theorem read_eq (depth : ℕ) (c : Cursor) :
    read depth c = chain (Head.read c) (readContent (deeper depth)) := by
  rw [read_eq_readWith, readWith]
  rcases Head.read c with e | ⟨h, after⟩ <;> rfl

theorem finds_wrap {f : α → Item} {r : Except Error (α × Cursor)} {c : Cursor} {l : List UInt8}
    {P : Spelling α} (hr : Finds r c l P) :
    Finds (wrap f r) c l fun i w => ∃ a, i = f a ∧ P a w := by
  have hchain : wrap f r = chain r fun a c => .ok (f a, c) := by
    rcases r with e | ⟨a, c'⟩ <;> rfl
  rw [hchain]
  exact hr.map

theorem reads_pair {item : Cursor → Except Error (Item × Cursor)} {P : Spelling Item}
    (hp : Reads item P) : Reads (pair item) (Pair P) := by
  intro c l hc
  have hchain : pair item c = chain (item c) fun k c => chain (item c) fun v c =>
      .ok ((k, v), c) := by
    rw [pair]
    rcases item c with e | ⟨k, c'⟩
    · rfl
    · dsimp only [chain]
      rcases item c' with e | ⟨v, c''⟩ <;> rfl
  rw [hchain]
  refine ((hp c l hc).andThen (Q := fun k e w => ∃ v, e = (k, v) ∧ P v w)
    fun k u rest hl _ => ?_).congr fun e w => ?_
  · exact (hp _ _ (Cursor.Sees.skip (hl ▸ hc) rfl)).map
  · constructor
    · rintro ⟨k, u, v, rfl, hk, x, rfl, hx⟩
      exact ⟨u, v, rfl, hk, hx⟩
    · rintro ⟨u, v, rfl, hk, hv⟩
      exact ⟨e.1, u, v, rfl, hk, e.2, rfl, hv⟩

/-! ### Big numbers -/

/-- What begins with the head of a byte string of known length is that byte string. -/
theorem chunk_of_spells {d len : ℕ} {i : Item} {w u rest rest' : List UInt8} (hw : Spells d i w)
    (hu : Head.Spells (.bytes (some len)) u) (h : u ++ rest = w ++ rest') :
    ∃ b, Chunk b w ∧ b.size = len := by
  obtain ⟨h', u', v, rfl, hu', hv⟩ := hw
  rw [List.append_assoc] at h
  obtain ⟨rfl, rfl, -⟩ := Head.reads_spells.unique hu hu' h
  rw [content_iff_plain (by rintro P ⟨⟩)] at hv
  cases hv with
  | bytes hw =>
    cases hw with
    | definite => exact ⟨_, ⟨u, rfl, hu⟩, rfl⟩

/-- A big number is one byte string. -/
theorem chunk_head {b : Bytes} {w u rest rest' : List UInt8} {h : Head} (hb : Chunk b w)
    (hu : Head.Spells h u) (hl : u ++ rest = w ++ rest') :
    h = .bytes (some b.size) ∧ w = u ++ b.octets := by
  obtain ⟨u', rfl, hu'⟩ := hb
  rw [List.append_assoc] at hl
  obtain ⟨rfl, rfl, -⟩ := Head.reads_spells.unique hu hu' hl
  exact ⟨rfl, rfl⟩

theorem content_tag_head {d n : ℕ} {i : Item} {w : List UInt8} (hw : Content d (.tag n) i w) :
    ∃ h u v, w = u ++ v ∧ Head.Spells h u := by
  have hplain (hw : Plain (.tag n) i w) : ∃ h u v, w = u ++ v ∧ Head.Spells h u := by
    cases hw with
    | big hw hb =>
      obtain ⟨u, rfl, hu⟩ := hw
      exact ⟨_, u, _, rfl, hu⟩
    | bigNegative hw hb hn =>
      obtain ⟨u, rfl, hu⟩ := hw
      exact ⟨_, u, _, rfl, hu⟩
  cases d with
  | zero => exact hplain hw
  | succ d =>
    rcases hw with hw | hw
    · exact hplain hw
    · cases hw with
      | tag hw hn =>
        obtain ⟨h, u, v, rfl, hu, -⟩ := hw
        exact ⟨h, u, v, rfl, hu⟩

/-- A plain tag is a big number. -/
theorem plain_tag_iff {n : ℕ} {i : Item} {w : List UInt8} : Plain (.tag n) i w ↔
    (n = 2 ∨ n = 3) ∧ ∃ b, Chunk b w ∧ b.size ≤ 16 ∧ ofBig (n == 3) b = .ok i := by
  constructor
  · intro hw
    cases hw with
    | big hw hb => exact ⟨Or.inl rfl, _, hw, hb, rfl⟩
    | bigNegative hw hb hn => exact ⟨Or.inr rfl, _, hw, hb, if_pos hn⟩
  · rintro ⟨rfl | rfl, b, hw, hb, hi⟩
    · rw [ofBig, if_neg (by decide)] at hi
      obtain rfl := Except.ok.inj hi
      exact .big hw hb
    · rw [ofBig, if_pos (by decide)] at hi
      split_ifs at hi with hn
      obtain rfl := Except.ok.inj hi
      exact .bigNegative hw hb hn

section Tag

variable {d n len : ℕ} {h : Head} {c : Cursor} {u rest : List UInt8}

/-- Behind a tag 2 or 3, a short byte string is a big number: an item behind the tag would be the
same byte string. -/
theorem finds_big (hc : c.Sees (u ++ rest)) (hu : Head.Spells (.bytes (some len)) u)
    (hread : Head.read c = .ok (.bytes (some len), c.skip u.length)) (hn : n = 2 ∨ n = 3)
    (hlen : len ≤ 16) :
    Finds (readContent (deeper d) (.tag n) c) c (u ++ rest) (Content d (.tag n)) := by
  have hchain : readContent (deeper d) (.tag n) c =
      chain ((c.skip u.length).take len) fun b after => hold after (ofBig (n == 3) b) := by
    unfold readContent
    dsimp only
    rw [big?, hread]
    dsimp only
    rw [if_pos ⟨hn, hlen⟩]
    rcases (c.skip u.length).take len with e | ⟨b, after⟩
    · rfl
    · dsimp only [chain]
      rcases ofBig (n == 3) b with e | i <;> rfl
  rw [hchain]
  refine ((finds_take (hc.skip rfl) len).andThen fun b w rest _ _ =>
    finds_hold _ rest _).prepend.congr_front fun i w rest' hl => ?_
  constructor
  · rintro ⟨_, rfl, b, _, _, rfl, ⟨rfl, rfl⟩, hi, rfl⟩
    -- at every depth: a big number takes none
    have hplain : Plain (.tag n) i (u ++ (b.octets ++ [])) :=
      plain_tag_iff.mpr ⟨hn, b, ⟨u, by rw [List.append_nil], hu⟩, hlen, hi⟩
    cases d with
    | zero => exact hplain
    | succ d => exact Or.inl hplain
  · intro hw
    have hplain : Plain (.tag n) i w := by
      cases d with
      | zero => exact hw
      | succ d =>
        refine hw.resolve_right fun hw => ?_
        cases hw with
        | tag hw hnot =>
          obtain ⟨b, hb, rfl⟩ := chunk_of_spells hw hu hl
          exact hnot ⟨hn, b, hb, hlen⟩
    obtain ⟨-, b, hb, -, hi⟩ := plain_tag_iff.mp hplain
    obtain ⟨hsize, rfl⟩ := chunk_head hb hu hl
    obtain rfl := Option.some.inj (Head.bytes.inj hsize)
    exact ⟨b.octets, rfl, b, b.octets, [], (List.append_nil _).symm, ⟨rfl, rfl⟩, hi, rfl⟩

/-- Behind another tag, or before anything else, there is an item of its own. -/
theorem finds_tagged (hsub : ∀ k, d = k + 1 → Reads (read k) (Spells k))
    (hc : c.Sees (u ++ rest)) (hu : Head.Spells h u)
    (hread : Head.read c = .ok (h, c.skip u.length))
    (hbig : ¬∃ len, h = .bytes (some len) ∧ (n = 2 ∨ n = 3) ∧ len ≤ 16) :
    Finds (readContent (deeper d) (.tag n) c) c (u ++ rest) (Content d (.tag n)) := by
  have hnone : big? n c = .ok none := by
    rw [big?, hread]
    cases h with
    | bytes len =>
      cases len with
      | none => rfl
      | some len => exact if_neg fun hshort => hbig ⟨len, rfl, hshort⟩
    | _ => rfl
  have hnot {w rest' : List UInt8} (hl : u ++ rest = w ++ rest') : ¬Big n w := by
    rintro ⟨hn, b, hb, hsize⟩
    exact hbig ⟨b.size, (chunk_head hb hu hl).1, hn, hsize⟩
  have hplain {i : Item} {w rest' : List UInt8} (hl : u ++ rest = w ++ rest') :
      ¬Plain (.tag n) i w := by
    intro hw
    obtain ⟨hn, b, hb, hsize, -⟩ := plain_tag_iff.mp hw
    exact hnot hl ⟨hn, b, hb, hsize⟩
  unfold readContent
  dsimp only
  rw [hnone]
  cases d with
  | zero => exact finds_error _ fun i w rest' hl => hplain hl
  | succ k =>
    refine (finds_wrap (hsub k rfl c _ hc)).congr_front fun i w rest' hl => ?_
    rw [content_succ, or_iff_right (hplain hl)]
    constructor
    · rintro ⟨j, rfl, hj⟩
      exact .tag hj (hnot hl)
    · intro hw
      cases hw with
      | tag hw _ => exact ⟨_, rfl, hw⟩

theorem finds_tag (hsub : ∀ k, d = k + 1 → Reads (read k) (Spells k)) {l : List UInt8}
    (hc : c.Sees l) : Finds (readContent (deeper d) (.tag n) c) c l (Content d (.tag n)) := by
  have hhead := Head.reads_spells c l hc
  rcases hread : Head.read c with e | ⟨h, after⟩
  · have herror : readContent (deeper d) (.tag n) c = .error e := by
      unfold readContent
      dsimp only
      rw [big?, hread]
    rw [herror]
    refine finds_error e ?_
    rintro i w rest rfl hw
    -- whatever stands behind a tag begins with a head, which could have been read
    obtain ⟨h, u, v, rfl, hu⟩ := content_tag_head hw
    cases hread.symm.trans ((hhead h _).mpr ⟨u, v ++ rest, List.append_assoc .., hu, rfl⟩)
  · obtain ⟨u, rest, rfl, hu, rfl⟩ := (hhead h after).mp hread
    by_cases hbig : ∃ len, h = .bytes (some len) ∧ (n = 2 ∨ n = 3) ∧ len ≤ 16
    · obtain ⟨len, rfl, hn, hlen⟩ := hbig
      exact finds_big hc hu hread hn hlen
    · exact finds_tagged hsub hc hu hread hbig

end Tag

/-! ### Reading items -/

theorem plain_simple_iff {n : ℕ} {i : Item} {w : List UInt8} :
    Plain (.simple n) i w ↔ ofSimple n = .ok i ∧ w = [] := by
  constructor
  · intro hw
    cases hw with
    | bool b => cases b <;> exact ⟨rfl, rfl⟩
    | null => exact ⟨rfl, rfl⟩
    | undefined => exact ⟨rfl, rfl⟩
  · rintro ⟨hi, rfl⟩
    unfold ofSimple at hi
    split at hi <;> cases hi
    exacts [.bool false, .bool true, .null, .undefined]

/-- Nothing is read where the head says it all. -/
theorem finds_leaf {d : ℕ} {h : Head} {i : Item} {c : Cursor} {l : List UInt8}
    (hleaf : ∀ P j w, ¬Nested P h j w) (hi : Plain h i [])
    (honly : ∀ j w, Plain h j w → j = i ∧ w = []) : Finds (.ok (i, c)) c l (Content d h) := by
  refine (finds_ok i c l).congr fun j w => ?_
  rw [content_iff_plain fun P => hleaf P j w]
  constructor
  · rintro ⟨rfl, rfl⟩
    exact hi
  · exact honly j w

/-- **What is read behind a head is what the head calls for**, if what nests in it is. -/
theorem finds_readContent {d : ℕ} (hsub : ∀ k, d = k + 1 → Reads (read k) (Spells k)) (h : Head)
    {c : Cursor} {l : List UInt8} (hc : c.Sees l) :
    Finds (readContent (deeper d) h c) c l (Content d h) := by
  cases h with
  | positive n =>
    exact finds_leaf (by rintro P j w ⟨⟩) (.positive n) (by rintro j w ⟨⟩; exact ⟨rfl, rfl⟩)
  | negative n =>
    exact finds_leaf (by rintro P j w ⟨⟩) (.negative n) (by rintro j w ⟨⟩; exact ⟨rfl, rfl⟩)
  | float bits =>
    exact finds_leaf (by rintro P j w ⟨⟩) (.float bits) (by rintro j w ⟨⟩; exact ⟨rfl, rfl⟩)
  | simple n =>
    have hhold : readContent (deeper d) (.simple n) c = hold c (ofSimple n) := by
      unfold readContent
      dsimp only
      rcases ofSimple n with e | i <;> rfl
    rw [hhold]
    refine (finds_hold c l _).congr fun i w => ?_
    rw [content_iff_plain (by rintro P ⟨⟩), plain_simple_iff]
  | stop =>
    refine finds_error _ fun i w _ _ hw => ?_
    rw [content_iff_plain (by rintro P ⟨⟩)] at hw
    cases hw
  | bytes len =>
    refine (finds_wrap (finds_bytesAfter len hc)).congr fun i w => ?_
    rw [content_iff_plain (by rintro P ⟨⟩)]
    constructor
    · rintro ⟨b, rfl, hb⟩
      exact .bytes hb
    · intro hw
      cases hw with
      | bytes hb => exact ⟨_, rfl, hb⟩
  | text len =>
    refine (finds_wrap (finds_textAfter len hc)).congr fun i w => ?_
    rw [content_iff_plain (by rintro P ⟨⟩)]
    constructor
    · rintro ⟨s, rfl, hs⟩
      exact .text hs
    · intro hw
      cases hw with
      | text hs => exact ⟨_, rfl, hs⟩
  | array len =>
    cases d with
    | zero => exact finds_error _ fun i w _ _ hw => nomatch hw
    | succ d =>
      refine (finds_wrap (finds_series (hsub d rfl) (headed_spells d) len hc)).congr fun i w => ?_
      rw [content_succ, or_iff_right (by rintro ⟨⟩)]
      constructor
      · rintro ⟨items, rfl, hw⟩
        exact .array hw
      · intro hw
        cases hw with
        | array hw => exact ⟨_, rfl, hw⟩
  | map len =>
    cases d with
    | zero => exact finds_error _ fun i w _ _ hw => nomatch hw
    | succ d =>
      refine (finds_wrap (finds_series (reads_pair (hsub d rfl)) (headed_pair (headed_spells d))
        len hc)).congr fun i w => ?_
      rw [content_succ, or_iff_right (by rintro ⟨⟩)]
      constructor
      · rintro ⟨entries, rfl, hw⟩
        exact .map hw
      · intro hw
        cases hw with
        | map hw => exact ⟨_, rfl, hw⟩
  | tag n => exact finds_tag hsub hc

/-- **The reader of items reads the language of items**, by induction on how deep they nest. -/
theorem reads_spells (d : ℕ) : Reads (read d) (Spells d) := by
  have hstep (d : ℕ) (hsub : ∀ k, d = k + 1 → Reads (read k) (Spells k)) :
      Reads (read d) (Spells d) := by
    intro c l hc
    rw [read_eq]
    exact (Head.reads_spells c l hc).andThen fun h u rest hl _ =>
      finds_readContent hsub h (Cursor.Sees.skip (hl ▸ hc) rfl)
  induction d with
  | zero => exact hstep 0 fun k hk => nomatch hk
  | succ d ih =>
    refine hstep (d + 1) fun k hk => ?_
    cases hk
    exact ih

/-- **The first item of a byte string**, whatever follows it. -/
def Begins (b : Bytes) (i : Item) : Prop :=
  ∃ w rest, b.octets = w ++ rest ∧ Spells maxDepth i w

theorem Begins.unique {b : Bytes} {i j : Item} (hi : Begins b i) (hj : Begins b j) : i = j := by
  obtain ⟨u, rest, hl, hi⟩ := hi
  obtain ⟨v, rest', hl', hj⟩ := hj
  exact ((reads_spells maxDepth).unique hi hj (hl.symm.trans hl')).1

theorem ofBytes_eq_ok_iff {b : Bytes} {i : Item} : ofBytes b = .ok i ↔ Begins b i := by
  have hread := reads_spells maxDepth _ _ (Cursor.sees_zero b)
  constructor
  · intro h
    rw [ofBytes] at h
    rcases hr : read maxDepth ⟨b, 0⟩ with e | ⟨j, c⟩
    · rw [hr] at h
      cases h
    · rw [hr] at h
      cases h
      obtain ⟨w, rest, hl, hw, -⟩ := (hread i c).mp hr
      exact ⟨w, rest, hl, hw⟩
  · rintro ⟨w, rest, hl, hw⟩
    rw [ofBytes, (hread i _).mpr ⟨w, rest, hl, hw, rfl⟩]

end Item

end Vault.Cbor
