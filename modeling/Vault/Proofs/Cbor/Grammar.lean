import Vault.Cbor.Item
import Vault.Proofs.Cbor.Head

/-!
# The language of heads and strings

What a reader accepts is a language: which words spell a value. This file writes down the
language of heads (`Vault.Cbor.Head.Spells`) and of strings (`Vault.Cbor.StringOf`) without
looking at the readers, and shows that the readers find exactly their words.

The tie is `Vault.Cbor.Finds r c l P`. At the cursor `c`, which sees the bytes `l`, the outcome
`r` is a success exactly when a front of `l` spells a value in `P`; then it is that value, and
the cursor is moved past the front. Both directions are in one statement, so it composes without
any side condition: a reader that goes on where another stopped finds the words that are a word of
the one and a word of the other (`Vault.Cbor.Finds.andThen`), and a language that is read by some
reader is unambiguous (`Vault.Cbor.Reads.unique`).

A string of unknown length is a list of pieces up to a break, and a piece may be such a list
itself. The reader counts the breaks to come instead of calling itself; what is left to read when
`n` breaks are to come is `Vault.Cbor.Closes n`.
-/

namespace Vault

/-- Every list of bytes is a byte string. -/
theorem Bytes.exists_octets (l : List UInt8) : ∃ b : Bytes, b.octets = l := ⟨⟨l.toArray⟩, rfl⟩

/-- The bytes of a text are those that decode to it. -/
theorem Utf8.decode?_eq_some_iff {b : Bytes} {s : String} : decode? b = some s ↔ b = encode s := by
  constructor
  · intro h
    unfold decode? String.fromUTF8? at h
    split_ifs at h
    cases h
    rfl
  · rintro rfl
    exact decode?_encode s

namespace Cbor

variable {α β : Type}

/-! ### Languages and readers -/

/-- **A language of values**: which words spell a value. -/
abbrev Spelling (α : Type) := α → List UInt8 → Prop

/-- One word after another, the second in a language that the first value chooses. -/
def Spelling.andThen (P : Spelling α) (Q : α → Spelling β) : Spelling β :=
  fun b w => ∃ a u v, w = u ++ v ∧ P a u ∧ Q a b v

/-- **The outcome of reading is exactly that of a language**: a success if a front of the bytes
is a word, and then its value. -/
def Finds (r : Except Error (α × Cursor)) (c : Cursor) (l : List UInt8) (P : Spelling α) : Prop :=
  ∀ a c', r = .ok (a, c') ↔ ∃ w rest, l = w ++ rest ∧ P a w ∧ c' = c.skip w.length

/-- **A reader of a language.** -/
def Reads (p : Cursor → Except Error (α × Cursor)) (P : Spelling α) : Prop :=
  ∀ c l, c.Sees l → Finds (p c) c l P

theorem Cursor.skip_inj {c : Cursor} {m n : ℕ} : c.skip m = c.skip n ↔ m = n := by
  simp [skip]

section Finds

variable {r : Except Error (α × Cursor)} {c : Cursor} {l : List UInt8} {P P' : Spelling α}

/-- Only the words that are a front of the bytes matter. -/
theorem Finds.congr_front (h : Finds r c l P)
    (hP : ∀ a w rest, l = w ++ rest → (P a w ↔ P' a w)) : Finds r c l P' := by
  intro a c'
  rw [h a c']
  constructor
  · rintro ⟨w, rest, hl, ha, rfl⟩
    exact ⟨w, rest, hl, (hP a w rest hl).mp ha, rfl⟩
  · rintro ⟨w, rest, hl, ha, rfl⟩
    exact ⟨w, rest, hl, (hP a w rest hl).mpr ha, rfl⟩

theorem Finds.congr (h : Finds r c l P) (hP : ∀ a w, P a w ↔ P' a w) : Finds r c l P' :=
  h.congr_front fun a w _ _ => hP a w

theorem finds_error (e : Error) (hP : ∀ a w rest, l = w ++ rest → ¬P a w) :
    Finds (.error e) c l P := by
  intro a c'
  refine ⟨nofun, ?_⟩
  rintro ⟨w, rest, hl, ha, -⟩
  exact (hP a w rest hl ha).elim

theorem finds_ok (a : α) (c : Cursor) (l : List UInt8) :
    Finds (.ok (a, c)) c l fun b w => b = a ∧ w = [] := by
  intro b c'
  constructor
  · intro h
    cases h
    exact ⟨[], l, rfl, ⟨rfl, rfl⟩, rfl⟩
  · rintro ⟨w, rest, -, ⟨rfl, rfl⟩, rfl⟩
    rfl

/-- An outcome that takes no bytes. -/
def hold (c : Cursor) : Except Error α → Except Error (α × Cursor)
  | .error e => .error e
  | .ok a => .ok (a, c)

theorem finds_hold (c : Cursor) (l : List UInt8) (x : Except Error α) :
    Finds (hold c x) c l fun a w => x = .ok a ∧ w = [] := by
  rcases x with e | a
  · exact finds_error e fun _ _ _ _ h => nomatch h.1
  · exact (finds_ok a c l).congr fun b w => by rw [Except.ok.injEq, eq_comm]

/-- A value that may be missing. -/
def orFail (e : Error) (c : Cursor) : Option α → Except Error (α × Cursor)
  | none => .error e
  | some a => .ok (a, c)

theorem finds_orFail (e : Error) (c : Cursor) (l : List UInt8) (o : Option α) :
    Finds (orFail e c o) c l fun a w => o = some a ∧ w = [] := by
  rcases o with _ | a
  · exact finds_error e fun _ _ _ _ h => nomatch h.1
  · exact (finds_ok a c l).congr fun b w => by rw [Option.some_inj, eq_comm]

/-- What is read after some bytes, seen from before them. -/
theorem Finds.prepend {u rest : List UInt8} (h : Finds r (c.skip u.length) rest P) :
    Finds r c (u ++ rest) fun a w => ∃ v, w = u ++ v ∧ P a v := by
  intro a c'
  rw [h a c']
  constructor
  · rintro ⟨v, rest', rfl, ha, rfl⟩
    exact ⟨u ++ v, rest', (List.append_assoc ..).symm, ⟨v, rfl, ha⟩,
      by rw [Cursor.skip_skip, List.length_append]⟩
  · rintro ⟨_, rest', hl, ⟨v, rfl, ha⟩, rfl⟩
    rw [List.append_assoc] at hl
    exact ⟨v, rest', List.append_cancel_left hl, ha,
      by rw [Cursor.skip_skip, List.length_append]⟩

/-- Two words at one place are the same, with the same value. -/
theorem Finds.unique (h : Finds r c l P) {a b : α} {u v rest rest' : List UInt8} (ha : P a u)
    (hb : P b v) (hu : l = u ++ rest) (hv : l = v ++ rest') : a = b ∧ u = v ∧ rest = rest' := by
  have hfirst := (h a (c.skip u.length)).mpr ⟨u, rest, hu, ha, rfl⟩
  have hsecond := (h b (c.skip v.length)).mpr ⟨v, rest', hv, hb, rfl⟩
  obtain ⟨rfl, hskip⟩ := Prod.ext_iff.mp (Except.ok.inj (hfirst.symm.trans hsecond))
  exact ⟨rfl, List.append_inj (hu.symm.trans hv) (Cursor.skip_inj.mp hskip)⟩

/-- Go on where a reader stopped. -/
def chain (r : Except Error (α × Cursor)) (q : α → Cursor → Except Error (β × Cursor)) :
    Except Error (β × Cursor) :=
  match r with
  | .error e => .error e
  | .ok (a, c) => q a c

/-- **Readers compose as languages do.** -/
theorem Finds.andThen {q : α → Cursor → Except Error (β × Cursor)} {Q : α → Spelling β}
    (hr : Finds r c l P) (hq : ∀ a w rest, l = w ++ rest → P a w →
      Finds (q a (c.skip w.length)) (c.skip w.length) rest (Q a)) :
    Finds (chain r q) c l (P.andThen Q) := by
  intro b c'
  rcases r with e | ⟨a, c₁⟩
  · refine ⟨nofun, ?_⟩
    rintro ⟨w, rest, hl, ⟨a, u, v, rfl, ha, -⟩, -⟩
    cases (hr a (c.skip u.length)).mpr ⟨u, v ++ rest, by rw [hl, List.append_assoc], ha, rfl⟩
  · obtain ⟨u, rest, hl, ha, rfl⟩ := (hr a c₁).mp rfl
    rw [chain, hq a u rest hl ha b c']
    constructor
    · rintro ⟨v, rest', rfl, hv, rfl⟩
      exact ⟨u ++ v, rest', by rw [hl, List.append_assoc], ⟨a, u, v, rfl, ha, hv⟩,
        by rw [Cursor.skip_skip, List.length_append]⟩
    · rintro ⟨w, rest', hl', ⟨a', u', v, rfl, ha', hv⟩, rfl⟩
      rw [List.append_assoc] at hl'
      obtain ⟨rfl, rfl, hrest⟩ := hr.unique ha ha' hl hl'
      exact ⟨v, rest', hrest, hv, by rw [Cursor.skip_skip, List.length_append]⟩

theorem Finds.map {f : α → β} (hr : Finds r c l P) :
    Finds (chain r fun a c => .ok (f a, c)) c l fun b w => ∃ a, b = f a ∧ P a w := by
  refine (hr.andThen (Q := fun a b w => b = f a ∧ w = []) fun a u rest _ _ =>
    finds_ok _ _ rest).congr fun b w => ?_
  constructor
  · rintro ⟨a, u, v, rfl, ha, rfl, rfl⟩
    exact ⟨a, rfl, by rwa [List.append_nil]⟩
  · rintro ⟨a, rfl, ha⟩
    exact ⟨a, w, [], (List.append_nil w).symm, ha, rfl, rfl⟩

end Finds

/-- **A language that is read is unambiguous**, and no word of it is the front of another. -/
theorem Reads.unique {p : Cursor → Except Error (α × Cursor)} {P : Spelling α} (hp : Reads p P)
    {a b : α} {u v rest rest' : List UInt8} (ha : P a u) (hb : P b v)
    (h : u ++ rest = v ++ rest') : a = b ∧ u = v ∧ rest = rest' := by
  obtain ⟨input, hinput⟩ := Bytes.exists_octets (u ++ rest)
  have hsees := Cursor.sees_zero input
  rw [hinput] at hsees
  exact (hp _ _ hsees).unique ha hb rfl h

/-! ### Bytes -/

/-- As many bytes as announced. -/
theorem finds_take {c : Cursor} {l : List UInt8} (hc : c.Sees l) (n : ℕ) :
    Finds (c.take n) c l fun b w => w = b.octets ∧ b.size = n := by
  have hleft := hc.left_eq
  rw [Cursor.left] at hleft
  have hpos := hc.1
  by_cases hn : n ≤ l.length
  · obtain ⟨b, hb⟩ := Bytes.exists_octets (l.take n)
    have hsize : b.size = n := by rw [← Bytes.length_octets, hb, List.length_take]; omega
    have hl : l = b.octets ++ l.drop n := by rw [hb, List.take_append_drop]
    have htake : c.take n = .ok (b, c.skip n) := by
      rw [hl, ← hsize] at hc
      rw [← hsize]
      exact hc.take
    intro a c'
    rw [htake]
    constructor
    · intro h
      cases h
      exact ⟨b.octets, l.drop n, hl, ⟨rfl, hsize⟩, by rw [Bytes.length_octets, hsize]⟩
    · rintro ⟨w, rest, hl', ⟨rfl, ha⟩, rfl⟩
      have hsame : b.octets = a.octets :=
        (List.append_inj (hl.symm.trans hl') (by simp only [Bytes.length_octets, hsize, ha])).1
      rw [Bytes.ext_octets hsame, Bytes.length_octets, ha]
  · have htake : c.take n = .error .inputEnds := by
      rw [Cursor.take, Cursor.take?, if_neg (by omega)]
    rw [htake]
    refine finds_error _ ?_
    rintro a w rest rfl ⟨rfl, rfl⟩
    rw [List.length_append, Bytes.length_octets] at hn
    omega

/-! ### Heads -/

namespace Head

/-- The first byte of a head: the major type and the additional information. -/
def lead (major info : ℕ) : UInt8 := UInt8.ofNat (32 * major + info)

/-- **The argument of a head.** Below 24 it may be the additional information itself; or it
stands in the one, two, four or eight bytes that follow, most significant byte first. -/
inductive Argument : ℕ → ℕ → List UInt8 → Prop
  /-- In the first byte. -/
  | direct {n : ℕ} (hn : n < 24) : Argument n n []
  /-- In the bytes after it. -/
  | following {k : ℕ} {b : Bytes} (hk : k < 4) (hb : b.size = 2 ^ k) :
    Argument (24 + k) (Bytes.natBE b) b.octets

/-- **The language of heads.** -/
inductive Spells : Spelling Head
  /-- A number, or the known length of a string, an array or a map. -/
  | definite {major info n : ℕ} {w : List UInt8} (hm : major < 6) (hn : Argument info n w) :
    Spells (definite n major) (lead major info :: w)
  /-- A tag. -/
  | tag {info n : ℕ} {w : List UInt8} (hn : Argument info n w) :
    Spells (.tag n) (lead 6 info :: w)
  /-- A simple value, in the first byte or the one after it. -/
  | simple {info n : ℕ} {w : List UInt8} (hi : info ≤ 24) (hn : Argument info n w) :
    Spells (.simple n) (lead 7 info :: w)
  /-- A floating-point number of two bytes. -/
  | half {b : Bytes} (hb : b.size = 2) :
    Spells (.float (Decimal.widen 5 10 (Bytes.natBE b))) (lead 7 25 :: b.octets)
  /-- One of four. -/
  | single {b : Bytes} (hb : b.size = 4) :
    Spells (.float (Decimal.widen 8 23 (Bytes.natBE b))) (lead 7 26 :: b.octets)
  /-- One of eight. -/
  | double {b : Bytes} (hb : b.size = 8) :
    Spells (.float (UInt64.ofNat (Bytes.natBE b))) (lead 7 27 :: b.octets)
  /-- A byte string of unknown length. -/
  | bytes : Spells (.bytes none) [lead 2 31]
  /-- A text of unknown length. -/
  | text : Spells (.text none) [lead 3 31]
  /-- An array of unknown length. -/
  | array : Spells (.array none) [lead 4 31]
  /-- A map of unknown length. -/
  | map : Spells (.map none) [lead 5 31]
  /-- The end of one of these. -/
  | stop : Spells .stop [lead 7 31]

theorem Spells.length_pos {h : Head} {w : List UInt8} (hw : Spells h w) : 0 < w.length := by
  cases hw <;> exact Nat.succ_pos _

/-- A first byte and the bytes it announces. -/
def Assembled : Spelling Head := fun h w =>
  ∃ (x : UInt8) (b : Bytes), w = x :: b.octets ∧ argumentBytes? (x.toNat % 32) = some b.size ∧
    assemble? (x.toNat / 32) (x.toNat % 32)
      (if b.size = 0 then x.toNat % 32 else Bytes.natBE b) = some h

theorem reads_assembled : Reads read Assembled := by
  intro c l hc
  have hread : read c = chain (c.take 1) fun first after =>
      (argumentBytes? ((Bytes.byteAt first 0).toNat % 32)).elim (.error (.malformed c.pos))
        fun k => chain (after.take k) fun argument after => orFail (.malformed c.pos) after
          (assemble? ((Bytes.byteAt first 0).toNat / 32) ((Bytes.byteAt first 0).toNat % 32)
            (if k = 0 then (Bytes.byteAt first 0).toNat % 32 else Bytes.natBE argument)) := by
    rw [read]
    rcases c.take 1 with e | ⟨first, after⟩
    · rfl
    · dsimp only [bind, Except.bind, chain]
      rcases argumentBytes? ((Bytes.byteAt first 0).toNat % 32) with _ | k
      · rfl
      · dsimp only [Option.elim_some]
        rcases after.take k with e | ⟨argument, after⟩
        · rfl
        · dsimp only
          rcases assemble? _ _ _ with _ | h <;> rfl
  -- the argument, once the first byte is known
  have hrest (x : UInt8) {c' : Cursor} {l' : List UInt8} (hc' : c'.Sees l') :
      Finds ((argumentBytes? (x.toNat % 32)).elim (.error (.malformed c.pos))
        fun k => chain (c'.take k) fun argument after => orFail (.malformed c.pos) after
          (assemble? (x.toNat / 32) (x.toNat % 32)
            (if k = 0 then x.toNat % 32 else Bytes.natBE argument))) c' l'
        fun h w => ∃ b : Bytes, w = b.octets ∧ argumentBytes? (x.toNat % 32) = some b.size ∧
          assemble? (x.toNat / 32) (x.toNat % 32)
            (if b.size = 0 then x.toNat % 32 else Bytes.natBE b) = some h := by
    rcases argumentBytes? (x.toNat % 32) with _ | k
    · refine finds_error _ ?_
      rintro h w rest - ⟨b, -, ⟨⟩, -⟩
    · refine ((finds_take hc' k).andThen (Q := fun b h w => assemble? (x.toNat / 32)
        (x.toNat % 32) (if k = 0 then x.toNat % 32 else Bytes.natBE b) = some h ∧ w = [])
        fun b w rest _ _ => finds_orFail _ _ rest _).congr ?_
      intro h w
      constructor
      · rintro ⟨b, u, v, rfl, ⟨rfl, rfl⟩, hh, rfl⟩
        exact ⟨b, by rw [List.append_nil], rfl, hh⟩
      · rintro ⟨b, rfl, hk, hh⟩
        obtain rfl := Option.some.inj hk
        exact ⟨b, b.octets, [], by rw [List.append_nil], ⟨rfl, rfl⟩, hh, rfl⟩
  rw [hread]
  refine ((finds_take hc 1).andThen fun first w rest hl hw =>
    hrest (Bytes.byteAt first 0) (Cursor.Sees.skip (hl ▸ hc) rfl)).congr ?_
  intro h w
  constructor
  · rintro ⟨first, u, v, rfl, ⟨rfl, hsize⟩, b, rfl, hb⟩
    obtain ⟨x, hx⟩ := List.length_eq_one_iff.mp ((Bytes.length_octets first).trans hsize)
    obtain rfl : first = ByteArray.empty.push x := by
      refine Bytes.ext_octets ?_
      rw [hx, Bytes.octets_push]
      rfl
    exact ⟨x, b, rfl, hb⟩
  · rintro ⟨x, b, rfl, hb⟩
    exact ⟨ByteArray.empty.push x, [x], b.octets, rfl, ⟨rfl, rfl⟩, b, rfl, hb⟩

/-- The two parts of a first byte. -/
theorem lead_toNat (x : UInt8) : lead (x.toNat / 32) (x.toNat % 32) = x := by
  rw [lead, Nat.div_add_mod, UInt8.ofNat_toNat]

theorem toNat_lead {major info : ℕ} (hm : major < 8) (hi : info < 32) :
    (lead major info).toNat / 32 = major ∧ (lead major info).toNat % 32 = info := by
  rw [lead, UInt8.toNat_ofNat']
  omega

theorem argument_of_bytes {info n : ℕ} {b : Bytes} (hi : info ≠ 31)
    (hb : argumentBytes? info = some b.size)
    (hn : (if b.size = 0 then info else Bytes.natBE b) = n) : Argument info n b.octets := by
  subst hn
  rw [argumentBytes?] at hb
  split_ifs at hb with h24 h25 h26 h27 h28
  · have hsize : b.size = 0 := (Option.some.inj hb).symm
    have hempty : b.octets = [] := List.length_eq_zero_iff.mp hsize
    rw [if_pos hsize, hempty]
    exact .direct (h24.resolve_right hi)
  all_goals
    have hsize := (Option.some.inj hb).symm
    rw [if_neg (by omega)]
    subst info
  · exact .following (k := 0) (by decide) hsize
  · exact .following (k := 1) (by decide) hsize
  · exact .following (k := 2) (by decide) hsize
  · exact .following (k := 3) (by decide) hsize

theorem bytes_of_argument {info n : ℕ} {w : List UInt8} (h : Argument info n w) :
    info < 28 ∧ ∃ b : Bytes, w = b.octets ∧ argumentBytes? info = some b.size ∧
      (if b.size = 0 then info else Bytes.natBE b) = n := by
  cases h with
  | direct hn =>
    exact ⟨by omega, ByteArray.empty, rfl, by rw [argumentBytes?, if_pos (Or.inl hn)]; rfl, rfl⟩
  | @following k b hk hb =>
    refine ⟨by omega, b, rfl, ?_, if_neg ?_⟩
    · rw [hb]
      interval_cases k <;> rfl
    · rw [hb]
      exact Nat.two_pow_pos k |>.ne'

theorem assembled_lead {major info : ℕ} {b : Bytes} {h : Head} (hm : major < 8) (hi : info < 32)
    (hb : argumentBytes? info = some b.size)
    (hh : assemble? major info (if b.size = 0 then info else Bytes.natBE b) = some h) :
    Assembled h (lead major info :: b.octets) := by
  obtain ⟨hmajor, hinfo⟩ := toNat_lead hm hi
  refine ⟨lead major info, b, rfl, ?_, ?_⟩
  · rw [hinfo, hb]
  · rw [hmajor, hinfo, hh]

theorem assembled_of_spells {h : Head} {w : List UInt8} (hw : Spells h w) : Assembled h w := by
  have hfloat {info : ℕ} {b : Bytes} {h : Head} (hi : info < 32)
      (hb : argumentBytes? info = some b.size) (hpos : 0 < b.size)
      (hh : assemble? 7 info (Bytes.natBE b) = some h) :
      Assembled h (lead 7 info :: b.octets) := by
    refine assembled_lead (by decide) hi hb ?_
    rw [if_neg hpos.ne', hh]
  cases hw with
  | @definite major info n w hm hn =>
    obtain ⟨hi, b, rfl, hb, hn⟩ := bytes_of_argument hn
    refine assembled_lead (by omega) (by omega) hb ?_
    rw [hn]
    interval_cases major <;> simp [assemble?, Head.definite, show info ≠ 31 by omega]
  | @tag info n w hn =>
    obtain ⟨hi, b, rfl, hb, hn⟩ := bytes_of_argument hn
    refine assembled_lead (by decide) (by omega) hb ?_
    rw [hn]
    simp [assemble?, show info ≠ 31 by omega]
  | @simple info n w hle hn =>
    obtain ⟨-, b, rfl, hb, hn⟩ := bytes_of_argument hn
    refine assembled_lead (by decide) (by omega) hb ?_
    rw [hn]
    simp [assemble?, show info ≠ 31 by omega, show info ≠ 25 by omega, show info ≠ 26 by omega,
      show info ≠ 27 by omega]
  | half hb => exact hfloat (by decide) (by rw [hb]; rfl) (by omega) rfl
  | single hb => exact hfloat (by decide) (by rw [hb]; rfl) (by omega) rfl
  | double hb => exact hfloat (by decide) (by rw [hb]; rfl) (by omega) rfl
  | bytes => exact assembled_lead (b := ByteArray.empty) (by decide) (by decide) rfl rfl
  | text => exact assembled_lead (b := ByteArray.empty) (by decide) (by decide) rfl rfl
  | array => exact assembled_lead (b := ByteArray.empty) (by decide) (by decide) rfl rfl
  | map => exact assembled_lead (b := ByteArray.empty) (by decide) (by decide) rfl rfl
  | stop => exact assembled_lead (b := ByteArray.empty) (by decide) (by decide) rfl rfl

/-- Among the heads of the last major type, the width of the argument tells a simple value from
the floating-point numbers. -/
theorem spells_seven {info n : ℕ} {w : List UInt8} {h : Head} (harg : Argument info n w)
    (hh : assemble? 7 info n = some h) : Spells h (lead 7 info :: w) := by
  cases harg with
  | direct hn =>
    have hsimple : assemble? 7 info info = some (.simple info) := by
      simp [assemble?, show info ≠ 31 by omega, show info ≠ 25 by omega, show info ≠ 26 by omega,
        show info ≠ 27 by omega]
    cases hsimple.symm.trans hh
    exact .simple (by omega) (.direct hn)
  | @following k b hk hb =>
    interval_cases k
    · cases hh
      exact .simple (by decide) (.following (by decide) hb)
    · cases hh
      exact .half hb
    · cases hh
      exact .single hb
    · cases hh
      exact .double hb

theorem spells_of_argument {major info n : ℕ} {w : List UInt8} {h : Head} (hm : major < 7)
    (harg : Argument info n w) (hh : assemble? major info n = some h) :
    Spells h (lead major info :: w) := by
  have hi : info ≠ 31 := by
    have hinfo := (bytes_of_argument harg).1
    omega
  by_cases hsix : major = 6
  · subst hsix
    rw [assemble?, if_neg hi] at hh
    cases hh
    exact .tag harg
  · have hdefinite : assemble? major info n = some (Head.definite n major) := by
      interval_cases major <;> simp_all [assemble?, Head.definite]
    cases hdefinite.symm.trans hh
    exact .definite (by omega) harg

theorem spells_of_assembled {h : Head} {w : List UInt8} (hw : Assembled h w) : Spells h w := by
  obtain ⟨x, b, rfl, hb, hh⟩ := hw
  have hmajor : x.toNat / 32 < 8 := by
    have hx := x.toNat_lt
    omega
  have hx := lead_toNat x
  -- from here on the first byte is its two parts
  generalize x.toNat / 32 = major, x.toNat % 32 = info at hmajor hx hb hh
  subst hx
  by_cases hi : info = 31
  · subst hi
    have hempty : b.octets = [] := List.length_eq_zero_iff.mp (Option.some.inj hb).symm
    rw [hempty]
    interval_cases major <;> cases hh
    exacts [.bytes, .text, .array, .map, .stop]
  have harg := argument_of_bytes hi hb rfl
  by_cases hseven : major = 7
  · subst hseven
    exact spells_seven harg hh
  · exact spells_of_argument (by omega) harg hh

/-- **The reader of heads reads the language of heads.** -/
theorem reads_spells : Reads read Spells := fun c l hc =>
  (reads_assembled c l hc).congr fun _ _ => ⟨spells_of_assembled, assembled_of_spells⟩

end Head

/-! ### Strings -/

/-- A list in front of one that was read before, the last first. -/
def Onto (acc : List α) (P : Spelling (List α)) : Spelling (List α) :=
  fun s w => ∃ as, s = as.reverse ++ acc ∧ P as w

section Strings

/-- **The pieces of a string of unknown length**, up to the break. -/
inductive Pieces (kind : Option ℕ → Head) (octets : α → List UInt8) : Spelling (List α)
  /-- The break. -/
  | stop {u : List UInt8} (hu : Head.Spells .stop u) : Pieces kind octets [] u
  /-- A piece of known length. -/
  | piece {a : α} {as : List α} {u v : List UInt8}
    (hu : Head.Spells (kind (some (octets a).length)) u) (hv : Pieces kind octets as v) :
    Pieces kind octets (a :: as) (u ++ (octets a ++ v))
  /-- A piece of unknown length, with pieces and a break of its own. -/
  | nested {as bs : List α} {u v w : List UInt8} (hu : Head.Spells (kind none) u)
    (hv : Pieces kind octets as v) (hw : Pieces kind octets bs w) :
    Pieces kind octets (as ++ bs) (u ++ (v ++ w))

/-- **What stands behind the head of a string**: its bytes, or pieces. -/
inductive StringOf (kind : Option ℕ → Head) (octets : α → List UInt8) (join : List α → α) :
    Option ℕ → Spelling α
  /-- The bytes of a string of known length. -/
  | definite (a : α) : StringOf kind octets join (some (octets a).length) a (octets a)
  /-- The pieces of one of unknown length. -/
  | pieces {as : List α} {v : List UInt8} (hv : Pieces kind octets as v) :
    StringOf kind octets join none (join as) v

/-- The pieces up to the `n`-th break from here that does not belong to a string that begins
later. -/
def Closes (kind : Option ℕ → Head) (octets : α → List UInt8) : ℕ → Spelling (List α)
  | 0, as, w => as = [] ∧ w = []
  | n + 1, as, w => ∃ as₁ as₂ u v, as = as₁ ++ as₂ ∧ w = u ++ v ∧ Pieces kind octets as₁ u ∧
    Closes kind octets n as₂ v

variable {kind : Option ℕ → Head} {octets : α → List UInt8} {n : ℕ} {as : List α}
  {w : List UInt8}

theorem closes_one : Closes kind octets 1 as w ↔ Pieces kind octets as w := by
  constructor
  · rintro ⟨as₁, as₂, u, v, rfl, rfl, hp, rfl, rfl⟩
    rwa [List.append_nil, List.append_nil]
  · intro hp
    exact ⟨as, [], w, [], (List.append_nil _).symm, (List.append_nil _).symm, hp, rfl, rfl⟩

/-- What follows a head when the break of one string and of `n` others around it are to come: a
break closes the string, a known length is a piece, an unknown one opens a string. -/
def ClosesAfter (kind : Option ℕ → Head) (octets : α → List UInt8) (n : ℕ) (h : Head) :
    Spelling (List α) := fun as w =>
  h = .stop ∧ Closes kind octets n as w ∨
    (∃ a as' v, h = kind (some (octets a).length) ∧ as = a :: as' ∧ w = octets a ++ v ∧
      Closes kind octets (n + 1) as' v) ∨
    h = kind none ∧ Closes kind octets (n + 2) as w

/-- **One head at a time.** -/
theorem closes_succ : Closes kind octets (n + 1) as w ↔
    Spelling.andThen Head.Spells (ClosesAfter kind octets n) as w := by
  constructor
  · rintro ⟨as₁, as₂, u, v, rfl, rfl, hp, hc⟩
    cases hp with
    | stop hu => exact ⟨_, u, v, rfl, hu, Or.inl ⟨rfl, hc⟩⟩
    | @piece a as u u' hu hv =>
      exact ⟨_, u, octets a ++ (u' ++ v), by simp only [List.append_assoc], hu,
        Or.inr (Or.inl ⟨a, as ++ as₂, u' ++ v, rfl, rfl, rfl, as, as₂, u', v, rfl, rfl, hv, hc⟩)⟩
    | @nested as bs u u' u'' hu hv hw =>
      exact ⟨_, u, u' ++ (u'' ++ v), by simp only [List.append_assoc], hu,
        Or.inr (Or.inr ⟨rfl, as, bs ++ as₂, u', u'' ++ v, List.append_assoc .., rfl, hv, bs, as₂,
          u'', v, rfl, rfl, hw, hc⟩)⟩
  · rintro ⟨h, u, v, rfl, hu, ⟨rfl, hc⟩ |
      ⟨a, as', v, rfl, rfl, rfl, as₁, as₂, u', v', rfl, rfl, hp, hc⟩ |
      ⟨rfl, as₁, bs, u', v', rfl, rfl, hp, as₂, as₃, u'', v'', rfl, rfl, hq, hc⟩⟩
    · exact ⟨[], as, u, v, rfl, rfl, .stop hu, hc⟩
    · exact ⟨a :: as₁, as₂, u ++ (octets a ++ u'), v', rfl, by simp only [List.append_assoc],
        .piece hu hp, hc⟩
    · exact ⟨as₁ ++ as₂, as₃, u ++ (u' ++ u''), v'', (List.append_assoc ..).symm,
        by simp only [List.append_assoc], .nested hu hp hq, hc⟩

theorem Closes.length_pos (h : Closes kind octets (n + 1) as w) : 0 < w.length := by
  obtain ⟨h, u, v, rfl, hu, -⟩ := closes_succ.mp h
  have hpos := hu.length_pos
  rw [List.length_append]
  omega

/-- A recogniser of the heads of one kind of string. -/
structure Recognises (length? : Head → Option (Option ℕ)) (kind : Option ℕ → Head) : Prop where
  eq_some_iff : ∀ h len, length? h = some len ↔ h = kind len
  ne_stop : ∀ len, kind len ≠ .stop

theorem Recognises.inj {length? : Head → Option (Option ℕ)} (hk : Recognises length? kind)
    {len len' : Option ℕ} (h : kind len = kind len') : len = len' := by
  have hsome := (hk.eq_some_iff (kind len) len).mpr rfl
  rw [h, (hk.eq_some_iff (kind len') len').mpr rfl] at hsome
  exact (Option.some.inj hsome).symm

variable {length? : Head → Option (Option ℕ)}
  {piece : ℕ → ℕ → Cursor → Except Error (α × Cursor)}

theorem Recognises.closesAfter_stop (hk : Recognises length? kind) :
    ClosesAfter kind octets n .stop as w ↔ Closes kind octets n as w := by
  simp [ClosesAfter, (hk.ne_stop _).symm]

theorem Recognises.closesAfter_none (hk : Recognises length? kind) :
    ClosesAfter kind octets n (kind none) as w ↔ Closes kind octets (n + 2) as w := by
  constructor
  · rintro (⟨hstop, -⟩ | ⟨a, as', v, hsome, -⟩ | ⟨-, hw⟩)
    · exact absurd hstop (hk.ne_stop none)
    · cases hk.inj hsome
    · exact hw
  · exact fun hw => Or.inr (Or.inr ⟨rfl, hw⟩)

theorem Recognises.closesAfter_some (hk : Recognises length? kind) {len : ℕ} :
    ClosesAfter kind octets n (kind (some len)) as w ↔ ∃ a as' v, (octets a).length = len ∧
      as = a :: as' ∧ w = octets a ++ v ∧ Closes kind octets (n + 1) as' v := by
  constructor
  · rintro (⟨hstop, -⟩ | ⟨a, as', v, hsome, hrest⟩ | ⟨hnone, -⟩)
    · exact absurd hstop (hk.ne_stop _)
    · exact ⟨a, as', v, (Option.some.inj (hk.inj hsome)).symm, hrest⟩
    · cases hk.inj hnone
  · rintro ⟨a, as', v, rfl, hrest⟩
    exact Or.inr (Or.inl ⟨a, as', v, rfl, hrest⟩)

theorem Recognises.not_closesAfter (hk : Recognises length? kind) {h : Head} (hstop : h ≠ .stop)
    (hother : length? h = none) : ¬ClosesAfter kind octets n h as w := by
  have hkind (len : Option ℕ) : h ≠ kind len := by
    rintro rfl
    rw [(hk.eq_some_iff _ _).mpr rfl] at hother
    cases hother
  rintro (⟨rfl, -⟩ | ⟨a, as', v, hsome, -⟩ | ⟨hnone, -⟩)
  · exact hstop rfl
  · exact hkind _ hsome
  · exact hkind _ hnone

theorem pieces_succ (fuel nested : ℕ) (acc : List α) (c : Cursor) :
    pieces length? (pushPiece piece) (fuel + 1) nested acc c = chain (Head.read c) fun h after =>
      if h = .stop then
        if nested = 1 then .ok (acc, after)
        else pieces length? (pushPiece piece) fuel (nested - 1) acc after
      else match length? h with
        | none => .error (.malformed c.pos)
        | some none => pieces length? (pushPiece piece) fuel (nested + 1) acc after
        | some (some len) => chain (piece c.pos len after) fun a after =>
          pieces length? (pushPiece piece) fuel nested (a :: acc) after := by
  rw [pieces]
  rcases Head.read c with e | ⟨h, after⟩
  · rfl
  dsimp only [chain]
  split_ifs
  · rfl
  · rfl
  rcases length? h with _ | _ | len
  · rfl
  · rfl
  dsimp only [pushPiece]
  rcases piece c.pos len after with e | ⟨a, after'⟩ <;> rfl

/-- **The reader of pieces** reads up to the last break that is to come. Every round takes a head,
so it is by induction on a bound for the bytes left. -/
theorem finds_pieces (hk : Recognises length? kind)
    (hpiece : ∀ start len c l, c.Sees l →
      Finds (piece start len c) c l fun a w => w = octets a ∧ w.length = len)
    {fuel : ℕ} (n : ℕ) (acc : List α) {c : Cursor} {l : List UInt8} (hc : c.Sees l)
    (hfuel : l.length ≤ fuel) :
    Finds (pieces length? (pushPiece piece) fuel (n + 1) acc c) c l
      (Onto acc (Closes kind octets (n + 1))) := by
  induction fuel generalizing n acc c l with
  | zero =>
    refine finds_error _ ?_
    rintro s w rest rfl ⟨as, -, hw⟩
    have hpos := hw.length_pos
    rw [List.length_append] at hfuel
    omega
  | succ fuel ih =>
    rw [pieces_succ]
    refine ((Head.reads_spells c l hc).andThen
      (Q := fun h => Onto acc (ClosesAfter kind octets n h)) fun h u rest hl hu => ?_).congr ?_
    · subst hl
      have hsees : (c.skip u.length).Sees rest := hc.skip rfl
      have hrest : rest.length ≤ fuel := by
        have hpos := hu.length_pos
        rw [List.length_append] at hfuel
        omega
      by_cases hstop : h = .stop
      · -- a break, the last one or not
        subst hstop
        rw [if_pos rfl]
        cases n with
        | zero =>
          refine (finds_ok acc _ rest).congr fun s w => ?_
          simp only [Onto, hk.closesAfter_stop, Closes]
          constructor
          · rintro ⟨rfl, rfl⟩
            exact ⟨[], rfl, rfl, rfl⟩
          · rintro ⟨_, rfl, rfl, rfl⟩
            exact ⟨rfl, rfl⟩
        | succ n =>
          refine (ih n acc hsees hrest).congr fun s w => ?_
          simp only [Onto, hk.closesAfter_stop]
      rw [if_neg hstop]
      rcases hlen : length? h with _ | _ | len
      · -- a head of another kind closes nothing and is no piece
        refine finds_error _ ?_
        rintro s w rest' - ⟨as, -, has⟩
        exact hk.not_closesAfter hstop hlen has
      · -- one more break to come
        obtain rfl := (hk.eq_some_iff _ _).mp hlen
        refine (ih (n + 1) acc hsees hrest).congr fun s w => ?_
        simp only [Onto, hk.closesAfter_none]
      · obtain rfl := (hk.eq_some_iff _ _).mp hlen
        refine ((hpiece c.pos len _ rest hsees).andThen
          (Q := fun a => Onto (a :: acc) (Closes kind octets (n + 1)))
          fun a v rest' hl' hv => ?_).congr fun s w => ?_
        · subst hl'
          exact ih n (a :: acc) (hsees.skip rfl) (by rw [List.length_append] at hrest; omega)
        · simp only [Onto, hk.closesAfter_some]
          constructor
          · rintro ⟨a, u', v, rfl, ⟨rfl, hlen'⟩, as', rfl, hv⟩
            exact ⟨a :: as', by simp, a, as', v, hlen', rfl, rfl, hv⟩
          · rintro ⟨_, rfl, a, as', v, hlen', rfl, rfl, hv⟩
            exact ⟨a, octets a, v, rfl, ⟨rfl, hlen'⟩, as', by simp, hv⟩
    · intro s w
      constructor
      · rintro ⟨h, u, v, rfl, hu, as, rfl, has⟩
        exact ⟨as, rfl, closes_succ.mpr ⟨h, u, v, rfl, hu, has⟩⟩
      · rintro ⟨as, rfl, has⟩
        obtain ⟨h, u, v, rfl, hu, has⟩ := closes_succ.mp has
        exact ⟨h, u, v, rfl, hu, as, rfl, has⟩

theorem finds_definite {r : Except Error (α × Cursor)} {c : Cursor} {l : List UInt8} {len : ℕ}
    (hr : Finds r c l fun a w => w = octets a ∧ w.length = len) (join : List α → α) :
    Finds r c l (StringOf kind octets join (some len)) := by
  refine hr.congr fun a w => ?_
  constructor
  · rintro ⟨rfl, rfl⟩
    exact .definite a
  · rintro ⟨⟩
    exact ⟨rfl, rfl⟩

theorem finds_indefinite (hk : Recognises length? kind)
    (hpiece : ∀ start len c l, c.Sees l →
      Finds (piece start len c) c l fun a w => w = octets a ∧ w.length = len)
    (join : List α → α) {c : Cursor} {l : List UInt8} (hc : c.Sees l) :
    Finds (chain (pieces length? (pushPiece piece) c.left 1 [] c) fun acc after =>
      .ok (join acc.reverse, after)) c l (StringOf kind octets join none) := by
  refine ((finds_pieces hk hpiece 0 [] hc hc.left_eq.ge).map
    (f := fun acc => join acc.reverse)).congr fun a w => ?_
  constructor
  · rintro ⟨_, rfl, as, rfl, has⟩
    rw [List.append_nil, List.reverse_reverse]
    exact .pieces (closes_one.mp has)
  · rintro ⟨⟩
    next as hv =>
      exact ⟨as.reverse, by rw [List.reverse_reverse], as, (List.append_nil _).symm,
        closes_one.mpr hv⟩

/-- **The language of byte strings** behind a head of this length. -/
def ByteString : Option ℕ → Spelling Bytes :=
  StringOf Head.bytes Bytes.octets (List.foldl (· ++ ·) ByteArray.empty)

/-- **The language of texts** behind a head of this length: each piece is the UTF-8 of a text. -/
def TextString : Option ℕ → Spelling String :=
  StringOf Head.text (fun s => (Utf8.encode s).octets) String.join

theorem recognises_bytes : Recognises bytesLength? Head.bytes where
  eq_some_iff h len := by cases h <;> simp [bytesLength?]
  ne_stop _ := nofun

theorem recognises_text : Recognises textLength? Head.text where
  eq_some_iff h len := by cases h <;> simp [textLength?]
  ne_stop _ := nofun

theorem finds_bytesAfter (len : Option ℕ) {c : Cursor} {l : List UInt8} (hc : c.Sees l) :
    Finds (bytesAfter len c) c l (ByteString len) := by
  have hpiece (start len : ℕ) (c : Cursor) (l : List UInt8) (hc : c.Sees l) :
      Finds (definiteBytes start len c) c l fun b w => w = b.octets ∧ w.length = len :=
    (finds_take hc len).congr fun b w => and_congr_right fun hw => by
      rw [hw, Bytes.length_octets]
  rcases len with _ | n
  · have hchain : bytesAfter none c = chain (pieces bytesLength? (pushPiece definiteBytes) c.left 1
        [] c) fun acc after => .ok (acc.reverse.foldl (· ++ ·) ByteArray.empty, after) := by
      rw [bytesAfter]
      rcases pieces bytesLength? (pushPiece definiteBytes) c.left 1 [] c with e | ⟨acc, after⟩ <;>
        rfl
    rw [hchain]
    exact finds_indefinite recognises_bytes hpiece _ hc
  · exact finds_definite (hpiece c.pos n c l hc) _

/-- A text of known length is as many bytes that decode to it. What is complained about if they
run out does not matter here. -/
theorem finds_definiteText (start len : ℕ) {c : Cursor} {l : List UInt8} (hc : c.Sees l) :
    Finds (definiteText start len c) c l
      fun s w => w = (Utf8.encode s).octets ∧ w.length = len := by
  intro s c'
  have htake := finds_take hc len
  rcases htake? : c.take? len with _ | ⟨b, after⟩
  · have hend : c.take len = .error .inputEnds := by rw [Cursor.take, htake?]
    rw [hend] at htake
    refine ⟨fun h => ?_, ?_⟩
    · rw [definiteText, htake?] at h
      dsimp only at h
      split_ifs at h
    · rintro ⟨w, rest, hl, ⟨rfl, hlen⟩, rfl⟩
      cases (htake (Utf8.encode s) _).mpr ⟨_, rest, hl, ⟨rfl, hlen⟩, rfl⟩
  · have hok : c.take len = .ok (b, after) := by rw [Cursor.take, htake?]
    rw [hok] at htake
    rw [definiteText, htake?]
    dsimp only
    constructor
    · intro h
      rcases hdecode : Utf8.decode? b with _ | s'
      · rw [hdecode] at h
        cases h
      · rw [hdecode] at h
        cases h
        obtain rfl := Utf8.decode?_eq_some_iff.mp hdecode
        obtain ⟨w, rest, hl, ⟨rfl, hlen⟩, rfl⟩ := (htake _ _).mp rfl
        exact ⟨_, rest, hl, ⟨rfl, hlen⟩, rfl⟩
    · rintro ⟨w, rest, hl, ⟨rfl, hlen⟩, rfl⟩
      cases (htake (Utf8.encode s) _).mpr ⟨_, rest, hl, ⟨rfl, hlen⟩, rfl⟩
      rw [Utf8.decode?_encode]

theorem finds_textAfter (len : Option ℕ) {c : Cursor} {l : List UInt8} (hc : c.Sees l) :
    Finds (textAfter len c) c l (TextString len) := by
  rcases len with _ | n
  · have hchain : textAfter none c = chain (pieces textLength? (pushPiece definiteText) c.left 1
        [] c) fun acc after => .ok (String.join acc.reverse, after) := by
      rw [textAfter]
      rcases pieces textLength? (pushPiece definiteText) c.left 1 [] c with e | ⟨acc, after⟩ <;> rfl
    rw [hchain]
    exact finds_indefinite recognises_text (fun start len c l => finds_definiteText start len) _ hc
  · exact finds_definite (finds_definiteText _ n hc) _

end Strings

end Cbor

end Vault
