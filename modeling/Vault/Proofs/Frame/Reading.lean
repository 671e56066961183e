import Vault.Frame.Reading
import Vault.Proofs.Wire.Response

/-!
# Where the pieces end does not show

A stream arrives in pieces, and a frame is read from it by taking what is wanted from
one piece after the other. What the pieces *mean* is their bytes in one string
(`Vault.Frame.bytesOf`) and how they stop (`Vault.Frame.ending`): at the end of the
stream or at a failure. `Vault.Frame.framesOf` reads frames off that string, without
pieces, and the main statement of this file is that the stream reader computes it
(`Vault.Frame.readAll_eq_framesOf`).

The argument follows one frame on its way. The bytes taken never go past the part that
is being read (`Vault.Frame.Reading.Exact`), so a frame that is complete is exactly a
front piece of the string, and one that is not complete when the pieces stop is all that
is left of it. A piece that is not used up completes the length or the body, which
happens once each; that is what the rounds of `Vault.Frame.readPieces` have to cover.
-/

namespace Vault.Frame

/-! ### What the pieces mean -/

/-- How a stream stops. -/
inductive Ending where
  /-- It ends. -/
  | eof
  /-- A read fails. -/
  | failure (text : String)
  deriving DecidableEq

/-- The bytes that can be read, in one string. -/
def bytesOf : List Piece → Bytes
  | [] => ByteArray.empty
  | .failure _ :: _ => ByteArray.empty
  | .bytes b :: pieces => b ++ bytesOf pieces

/-- How the reading stops. -/
def ending : List Piece → Ending
  | [] => .eof
  | .failure text :: _ => .failure text
  | .bytes _ :: pieces => ending pieces

/-- What becomes of a frame of which no more bytes arrive. -/
def Ending.stop (e : Ending) (r : Reading) : Except LinkError (Option Frame) :=
  match e with
  | .eof => r.atEnd
  | .failure text => .error (.io text)

theorem Ending.stop_ne_some (e : Ending) (r : Reading) (f : Frame) : e.stop r ≠ .ok (some f) := by
  cases e with
  | eof =>
    rw [stop, Reading.atEnd]
    split_ifs <;> simp
  | failure text => simp [stop]

/-- The first frame of a string of bytes, and the bytes after it. -/
def firstOf (e : Ending) (b : Bytes) : Except LinkError (Option Frame) × Bytes :=
  let r : Reading := ⟨b⟩
  if b.size < lengthBytes then (e.stop r, b)
  else if maxLength < r.announced then (.error (.frameTooLarge r.announced maxLength), b)
  else if b.size < lengthBytes + r.announced then (e.stop r, b)
  else
    ((decodeBody (Bytes.take (Bytes.drop b lengthBytes) r.announced)).map some,
      Bytes.drop b (lengthBytes + r.announced))

/-- A frame takes bytes. -/
theorem size_firstOf_lt {e : Ending} {b : Bytes} {f : Frame}
    (h : (firstOf e b).1 = .ok (some f)) : (firstOf e b).2.size < b.size := by
  revert h
  rw [firstOf]
  split_ifs with h1 h2 h3
  · exact fun h => absurd h (e.stop_ne_some _ f)
  · exact fun h => nomatch h
  · exact fun h => absurd h (e.stop_ne_some _ f)
  · intro _
    rw [Bytes.size_drop]
    have : 0 < lengthBytes := by decide
    omega

/-- The frames of a string of bytes up to where it stops or does not make sense. -/
def framesOf (e : Ending) (b : Bytes) : List Frame × Except LinkError Unit :=
  match h : (firstOf e b).1 with
  | .error err => ([], .error err)
  | .ok none => ([], .ok ())
  | .ok (some f) =>
    have : (firstOf e b).2.size < b.size := size_firstOf_lt h
    (f :: (framesOf e (firstOf e b).2).1, (framesOf e (firstOf e b).2).2)
termination_by b.size

theorem framesOf_eq (e : Ending) (b : Bytes) :
    framesOf e b = match (firstOf e b).1 with
      | .error err => ([], .error err)
      | .ok none => ([], .ok ())
      | .ok (some f) =>
        (f :: (framesOf e (firstOf e b).2).1, (framesOf e (firstOf e b).2).2) := by
  rw [framesOf]
  split <;> simp_all

/-! ### One frame on its way -/

namespace Reading

/-- The bytes taken do not go past the part that is being read. -/
def Exact (r : Reading) : Prop :=
  r.taken.size ≤ lengthBytes ∨ r.taken.size ≤ lengthBytes + r.announced

/-- The frame is still on its way. -/
def Underway (r : Reading) : Prop :=
  r.taken.size < lengthBytes ∨
    r.announced ≤ maxLength ∧ r.taken.size < lengthBytes + r.announced

theorem underway_empty : Underway {} :=
  Or.inl (by decide)

theorem Underway.exact {r : Reading} (h : r.Underway) : r.Exact := by
  rcases h with h | ⟨-, h⟩
  · exact Or.inl (Nat.le_of_lt h)
  · exact Or.inr (Nat.le_of_lt h)

/-- The length stands in the first four bytes, whatever follows. -/
theorem announced_append {r : Reading} (h : lengthBytes ≤ r.taken.size) (b : Bytes) :
    announced ⟨r.taken ++ b⟩ = r.announced := by
  have htake : Bytes.take (r.taken ++ b) lengthBytes = Bytes.take r.taken lengthBytes := by
    apply Bytes.ext_octets
    rw [Bytes.octets_take, Bytes.octets_take, Bytes.octets_append,
      List.take_append_of_le_length (by rw [Bytes.length_octets]; exact h)]
  rw [announced, announced, htake]

theorem progress_eq_more {r : Reading} (h : r.Underway) : r.progress = .more r := by
  rcases h with h | ⟨h, h'⟩
  · rw [progress, if_pos h]
  · rw [progress]
    split_ifs with h1 h2
    · rfl
    · omega
    · rfl

/-- A frame that is no longer on its way is settled. -/
theorem progress_of_not_underway {r : Reading} (h : ¬r.Underway) :
    r.progress = .done (if maxLength < r.announced
      then .error (.frameTooLarge r.announced maxLength)
      else (decodeBody (Bytes.drop r.taken lengthBytes)).map some) := by
  have h1 : ¬r.taken.size < lengthBytes := fun hc => h (Or.inl hc)
  rw [progress, if_neg h1]
  by_cases h2 : maxLength < r.announced
  · rw [if_pos h2, if_pos h2]
  · have h3 : ¬r.taken.size < lengthBytes + r.announced :=
      fun hc => h (Or.inr ⟨Nat.le_of_not_lt h2, hc⟩)
    rw [if_neg h2, if_neg h2, if_neg h3]

/-- **Taking no more than was wanted keeps to the part that is being read.** -/
theorem exact_append {r : Reading} {b : Bytes} (h : b.size ≤ r.wanted) (hr : r.Underway) :
    Exact ⟨r.taken ++ b⟩ := by
  rw [wanted] at h
  by_cases h1 : r.taken.size < lengthBytes
  · rw [if_pos h1] at h
    refine Or.inl ?_
    rw [ByteArray.size_append]
    omega
  · rw [if_neg h1] at h
    refine Or.inr ?_
    rw [announced_append (Nat.le_of_not_lt h1), ByteArray.size_append]
    rcases hr with hr | ⟨-, hr⟩ <;> omega

/-- A part that got all it wanted is no longer on its way as that part. -/
theorem size_append_of_wanted {r : Reading} {b : Bytes} (h : b.size = r.wanted)
    (hr : Underway ⟨r.taken ++ b⟩) : r.taken.size < lengthBytes ∧
      lengthBytes ≤ (r.taken ++ b).size := by
  rw [wanted] at h
  by_cases h1 : r.taken.size < lengthBytes
  · rw [if_pos h1] at h
    refine ⟨h1, ?_⟩
    rw [ByteArray.size_append]
    omega
  · rw [if_neg h1] at h
    exfalso
    rw [Underway, announced_append (Nat.le_of_not_lt h1), ByteArray.size_append] at hr
    rcases hr with hr | ⟨-, hr⟩ <;> omega

end Reading

/-- The bytes run out while the frame is on its way. -/
theorem firstOf_of_underway (e : Ending) {r : Reading} (h : r.Underway) :
    (firstOf e r.taken).1 = e.stop r := by
  rw [firstOf]
  rcases h with h | ⟨h, h'⟩
  · rw [if_pos h]
  · split_ifs with h1 h2
    · rfl
    · exact absurd h (Nat.not_le_of_lt h2)
    · rfl

/-- **A frame that is settled stands at the front of the string**, and what follows it
follows it. -/
theorem firstOf_of_settled (e : Ending) {r : Reading} (hr : ¬r.Underway) (hx : r.Exact)
    (b : Bytes) : r.progress = .done (firstOf e (r.taken ++ b)).1 ∧
      ∀ f, (firstOf e (r.taken ++ b)).1 = .ok (some f) → (firstOf e (r.taken ++ b)).2 = b := by
  have h1 : lengthBytes ≤ r.taken.size := Nat.le_of_not_lt fun hc => hr (Or.inl hc)
  have hann := Reading.announced_append h1 b
  have h1' : ¬(r.taken ++ b).size < lengthBytes := by
    rw [ByteArray.size_append]
    omega
  rw [Reading.progress_of_not_underway hr, firstOf, hann, if_neg h1']
  by_cases h2 : maxLength < r.announced
  · simp only [if_pos h2]
    exact ⟨trivial, fun f hf => nomatch hf⟩
  have h3 : lengthBytes + r.announced ≤ r.taken.size :=
    Nat.le_of_not_lt fun hc => hr (Or.inr ⟨Nat.le_of_not_lt h2, hc⟩)
  -- nothing went past the body, so the bytes taken are the length and the body
  have hsize : r.taken.size = lengthBytes + r.announced := by
    rcases hx with hx | hx <;> omega
  have h3' : ¬(r.taken ++ b).size < lengthBytes + r.announced := by
    rw [ByteArray.size_append]
    omega
  have hbody : Bytes.take (Bytes.drop (r.taken ++ b) lengthBytes) r.announced =
      Bytes.drop r.taken lengthBytes := by
    apply Bytes.ext_octets
    rw [Bytes.octets_take, Bytes.octets_drop, Bytes.octets_drop, Bytes.octets_append,
      List.drop_append_of_le_length (by rw [Bytes.length_octets]; omega)]
    exact List.take_left' (by rw [List.length_drop, Bytes.length_octets]; omega)
  have hrest : Bytes.drop (r.taken ++ b) (lengthBytes + r.announced) = b := by
    apply Bytes.ext_octets
    rw [Bytes.octets_drop, Bytes.octets_append]
    exact List.drop_left' (by rw [Bytes.length_octets]; omega)
  simp only [if_neg h2, if_neg h3', hbody, hrest]
  exact ⟨trivial, fun _ _ => trivial⟩

/-! ### From pieces to the string -/

/-- How many rounds a frame on its way may take: one for each piece, and one more if a piece
can outlast its length. -/
def roundsFor (r : Reading) (pieces : List Piece) : ℕ :=
  pieces.length + if r.taken.size < lengthBytes then 1 else 0

/-- The pieces left when `n` bytes of the first are used. -/
def leftOver (b : Bytes) (n : ℕ) (pieces : List Piece) : List Piece :=
  if (Bytes.drop b n).size = 0 then pieces else .bytes (Bytes.drop b n) :: pieces

theorem ending_leftOver (b : Bytes) (n : ℕ) (pieces : List Piece) :
    ending (leftOver b n pieces) = ending pieces := by
  rw [leftOver]
  split_ifs <;> rfl

theorem bytesOf_leftOver (b : Bytes) (n : ℕ) (pieces : List Piece) :
    Bytes.take b n ++ bytesOf (leftOver b n pieces) = b ++ bytesOf pieces := by
  have hb : b ++ bytesOf pieces = Bytes.take b n ++ (Bytes.drop b n ++ bytesOf pieces) := by
    rw [← ByteArray.append_assoc, Bytes.take_append_drop]
  rw [hb, leftOver]
  split_ifs with h
  · rw [ByteArray.size_eq_zero_iff.mp h, ByteArray.empty_append]
  · rfl

/-- One round: what is wanted of the first piece. -/
theorem readPieces_bytes (fuel : ℕ) (r : Reading) {b : Bytes} (hb : b.size ≠ 0)
    (pieces : List Piece) :
    readPieces (fuel + 1) r (.bytes b :: pieces) = match r.feed (Bytes.take b r.wanted) with
      | .more r' => readPieces fuel r' (leftOver b r.wanted pieces)
      | .done result => (result, leftOver b r.wanted pieces) := by
  rw [readPieces, if_neg hb]
  rfl

/-- A round uses up its piece, or the length is complete after it. -/
theorem roundsFor_leftOver {r : Reading} {b : Bytes} {pieces : List Piece} {fuel : ℕ}
    (hnext : Reading.Underway ⟨r.taken ++ Bytes.take b r.wanted⟩)
    (hfuel : roundsFor r (.bytes b :: pieces) ≤ fuel + 1) :
    roundsFor ⟨r.taken ++ Bytes.take b r.wanted⟩ (leftOver b r.wanted pieces) ≤ fuel := by
  simp only [roundsFor, List.length_cons] at hfuel ⊢
  rw [leftOver]
  by_cases hrest : (Bytes.drop b r.wanted).size = 0
  · rw [if_pos hrest]
    have hsize : (r.taken ++ Bytes.take b r.wanted).size =
        r.taken.size + (Bytes.take b r.wanted).size := ByteArray.size_append
    split_ifs at hfuel ⊢ <;> omega
  · rw [if_neg hrest, List.length_cons]
    have hwanted : (Bytes.take b r.wanted).size = r.wanted := by
      rw [Bytes.size_drop] at hrest
      rw [Bytes.size_take]
      omega
    obtain ⟨h1, h2⟩ := Reading.size_append_of_wanted hwanted hnext
    rw [if_pos h1] at hfuel
    rw [if_neg (Nat.not_lt_of_le h2)]
    omega

/-- With no pieces left the reading ends where it is. -/
theorem readPieces_nil {r : Reading} (hr : r.Underway) (fuel : ℕ) :
    (readPieces fuel r []).1 = (firstOf .eof r.taken).1 ∧
      ∀ f, (readPieces fuel r []).1 ≠ .ok (some f) := by
  have hend : readPieces fuel r [] = (r.atEnd, []) := by
    cases fuel <;> rfl
  rw [hend]
  exact ⟨(firstOf_of_underway .eof hr).symm, Ending.stop_ne_some .eof r⟩

/-- **Reading one frame from pieces is reading it from their bytes**: the same frame, and
the pieces left are the bytes left. -/
theorem readPieces_eq_firstOf {fuel : ℕ} {r : Reading} {pieces : List Piece}
    (hr : r.Underway) (hfuel : roundsFor r pieces ≤ fuel) :
    (readPieces fuel r pieces).1 = (firstOf (ending pieces) (r.taken ++ bytesOf pieces)).1 ∧
      ∀ f, (readPieces fuel r pieces).1 = .ok (some f) →
        bytesOf (readPieces fuel r pieces).2 =
            (firstOf (ending pieces) (r.taken ++ bytesOf pieces)).2 ∧
          ending (readPieces fuel r pieces).2 = ending pieces := by
  induction fuel generalizing r pieces with
  | zero =>
    -- no rounds are left only when no pieces are
    rw [roundsFor] at hfuel
    obtain rfl : pieces = [] := List.length_eq_zero_iff.mp (by omega)
    obtain ⟨hfirst, hnone⟩ := readPieces_nil hr 0
    rw [bytesOf, ByteArray.append_empty, ending]
    exact ⟨hfirst, fun f hf => absurd hf (hnone f)⟩
  | succ fuel ih =>
    match pieces with
    | [] =>
      obtain ⟨hfirst, hnone⟩ := readPieces_nil hr (fuel + 1)
      rw [bytesOf, ByteArray.append_empty, ending]
      exact ⟨hfirst, fun f hf => absurd hf (hnone f)⟩
    | .failure text :: pieces =>
      have h := firstOf_of_underway (.failure text) hr
      simp only [readPieces, bytesOf, ending, ByteArray.append_empty]
      exact ⟨h.symm, fun f hf => nomatch hf⟩
    | .bytes b :: pieces =>
      by_cases hb : b.size = 0
      · have hempty : b = ByteArray.empty := ByteArray.size_eq_zero_iff.mp hb
        have hrounds : roundsFor r pieces ≤ fuel := by
          simp only [roundsFor, List.length_cons] at hfuel ⊢
          omega
        rw [readPieces, if_pos hb, bytesOf, hempty, ByteArray.empty_append, ending]
        exact ih hr hrounds
      · have hbytes : r.taken ++ (b ++ bytesOf pieces) =
            r.taken ++ Bytes.take b r.wanted ++ bytesOf (leftOver b r.wanted pieces) := by
          rw [← bytesOf_leftOver b r.wanted pieces, ByteArray.append_assoc]
        have hexact : Reading.Exact ⟨r.taken ++ Bytes.take b r.wanted⟩ :=
          Reading.exact_append (by rw [Bytes.size_take]; omega) hr
        rw [readPieces_bytes fuel r hb pieces, bytesOf, ending, hbytes,
          ← ending_leftOver b r.wanted pieces, Reading.feed]
        -- either the piece was not enough, or the frame is settled and stands at the front
        by_cases hnext : Reading.Underway ⟨r.taken ++ Bytes.take b r.wanted⟩
        · rw [Reading.progress_eq_more hnext]
          exact ih hnext (roundsFor_leftOver hnext hfuel)
        · obtain ⟨hdone, hafter⟩ := firstOf_of_settled (ending (leftOver b r.wanted pieces))
            hnext hexact (bytesOf (leftOver b r.wanted pieces))
          rw [hdone]
          dsimp only
          exact ⟨rfl, fun f hf => ⟨(hafter f hf).symm, rfl⟩⟩

theorem size_bytesOf_le (pieces : List Piece) : (bytesOf pieces).size ≤ streamSize pieces := by
  induction pieces with
  | nil => exact Nat.zero_le _
  | cons p pieces ih =>
    cases p with
    | bytes b =>
      rw [bytesOf, ByteArray.size_append, streamSize]
      exact Nat.add_le_add_left ih _
    | failure text => exact Nat.zero_le _

/-- More rounds than bytes see every frame. -/
theorem readUpTo_eq_framesOf {fuel : ℕ} {pieces : List Piece}
    (hfuel : (bytesOf pieces).size < fuel) :
    readUpTo fuel pieces = framesOf (ending pieces) (bytesOf pieces) := by
  induction fuel generalizing pieces with
  | zero => exact absurd hfuel (Nat.not_lt_zero _)
  | succ fuel ih =>
    have hrounds : roundsFor {} pieces ≤ pieces.length + 2 := by
      rw [roundsFor]
      split_ifs <;> omega
    obtain ⟨hfirst, hrest⟩ := readPieces_eq_firstOf Reading.underway_empty hrounds
    rw [show ({} : Reading).taken ++ bytesOf pieces = bytesOf pieces from
      ByteArray.empty_append] at hfirst hrest
    rw [readUpTo, framesOf_eq, ← hfirst, next]
    rcases hn : readPieces (pieces.length + 2) {} pieces with ⟨_ | _ | f, left⟩
    · rfl
    · rfl
    · rw [hn] at hfirst hrest
      obtain ⟨hbytes, hend⟩ := hrest f rfl
      -- a frame takes at least a byte, so the rounds left are enough for the bytes left
      have hlt := size_firstOf_lt hfirst.symm
      rw [← hbytes] at hlt
      have hleft : (bytesOf left).size < fuel := Nat.lt_of_lt_of_le hlt (Nat.le_of_lt_succ hfuel)
      dsimp only at hbytes hend ⊢
      rw [ih hleft, hend, hbytes]

/-- **The frames of a stream are those of its bytes.** Where one piece ends and the next
begins does not show in them. -/
theorem readAll_eq_framesOf (pieces : List Piece) :
    readAll pieces = framesOf (ending pieces) (bytesOf pieces) :=
  readUpTo_eq_framesOf (Nat.lt_succ_of_le (size_bytesOf_le pieces))

end Vault.Frame
