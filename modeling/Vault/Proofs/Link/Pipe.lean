import Vault.Proofs.Frame.Stream

/-!
# A frame on its way through a pipe

Of a frame that crosses a pipe there are three parts: the bytes that the reader has taken,
those in the pipe, and those that the writer has left. Every try moves bytes from one part
to the next and none is lost, so together they stay the frame
(`Vault.Pipe.write_cases`, `Vault.Pipe.read_partial`). Once the writer has nothing left, one
more try of the reader ends with the frame, and what was written behind it stays in the pipe
(`Vault.Pipe.read_whole`).

A try of the reader goes in rounds, because a frame wants its length first and its body
afterwards; that it comes to the same as looking at all bytes at once is
`Vault.Pipe.readOn_spec`.
-/

open Vault.Frame (Reading Ending)

namespace Vault

namespace Frame.Reading

/-- The front of a frame on its way is on its way. -/
theorem Underway.of_append {a b : Bytes} (h : Underway ⟨a ++ b⟩) : Underway ⟨a⟩ := by
  by_cases h4 : a.size < lengthBytes
  · exact Or.inl h4
  · have hann : announced ⟨a ++ b⟩ = announced ⟨a⟩ :=
      announced_append (r := ⟨a⟩) (Nat.le_of_not_lt h4) b
    rw [Underway, hann, ByteArray.size_append] at h
    refine Or.inr ?_
    dsimp only
    omega

end Frame.Reading

namespace Pipe

variable {p : Pipe} {r : Reading}

/-- The pipe with other bytes in it. -/
def holding (p : Pipe) (b : Bytes) : Pipe := { p with buffered := b }

@[simp] theorem buffered_holding (p : Pipe) (b : Bytes) : (p.holding b).buffered = b := rfl

@[simp] theorem holding_buffered (p : Pipe) : p.holding p.buffered = p := rfl

/-! ### Reading -/

/-- A round that leaves the frame on its way. -/
theorem readOn_more {fuel : ℕ} {r' : Reading} (hsome : p.buffered.size ≠ 0)
    (h : r.feed (Bytes.take p.buffered r.wanted) = .more r') :
    readOn (fuel + 1) p r = readOn fuel (p.holding (Bytes.drop p.buffered r.wanted)) r' := by
  rw [readOn, if_neg hsome]
  simp only [h]
  rfl

/-- A round that settles the frame. -/
theorem readOn_done {fuel : ℕ} {result : Except LinkError (Option Frame)}
    (hsome : p.buffered.size ≠ 0)
    (h : r.feed (Bytes.take p.buffered r.wanted) = .done result) :
    readOn (fuel + 1) p r = (p.holding (Bytes.drop p.buffered r.wanted), .ready result) := by
  rw [readOn, if_neg hsome]
  simp only [h]
  rfl

/-- **Reading on**, for as many rounds as may be needed: one to see that the pipe is empty, one
more for the body, and one more for the length. While the frame is on its way all bytes are
taken; once it is settled, those behind it are left, and no more are taken than settle it. -/
theorem readOn_spec (e : Ending) {fuel : ℕ} (hr : r.Underway)
    (hfuel : 3 ≤ fuel ∨ Frame.lengthBytes ≤ r.taken.size ∧ 2 ≤ fuel ∨
      p.buffered.size = 0 ∧ 1 ≤ fuel) :
    (Reading.Underway ⟨r.taken ++ p.buffered⟩ → readOn fuel p r =
      (p.holding ByteArray.empty, if p.closed then .ready (Reading.atEnd ⟨r.taken ++ p.buffered⟩)
        else .waiting ⟨r.taken ++ p.buffered⟩)) ∧
    (¬Reading.Underway ⟨r.taken ++ p.buffered⟩ → ∃ front rest,
      r.taken ++ p.buffered = front ++ rest ∧ ¬Reading.Underway ⟨front⟩ ∧
      Reading.Exact ⟨front⟩ ∧ readOn fuel p r =
        (p.holding rest, .ready (Frame.firstOf e (r.taken ++ p.buffered)).1)) := by
  induction fuel generalizing p r with
  | zero => omega
  | succ fuel ih =>
    by_cases hempty : p.buffered.size = 0
    · have hnone := ByteArray.size_eq_zero_iff.mp hempty
      rw [hnone, ByteArray.append_empty]
      refine ⟨fun _ => ?_, fun hc => absurd hr hc⟩
      rw [readOn, if_pos hempty, holding, ← hnone]
      split_ifs <;> rfl
    have hsplit := Bytes.take_append_drop p.buffered r.wanted
    have hfront : (Bytes.take p.buffered r.wanted).size ≤ r.wanted := by
      rw [Bytes.size_take]
      exact Nat.min_le_left _ _
    have htogether : r.taken ++ p.buffered =
        r.taken ++ Bytes.take p.buffered r.wanted ++ Bytes.drop p.buffered r.wanted := by
      rw [ByteArray.append_assoc, hsplit]
    by_cases hmore : Reading.Underway ⟨r.taken ++ Bytes.take p.buffered r.wanted⟩
    · -- this part of the frame is taken, and the next one is up
      rw [readOn_more hempty (Reading.progress_eq_more hmore), htogether]
      refine ih (p := p.holding (Bytes.drop p.buffered r.wanted)) hmore ?_
      by_cases hall : (Bytes.drop p.buffered r.wanted).size = 0
      · refine Or.inr (Or.inr ⟨hall, ?_⟩)
        omega
      · have hwanted : (Bytes.take p.buffered r.wanted).size = r.wanted := by
          rw [Bytes.size_drop] at hall
          rw [Bytes.size_take]
          omega
        obtain ⟨hshort, hlong⟩ := Reading.size_append_of_wanted hwanted hmore
        refine Or.inr (Or.inl ⟨hlong, ?_⟩)
        omega
    · have hexact := Reading.exact_append hfront hr
      obtain ⟨hdone, -⟩ :=
        Frame.firstOf_of_settled e hmore hexact (Bytes.drop p.buffered r.wanted)
      rw [readOn_done hempty hdone, htogether]
      exact ⟨fun hc => absurd hc.of_append hmore, fun _ => ⟨_, _, rfl, hmore, hexact, rfl⟩⟩

variable {f : Frame} {rest tail : Bytes}

/-- The front of a frame that is not too long is on its way. -/
theorem underway_of_append_eq (hf : f.Fits) (h : r.taken ++ rest = f.onWire)
    (hrest : rest.size ≠ 0) : r.Underway := by
  have hsize : r.taken.size + rest.size = f.onWire.size := by rw [← h, ByteArray.size_append]
  have htake : Bytes.take f.onWire r.taken.size = r.taken := by
    apply Bytes.ext_octets
    rw [← h, Bytes.octets_take, Bytes.octets_append]
    exact List.take_left' (Bytes.length_octets _)
  have hway := Frame.underway_onWire hf (j := r.taken.size) (by omega)
  rwa [htake] at hway

/-- **Part of a frame** is taken, all that there is of it. -/
theorem read_partial (hf : f.Fits) (h : r.taken ++ p.buffered ++ rest = f.onWire)
    (hrest : rest.size ≠ 0) (hopen : p.closed = false) :
    p.read r = (p.holding ByteArray.empty, .waiting ⟨r.taken ++ p.buffered⟩) := by
  have hway : Reading.Underway ⟨r.taken ++ p.buffered⟩ := underway_of_append_eq hf h hrest
  rw [read, (readOn_spec .eof hway.of_append (Or.inl (Nat.le_refl 3))).1 hway, hopen]
  rfl

/-- **The rest of a frame** is taken, and what stands behind it stays. -/
theorem read_whole (hf : f.Fits) (h : r.taken ++ p.buffered = f.onWire ++ tail)
    (hr : r.taken.size < f.onWire.size) :
    p.read r = (p.holding tail, .ready (.ok (some f))) := by
  have hfirst := Frame.firstOf_onWire .eof hf tail
  have hmine : ∃ rest, r.taken ++ rest = f.onWire ∧ rest.size ≠ 0 := by
    refine ⟨Bytes.drop f.onWire r.taken.size, ?_, by rw [Bytes.size_drop]; omega⟩
    have htake : Bytes.take f.onWire r.taken.size = r.taken := by
      have hoctets := congrArg (List.take r.taken.size) (congrArg Bytes.octets h)
      rw [Bytes.octets_append, Bytes.octets_append, List.take_left' (Bytes.length_octets _),
        List.take_append_of_le_length (by rw [Bytes.length_octets]; omega)] at hoctets
      apply Bytes.ext_octets
      rw [Bytes.octets_take, hoctets]
    rw [← htake, Bytes.size_take, Nat.min_eq_left (Nat.le_of_lt hr), Bytes.take_append_drop]
  obtain ⟨rest, hrest, hne⟩ := hmine
  have hway : r.Underway := underway_of_append_eq hf hrest hne
  have hsettled : ¬Reading.Underway ⟨r.taken ++ p.buffered⟩ := by
    intro hc
    have hstop := Frame.firstOf_of_underway .eof hc
    rw [h, hfirst] at hstop
    exact Ending.stop_ne_some .eof _ f hstop.symm
  obtain ⟨front, left, hsplit, hdone, hexact, hread⟩ :=
    (readOn_spec .eof hway (Or.inl (Nat.le_refl 3))).2 hsettled
  obtain ⟨-, hafter⟩ := Frame.firstOf_of_settled .eof hdone hexact left
  dsimp only at hafter
  rw [← hsplit, h, hfirst] at hafter
  rw [h, hfirst] at hread
  obtain rfl : tail = left := hafter f rfl
  exact hread

/-! ### Writing -/

/-- Whatever comes of a try to write, what was in the pipe stays in front. -/
theorem exists_write (p : Pipe) (b : Bytes) :
    ∃ more, (p.write b).1 = p.holding (p.buffered ++ more) := by
  have hsame : p = p.holding (p.buffered ++ ByteArray.empty) := by
    rw [ByteArray.append_empty, holding_buffered]
  rw [write]
  split_ifs
  · exact ⟨_, hsame⟩
  · exact ⟨_, hsame⟩
  · dsimp only
    split_ifs <;> exact ⟨_, rfl⟩

/-- Bytes for which there is room are written in one go. -/
theorem write_whole {b : Bytes} (hb : b.size ≠ 0) (hopen : p.closed = false)
    (hroom : p.buffered.size + b.size ≤ p.capacity) :
    p.write b = (p.holding (p.buffered ++ b), .ready (.ok ())) := by
  have hnone : (Bytes.drop b (p.capacity - p.buffered.size)).size = 0 := by
    rw [Bytes.size_drop]
    omega
  have hall : Bytes.take b (p.capacity - p.buffered.size) = b := by
    have hsplit := Bytes.take_append_drop b (p.capacity - p.buffered.size)
    rwa [ByteArray.size_eq_zero_iff.mp hnone, ByteArray.append_empty] at hsplit
  have hclosed : ¬p.closed = true := by
    rw [hopen]
    exact Bool.false_ne_true
  rw [write, if_neg hb, if_neg hclosed]
  dsimp only
  rw [if_pos hnone, hall]
  rfl

/-- Of bytes for which there is not enough room, as many are written as there is room for. -/
theorem write_short {b : Bytes} (hb : b.size ≠ 0) (hopen : p.closed = false)
    (hfull : p.capacity < p.buffered.size + b.size) :
    p.write b = (p.holding (p.buffered ++ Bytes.take b (p.capacity - p.buffered.size)),
      .waiting (Bytes.drop b (p.capacity - p.buffered.size))) := by
  have hleft : (Bytes.drop b (p.capacity - p.buffered.size)).size ≠ 0 := by
    rw [Bytes.size_drop]
    omega
  have hclosed : ¬p.closed = true := by
    rw [hopen]
    exact Bool.false_ne_true
  rw [write, if_neg hb, if_neg hclosed]
  dsimp only
  rw [if_neg hleft]
  rfl

/-- **What a try to write can do**: all bytes are in the pipe, or some of them and the others
are left. With no room nothing changes, and with any room something does. -/
theorem write_cases {b : Bytes} (hb : b.size ≠ 0) (hopen : p.closed = false) :
    p.write b = (p.holding (p.buffered ++ b), .ready (.ok ())) ∨
      ∃ front left, front ++ left = b ∧ left.size ≠ 0 ∧
        p.write b = (p.holding (p.buffered ++ front), .waiting left) ∧
        (p.buffered.size < p.capacity → front.size ≠ 0) := by
  have hclosed : ¬p.closed = true := by
    rw [hopen]
    exact Bool.false_ne_true
  have hsplit := Bytes.take_append_drop b (p.capacity - p.buffered.size)
  rw [write, if_neg hb, if_neg hclosed]
  dsimp only
  split_ifs with hleft
  · refine Or.inl ?_
    rw [ByteArray.size_eq_zero_iff.mp hleft, ByteArray.append_empty] at hsplit
    rw [hsplit]
    rfl
  · refine Or.inr ⟨_, _, hsplit, hleft, rfl, fun hroom => ?_⟩
    rw [Bytes.size_take]
    omega

end Pipe

end Vault
