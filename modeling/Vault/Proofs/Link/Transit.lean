import Vault.Proofs.Session.Crossing

/-!
# Frames on their way over a lane

`Vault.Crossing` follows one frame over a lane on which there is nothing else. A sender that
does not wait for its receiver puts frame behind frame, and then a pipe holds the end of one
frame, some whole ones and the front of the last. `Vault.Transit` says what is on its way all
the same in terms of frames: those that were sent and have not been received, and the one that
the sender has begun. With that a try of the sender adds a frame at the back
(`Vault.Transit.send`), a try of the receiver takes one from the front
(`Vault.Transit.receive`), and what is built on it does not see what a lane is made of.

Two things can only be said of a lane that has room. A frame goes in one try where all that is
on its way fits together (`Vault.Transit.send_holds`), and a receiver that finds nothing leaves
room for its sender: this is the last part of `Vault.Transit.send`.

A sender that goes away in the middle of a frame leaves it cut off. All frames before it still
arrive, and then the receiver finds the stream at its end or broken
(`Vault.Transit.receive_cut`).
-/

open Vault.Frame (Reading)

namespace Vault

open Duplex (pending)
open Cbor (concat)

/-! ### Makes of lanes -/

/-- What the lanes of a link are made of. -/
inductive Make where
  /-- Whole frames are put into a queue. -/
  | queue
  /-- Bytes are written into a pipe that holds this many of them. -/
  | pipe (capacity : ℕ)

namespace Make

/-- A new lane. -/
def lane : Make → Lane
  | queue => .queue {}
  | pipe capacity => .pipe { capacity }

/-- A new link: `Vault.Link.inMemory` or `Vault.Link.framed`. -/
def link (make : Make) : Link :=
  ⟨make.lane, make.lane, false, false⟩

/-- A frame that can be sent at all: a pipe takes none that is too long. -/
def Takes : Make → Frame → Prop
  | queue, _ => True
  | pipe _, f => f.Fits

/-- These frames can be on their way all at once. -/
def Holds : Make → List Frame → Prop
  | queue, frames => frames.length ≤ Queue.capacity
  | pipe capacity, frames => (concat (frames.map Frame.onWire)).size ≤ capacity

/-- Something can be on its way. -/
def HasRoom : Make → Prop
  | queue => True
  | pipe capacity => 0 < capacity

theorem takes_of_fits {make : Make} {f : Frame} (hf : f.Fits) : make.Takes f := by
  cases make with
  | queue => trivial
  | pipe capacity => exact hf

end Make

namespace Frame

/-- What has been written of the frame that a sender has begun, of which it has kept the rest. -/
def Front : Option (Frame × Bytes) → Bytes → Prop
  | none, front => front = ByteArray.empty
  | some (f, b), front => f.Fits ∧ b.size ≠ 0 ∧ front ++ b = f.onWire

/-- There is always something left to write. -/
theorem Front.leaves {f : Frame} {rest : Option Bytes} {front : Bytes} (hf : f.Fits)
    (h : Front (rest.map (Prod.mk f)) front) :
    ∃ b, f.Leaves rest b ∧ b.size ≠ 0 ∧ front ++ b = f.onWire := by
  cases rest with
  | none =>
    obtain rfl : front = ByteArray.empty := h
    exact ⟨f.onWire, Or.inr ⟨rfl, hf, rfl⟩, f.size_onWire_pos.ne', ByteArray.empty_append⟩
  | some b => exact ⟨b, Or.inl rfl, h.2.1, h.2.2⟩

theorem concat_onWire (frames : List Frame) (f : Frame) :
    concat ((frames ++ [f]).map onWire) = concat (frames.map onWire) ++ f.onWire := by
  induction frames with
  | nil =>
    rw [List.nil_append, List.map_cons, List.map_nil, Cbor.concat_cons, Cbor.concat_nil]
    exact ByteArray.append_empty.trans ByteArray.empty_append.symm
  | cons g frames ih =>
    rw [List.cons_append, List.map_cons, Cbor.concat_cons, ih, List.map_cons, Cbor.concat_cons,
      ByteArray.append_assoc]

end Frame

open Vault.Frame (Front)

/-! ### Frames in transit -/

/-- **Frames on their way over a lane.** The frames have been sent and not received; of one
more the sender has begun to write, and kept the rest of it. The receiver has taken what it is
reading, which is less than a frame. Once the lane is at its end nothing more is sent. -/
inductive Transit : Make → List Frame → Option (Frame × Bytes) → Bool → Lane → Reading → Prop
  /-- In a queue frames are whole. -/
  | queue (frames : List Frame) (ended : Bool) (r : Reading) :
    Transit .queue frames none ended (.queue { frames, senderGone := ended }) r
  /-- In a pipe what is taken and what is buffered are the frames and the front of one more. -/
  | pipe {frames : List Frame} {begun : Option (Frame × Bytes)} {ended : Bool} {p : Pipe}
    (taken front : Bytes) (hfits : ∀ f ∈ frames, f.Fits) (hfront : Front begun front)
    (htogether : taken ++ p.buffered = concat (frames.map Frame.onWire) ++ front)
    (hshort : ∀ f ∈ frames.head?, taken.size < f.onWire.size) (hclosed : p.closed = ended) :
    Transit (.pipe p.capacity) frames begun ended (.pipe p) ⟨taken⟩

namespace Transit

variable {make : Make} {f : Frame} {frames : List Frame} {rest : Option Bytes}
  {begun : Option (Frame × Bytes)} {ended : Bool} {lane : Lane} {r : Reading}

/-- Nothing is on its way over a new lane. -/
theorem start (make : Make) : Transit make [] none false make.lane {} := by
  cases make with
  | queue => exact .queue [] false {}
  | pipe capacity =>
    refine .pipe (p := { capacity }) ByteArray.empty ByteArray.empty ?_ rfl rfl ?_ rfl
    · rintro f ⟨⟩
    · rintro f ⟨⟩

/-- What has been sent arrives even if the sender goes. -/
theorem dropSender (h : Transit make frames begun ended lane r) :
    Transit make frames begun true lane.dropSender r := by
  cases h with
  | queue frames ended r => exact .queue frames true r
  | @pipe _ _ _ p taken front hfits hfront htogether hshort hclosed =>
    exact .pipe (p := p.close) taken front hfits hfront htogether hshort rfl

/-- Where nothing is on its way, nothing is in the lane. -/
theorem backlog_nil (h : Transit make [] none ended lane r) : lane.backlog = 0 := by
  cases h with
  | queue frames ended r => rfl
  | @pipe _ _ _ p taken front hfits hfront htogether hshort hclosed =>
    obtain rfl : front = ByteArray.empty := hfront
    have hsize := congrArg ByteArray.size htogether
    rw [List.map_nil, Cbor.concat_nil, ByteArray.append_empty, ByteArray.size_append,
      ByteArray.size_empty] at hsize
    change p.buffered.size = 0
    omega

/-! ### Sending -/

/-- **A try of the sender** gets the frame through, or leaves less of it to be written, or does
nothing, which happens only where something is in the lane. -/
theorem send (hf : make.Takes f)
    (h : Transit make frames (rest.map (Prod.mk f)) false lane r) :
    (∃ lane', lane.send f rest = (lane', .ready (.ok ())) ∧
      Transit make (frames ++ [f]) none false lane' r ∧
      lane'.backlog < lane.backlog + 2 * pending f rest) ∨
    ∃ lane' rest', lane.send f rest = (lane', .waiting rest') ∧
      Transit make frames (rest'.map (Prod.mk f)) false lane' r ∧
      (lane' = lane ∧ rest' = rest ∧ (make.HasRoom → 0 < lane.backlog) ∨
        lane'.backlog + 2 * pending f rest' < lane.backlog + 2 * pending f rest) := by
  generalize hbegun : rest.map (Prod.mk f) = begun at h
  cases h with
  | queue frames ended r =>
    obtain rfl : rest = none := Option.map_eq_none_iff.mp hbegun
    have hpending : 0 < pending f none := Nat.succ_pos _
    by_cases hroom : frames.length < Queue.capacity
    · refine Or.inl ⟨.queue { frames := frames ++ [f] }, ?_, .queue _ _ _, ?_⟩
      · simp only [Lane.send, Queue.offer, hroom, Bool.false_eq_true, or_self, if_true, if_false]
      · change (frames ++ [f]).length < frames.length + _
        rw [List.length_append, List.length_singleton]
        omega
    · refine Or.inr ⟨.queue { frames }, none, ?_, .queue _ _ _, Or.inl ⟨rfl, rfl, fun _ => ?_⟩⟩
      · simp only [Lane.send, Queue.offer, hroom, Bool.false_eq_true, or_self, if_false]
      · -- a queue that is full is not empty
        have hcapacity : Queue.capacity = 64 := rfl
        change 0 < frames.length
        omega
  | @pipe _ _ _ p taken front hfits hfront htogether hshort hclosed =>
    subst hbegun
    obtain ⟨b, hb, hleft, hwire⟩ := hfront.leaves hf
    have hall : ∀ g ∈ frames ++ [f], g.Fits := by
      intro g hg
      rcases List.mem_append.mp hg with hg | hg
      · exact hfits g hg
      · rwa [List.mem_singleton.mp hg]
    rcases Pipe.write_cases hleft hclosed with hwrite | ⟨part, left, rfl, hne, hwrite, hmoved⟩
    · -- the frame is whole, and what was taken is still less than the first frame
      have hsize := Duplex.size_le_pending hb
      refine Or.inl ⟨_, Link.send_pipe hb hwrite, ?_, ?_⟩
      · refine .pipe (p := p.holding (p.buffered ++ b)) taken ByteArray.empty hall rfl ?_ ?_ hclosed
        · rw [Pipe.buffered_holding, ← ByteArray.append_assoc, htogether, Frame.concat_onWire,
            ← hwire, ByteArray.append_empty, ByteArray.append_assoc]
        · intro g hg
          cases frames with
          | cons f' frames => exact hshort g hg
          | nil =>
            obtain rfl : f = g := Option.some.inj hg
            have htaken := congrArg ByteArray.size htogether
            rw [List.map_nil, Cbor.concat_nil, ByteArray.empty_append, ByteArray.size_append]
              at htaken
            rw [← hwire, ByteArray.size_append]
            omega
      · change (p.buffered ++ b).size < p.buffered.size + _
        rw [ByteArray.size_append]
        omega
    · refine Or.inr ⟨_, _, Link.send_pipe hb hwrite, ?_, ?_⟩
      · refine .pipe (p := p.holding (p.buffered ++ part)) taken (front ++ part) hfits
          ⟨hf, hne, by rw [ByteArray.append_assoc, hwire]⟩ ?_ hshort hclosed
        rw [Pipe.buffered_holding, ← ByteArray.append_assoc, htogether, ByteArray.append_assoc]
      · rcases Duplex.pending_part hb with ⟨rfl, rfl⟩ | hless
        · refine Or.inl ⟨?_, rfl, fun hroom : 0 < p.capacity => ?_⟩
          · rw [ByteArray.append_empty, Pipe.holding_buffered]
          · refine Nat.pos_of_ne_zero fun hempty : p.buffered.size = 0 => ?_
            exact hmoved (by omega) rfl
        · refine Or.inr ?_
          change (p.buffered ++ part).size + _ < p.buffered.size + _
          rw [ByteArray.size_append]
          omega

/-- **A frame goes in one try** where all that is on its way fits together. -/
theorem send_holds (hf : make.Takes f) (h : Transit make frames none false lane r)
    (hholds : make.Holds (frames ++ [f])) :
    ∃ lane', lane.send f none = (lane', .ready (.ok ())) ∧
      Transit make (frames ++ [f]) none false lane' r := by
  have hunbegun : Transit make frames (Option.map (Prod.mk f) none) false lane r := h
  rcases send hf hunbegun with ⟨lane', hsend, htransit, -⟩ | ⟨lane', rest', hsend, -, -⟩
  · exact ⟨lane', hsend, htransit⟩
  · -- the sender would wait although there is room for the whole frame
    exfalso
    cases h with
    | queue frames ended r =>
      have hroom : frames.length < Queue.capacity := by
        rw [Make.Holds, List.length_append, List.length_singleton] at hholds
        omega
      simp only [Lane.send, Queue.offer, hroom, Bool.false_eq_true, or_self, if_true, if_false]
        at hsend
      cases hsend
    | @pipe _ _ _ p taken front hfits hfront htogether hshort hclosed =>
      obtain rfl : front = ByteArray.empty := hfront
      have hsize := congrArg ByteArray.size htogether
      rw [ByteArray.append_empty, ByteArray.size_append] at hsize
      have hroom : p.buffered.size + f.onWire.size ≤ p.capacity := by
        rw [Make.Holds, Frame.concat_onWire, ByteArray.size_append] at hholds
        omega
      have hwrite := Pipe.write_whole f.size_onWire_pos.ne' hclosed hroom
      rw [Link.send_pipe (Or.inr ⟨rfl, hf, rfl⟩) hwrite] at hsend
      cases hsend

/-! ### Receiving -/

/-- **A try of the receiver** gets the first frame there is. -/
theorem receive (h : Transit make (f :: frames) begun ended lane r) :
    ∃ lane', lane.receive r = (lane', .ready (.ok (some f))) ∧
      Transit make frames begun ended lane' {} ∧ lane'.backlog < lane.backlog := by
  cases h with
  | queue all ended r =>
    exact ⟨.queue { frames, senderGone := ended }, rfl, .queue _ _ _, Nat.lt_succ_self _⟩
  | @pipe _ _ _ p taken front hfits hfront htogether hshort hclosed =>
    have hless := hshort f rfl
    have hwire : taken ++ p.buffered =
        f.onWire ++ (concat (frames.map Frame.onWire) ++ front) := by
      rw [htogether, List.map_cons, Cbor.concat_cons, ByteArray.append_assoc]
    have hread := Pipe.read_whole (r := ⟨taken⟩) (hfits f List.mem_cons_self) hwire hless
    refine ⟨_, Link.receive_pipe hread, ?_, ?_⟩
    · refine Transit.pipe (p := p.holding _) ByteArray.empty front
        (fun g hg => hfits g (List.mem_cons_of_mem f hg)) hfront ByteArray.empty_append ?_ hclosed
      intro g _
      exact g.size_onWire_pos
    · have hsize := congrArg ByteArray.size hwire
      rw [ByteArray.size_append, ByteArray.size_append] at hsize
      change (concat (frames.map Frame.onWire) ++ front).size < p.buffered.size
      omega

/-- **A try of the receiver** that finds no whole frame takes what there is. -/
theorem receive_part (h : Transit make [] begun false lane r) :
    ∃ lane' r', lane.receive r = (lane', .waiting r') ∧
      Transit make [] begun false lane' r' ∧ lane'.backlog = 0 ∧
      (lane' = lane ∧ r' = r ∨ lane'.backlog < lane.backlog) := by
  cases h with
  | queue frames ended r =>
    exact ⟨_, r, rfl, .queue _ _ _, rfl, Or.inl ⟨rfl, rfl⟩⟩
  | @pipe _ _ _ p taken front hfits hfront htogether hshort hclosed =>
    rw [List.map_nil, Cbor.concat_nil, ByteArray.empty_append] at htogether
    have hread : p.read ⟨taken⟩ = (p.holding ByteArray.empty, .waiting ⟨taken ++ p.buffered⟩) := by
      cases begun with
      | none =>
        -- nothing was begun, so nothing was taken and nothing is there
        have hsize := congrArg ByteArray.size (htogether.trans hfront)
        rw [ByteArray.size_append, ByteArray.size_empty] at hsize
        have htaken : taken = ByteArray.empty := ByteArray.size_eq_zero_iff.mp (by omega)
        have hempty : p.buffered = ByteArray.empty := ByteArray.size_eq_zero_iff.mp (by omega)
        have hsame : p.holding ByteArray.empty = p := by rw [← hempty, Pipe.holding_buffered]
        rw [hsame, htaken, hempty, ByteArray.append_empty]
        exact Duplex.read_idle ⟨by omega, hclosed⟩
      | some part =>
        obtain ⟨hf, hleft, hwire⟩ := hfront
        exact Pipe.read_partial hf (by rw [htogether, hwire]) hleft hclosed
    refine ⟨_, _, Link.receive_pipe hread, ?_, rfl, ?_⟩
    · refine .pipe (p := p.holding ByteArray.empty) _ front hfits hfront ?_
        (fun f hf => nomatch hf) hclosed
      rw [Pipe.buffered_holding, ByteArray.append_empty, htogether, List.map_nil, Cbor.concat_nil,
        ByteArray.empty_append]
    · rcases Duplex.emptied p taken with ⟨hpipe, htaken⟩ | hsome
      · refine Or.inl ⟨?_, ?_⟩
        · rw [hpipe]
        · rw [htaken]
      · exact Or.inr (Nat.pos_of_ne_zero hsome)

/-- At the end of a stream there is nothing more, as often as it is tried. -/
theorem receive_end (h : Transit make [] none true lane r) :
    lane.receive r = (lane, .ready (.ok none)) ∧ Transit make [] none true lane {} := by
  cases h with
  | queue frames ended r =>
    exact ⟨rfl, .queue _ _ _⟩
  | @pipe _ _ _ p taken front hfits hfront htogether hshort hclosed =>
    rw [List.map_nil, Cbor.concat_nil, ByteArray.empty_append] at htogether
    have hsize := congrArg ByteArray.size (htogether.trans hfront)
    rw [ByteArray.size_append, ByteArray.size_empty] at hsize
    obtain rfl : taken = ByteArray.empty := ByteArray.size_eq_zero_iff.mp (by omega)
    have hempty : p.buffered.size = 0 := by omega
    refine ⟨Link.receive_pipe ?_, ?_⟩
    · rw [Pipe.read, Pipe.readOn, if_pos hempty, hclosed]
      rfl
    · exact .pipe ByteArray.empty front hfits hfront
        (by rw [htogether, List.map_nil, Cbor.concat_nil, ByteArray.empty_append]) hshort hclosed

/-- **A stream that is cut off** in the middle of a frame is at its end, or broken. -/
theorem receive_cut (h : Transit make [] begun true lane r) :
    ∃ lane' x, lane.receive r = (lane', .ready x) ∧ Transit make [] none true lane' {} ∧
      (x = .ok none ∨ ∃ text, x = .error (.protocol text)) := by
  cases begun with
  | none => exact ⟨lane, _, (receive_end h).1, (receive_end h).2, Or.inl rfl⟩
  | some part =>
    cases h with
    | @pipe _ _ _ p taken front hfits hfront htogether hshort hclosed =>
      rw [List.map_nil, Cbor.concat_nil, ByteArray.empty_append] at htogether
      obtain ⟨hf, hleft, hwire⟩ := hfront
      have hway : Reading.Underway ⟨taken ++ p.buffered⟩ :=
        Pipe.underway_of_append_eq hf (by rw [htogether, hwire]) hleft
      have hread := (Pipe.readOn_spec (p := p) (r := ⟨taken⟩) .eof hway.of_append
        (Or.inl (Nat.le_refl 3))).1 hway
      rw [hclosed, if_pos rfl] at hread
      refine ⟨_, _, Link.receive_pipe hread, ?_, ?_⟩
      · exact .pipe (p := p.holding ByteArray.empty) ByteArray.empty ByteArray.empty hfits rfl rfl
          (fun f hf => nomatch hf) hclosed
      · rw [Reading.atEnd]
        split_ifs
        · exact Or.inl rfl
        · exact Or.inr ⟨_, rfl⟩
        · exact Or.inr ⟨_, rfl⟩

/-! ### A frame in two parts -/

/-- **A frame that is longer than a pipe** that is empty, but not longer than two of them, leaves
in two tries, if what there is of it is read in between. -/
theorem in_two_parts {capacity : ℕ} (hf : f.Fits) (hlong : capacity < f.onWire.size)
    (hshort : f.onWire.size ≤ 2 * capacity) : ∃ lane₁ lane₂ lane₃ rest r,
      (Make.pipe capacity).lane.send f none = (lane₁, .waiting (some rest)) ∧
      lane₁.receive {} = (lane₂, .waiting r) ∧
      lane₂.send f (some rest) = (lane₃, .ready (.ok ())) ∧
      Transit (.pipe capacity) [f] none false lane₃ r := by
  let front := Bytes.take f.onWire capacity
  let rest := Bytes.drop f.onWire capacity
  have hwire : front ++ rest = f.onWire := Bytes.take_append_drop f.onWire capacity
  have hfront : front.size = capacity := by
    rw [Bytes.size_take]
    omega
  have hrest : rest.size = f.onWire.size - capacity := Bytes.size_drop f.onWire capacity
  have hleft : rest.size ≠ 0 := by omega
  let p : Pipe := { capacity }
  have hbegins : p.write f.onWire = (p.holding (ByteArray.empty ++ front), .waiting rest) :=
    Pipe.write_short f.size_onWire_pos.ne' rfl (by change capacity < 0 + _; omega)
  have hreads : (p.holding (ByteArray.empty ++ front)).read {} =
      (p, .waiting ⟨ByteArray.empty ++ (ByteArray.empty ++ front)⟩) :=
    Pipe.read_partial hf (by simp only [Pipe.buffered_holding, ByteArray.empty_append, hwire])
      hleft rfl
  have hends : p.write rest = (p.holding (ByteArray.empty ++ rest), .ready (.ok ())) :=
    Pipe.write_whole hleft rfl (by change 0 + rest.size ≤ capacity; omega)
  refine ⟨_, _, _, _, _, Link.send_pipe (Or.inr ⟨rfl, hf, rfl⟩) hbegins, Link.receive_pipe hreads,
    Link.send_pipe (Or.inl rfl) hends, ?_⟩
  refine .pipe (p := p.holding (ByteArray.empty ++ rest)) _ ByteArray.empty ?_ rfl ?_ ?_ rfl
  · intro g hg
    rwa [List.mem_singleton.mp hg]
  · rw [Pipe.buffered_holding, List.map_singleton, Cbor.concat_cons, Cbor.concat_nil,
      ByteArray.append_empty, ByteArray.append_empty, ByteArray.empty_append,
      ByteArray.empty_append, ByteArray.empty_append, hwire]
  · intro g hg
    obtain rfl : f = g := Option.some.inj hg
    rw [ByteArray.empty_append, ByteArray.empty_append]
    omega

end Transit

end Vault
