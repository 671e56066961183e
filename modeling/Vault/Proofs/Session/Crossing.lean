import Vault.Proofs.Session.Passage.Call

/-!
# One frame crosses a lane

A queue takes a frame in one go and a pipe takes it in portions, but to both ends a frame
that crosses a lane looks the same: the sender tries until it is through, the receiver waits,
and once the sender is through the receiver has the frame at its next try. This is
`Vault.Crossing`, with one lemma for a try of the sender and one for a try of the receiver;
what is built on it does not see what a lane is made of.

It also says how a frame gets across at all. Every try changes nothing or leaves less to do,
and as long as the sender is not through, a try of one of the two changes something
(`Vault.Crossing.moves`): a full pipe is emptied by the receiver, and one that is not full
takes a byte from the sender.
-/

namespace Vault

open Duplex (Idle pending)

/-- A lane on which nothing is under way and that has room. -/
def Lane.Fresh : Lane → Prop
  | .queue q => q = {}
  | .pipe p => Idle p ∧ 0 < p.capacity

/-- **A frame on its way over a lane.** While it is being sent, the sender has kept `rest` of
it; when it has left, the sender has nothing. The receiver has taken what it is reading. -/
inductive Crossing (f : Frame) : Option (Option Bytes) → Lane → Frame.Reading → Prop
  /-- It is to be put into a queue. -/
  | offered (r : Frame.Reading) : Crossing f (some none) (.queue {}) r
  /-- It is in the queue. -/
  | queued {q : Queue} (hq : q.frames = [f]) (r : Frame.Reading) : Crossing f none (.queue q) r
  /-- It is leaving through a pipe. -/
  | leaving {p : Pipe} {rest : Option Bytes} {b taken : Bytes} (hb : f.Leaves rest b)
    (hleft : b.size ≠ 0) (htogether : taken ++ p.buffered ++ b = f.onWire)
    (hopen : p.closed = false) (hroom : 0 < p.capacity) :
    Crossing f (some rest) (.pipe p) ⟨taken⟩
  /-- It has left, and the end of it is in the pipe. -/
  | left {p : Pipe} {taken : Bytes} (htogether : taken ++ p.buffered = f.onWire)
    (hshort : taken.size < f.onWire.size) : Crossing f none (.pipe p) ⟨taken⟩

namespace Crossing

variable {f : Frame} {lane : Lane} {rest : Option Bytes} {r : Frame.Reading}

theorem start (hf : f.Fits) (hlane : lane.Fresh) : Crossing f (some none) lane {} := by
  cases lane with
  | queue q =>
    obtain rfl : q = {} := hlane
    exact .offered {}
  | pipe p =>
    obtain ⟨⟨hempty, hopen⟩, hroom⟩ : Idle p ∧ 0 < p.capacity := hlane
    refine .leaving (Or.inr ⟨rfl, hf, rfl⟩) (Frame.size_onWire_pos f).ne' ?_ hopen hroom
    rw [ByteArray.size_eq_zero_iff.mp hempty, ByteArray.empty_append, ByteArray.empty_append]

/-- A frame that has left arrives even if the sender goes. -/
theorem dropSender (h : Crossing f none lane r) : Crossing f none lane.dropSender r := by
  cases h with
  | @queued q hq r => exact .queued (q := { q with senderGone := true }) hq r
  | @left p taken htogether hshort => exact .left (p := p.close) htogether hshort

/-- **A try of the sender** gets the frame through, or leaves less of it, or does nothing. -/
theorem send (h : Crossing f (some rest) lane r) :
    (∃ lane', lane.send f rest = (lane', .ready (.ok ())) ∧ Crossing f none lane' r ∧
      lane'.backlog < lane.backlog + 2 * pending f rest) ∨
    ∃ lane' rest', lane.send f rest = (lane', .waiting rest') ∧ Crossing f (some rest') lane' r ∧
      (lane' = lane ∧ rest' = rest ∨
        lane'.backlog + 2 * pending f rest' < lane.backlog + 2 * pending f rest) := by
  cases h with
  | offered r =>
    refine Or.inl ⟨.queue { frames := [f] }, rfl, .queued rfl r, ?_⟩
    have hpending : 0 < pending f none := Nat.succ_pos _
    change 1 < 0 + _
    omega
  | @leaving p rest b taken hb hleft htogether hopen hroom =>
    rcases Pipe.write_cases hleft hopen with hwrite | ⟨front, left, rfl, hne, hwrite, -⟩
    · have hsize := Duplex.size_le_pending hb
      refine Or.inl ⟨_, Link.send_pipe hb hwrite, .left ?_ ?_, ?_⟩
      · rw [Pipe.buffered_holding, ← ByteArray.append_assoc, htogether]
      · rw [← htogether, ByteArray.size_append, ByteArray.size_append]
        omega
      · change (p.buffered ++ b).size < p.buffered.size + _
        rw [ByteArray.size_append]
        omega
    · refine Or.inr ⟨_, _, Link.send_pipe hb hwrite, .leaving (Or.inl rfl) hne ?_ hopen hroom, ?_⟩
      · rw [Pipe.buffered_holding, ← htogether]
        simp only [ByteArray.append_assoc]
      · rcases Duplex.pending_part hb with ⟨rfl, rfl⟩ | hless
        · refine Or.inl ⟨?_, rfl⟩
          rw [ByteArray.append_empty, Pipe.holding_buffered]
        · refine Or.inr ?_
          change (p.buffered ++ front).size + _ < p.buffered.size + _
          rw [ByteArray.size_append]
          omega

/-- **A try of the receiver** before the sender is through takes what there is. -/
theorem receive_part (hf : f.Fits) (h : Crossing f (some rest) lane r) :
    ∃ lane' r', lane.receive r = (lane', .waiting r') ∧ Crossing f (some rest) lane' r' ∧
      (lane' = lane ∧ r' = r ∨ lane'.backlog < lane.backlog) := by
  cases h with
  | offered r => exact ⟨_, r, rfl, .offered r, Or.inl ⟨rfl, rfl⟩⟩
  | @leaving p rest b taken hb hleft htogether hopen hroom =>
    have hread := Pipe.read_partial (r := ⟨taken⟩) hf htogether hleft hopen
    refine ⟨_, _, Link.receive_pipe hread, .leaving hb hleft ?_ hopen hroom, ?_⟩
    · rw [Pipe.buffered_holding, ByteArray.append_empty, htogether]
    · rcases Duplex.emptied p taken with ⟨hpipe, htaken⟩ | hsome
      · refine Or.inl ⟨?_, ?_⟩
        · rw [hpipe]
        · rw [htaken]
      · exact Or.inr (Nat.pos_of_ne_zero hsome)

/-- **A try of the receiver** once the sender is through gets the frame. -/
theorem receive (hf : f.Fits) (h : Crossing f none lane r) :
    ∃ lane', lane.receive r = (lane', .ready (.ok (some f))) ∧ lane'.backlog ≤ lane.backlog := by
  cases h with
  | @queued q hq r =>
    obtain ⟨frames, senderGone, receiverGone⟩ := q
    obtain rfl : frames = [f] := hq
    exact ⟨.queue ⟨[], senderGone, receiverGone⟩, rfl, Nat.zero_le _⟩
  | @left p taken htogether hshort =>
    have hread : p.read ⟨taken⟩ = (p.holding ByteArray.empty, .ready (.ok (some f))) :=
      Pipe.read_whole hf (by rw [htogether, ByteArray.append_empty]) hshort
    exact ⟨_, Link.receive_pipe hread, Nat.zero_le _⟩

/-- **Where the receiver finds nothing, the sender can go on.** -/
theorem moves (hf : f.Fits) (h : Crossing f (some rest) lane r)
    (hreceive : lane.receive r = (lane, .waiting r)) :
    lane.send f rest ≠ (lane, .waiting rest) := by
  intro hsend
  cases h with
  | offered r => cases congrArg Prod.snd hsend
  | @leaving p rest b taken hb hleft htogether hopen hroom =>
    -- the receiver has emptied the pipe, so that there is room in it
    have hread := Link.receive_pipe (Pipe.read_partial (r := ⟨taken⟩) hf htogether hleft hopen)
    have hempty := congrArg (fun x => x.1.backlog) (hread.symm.trans hreceive)
    change 0 = p.buffered.size at hempty
    rcases Pipe.write_cases hleft hopen with hwrite | ⟨front, left, rfl, hne, hwrite, hmoved⟩
    · cases congrArg Prod.snd ((Link.send_pipe hb hwrite).symm.trans hsend)
    · have hfull := congrArg (fun x => x.1.backlog) ((Link.send_pipe hb hwrite).symm.trans hsend)
      change (p.buffered ++ front).size = p.buffered.size at hfull
      have hfront := hmoved (by omega)
      rw [ByteArray.size_append] at hfull
      omega

end Crossing

/-- On a fresh lane there is nothing to receive. -/
theorem Lane.Fresh.receive {lane : Lane} (h : lane.Fresh) :
    lane.receive {} = (lane, .waiting {}) := by
  cases lane with
  | queue q =>
    obtain rfl : q = {} := h
    rfl
  | pipe p => exact Link.receive_pipe (Duplex.read_idle h.1)

/-! ### The lanes of a link -/

namespace Link

variable {forth back lane : Lane} {f : Frame} {rest : Option Bytes} {said : Bool}

theorem send_left_lane {x : Poll (Option Bytes) (Except LinkError Unit)}
    (h : forth.send f rest = (lane, x)) :
    send ⟨forth, back, false, said⟩ .left f rest = (⟨lane, back, false, said⟩, x) := by
  simp only [send, done, outOf, h]
  rfl

theorem send_right_lane {x : Poll (Option Bytes) (Except LinkError Unit)}
    (h : back.send f rest = (lane, x)) :
    send ⟨forth, back, false, false⟩ .right f rest = (⟨forth, lane, false, false⟩, x) := by
  simp only [send, done, outOf, h]
  rfl

theorem receive_right_lane {r : Frame.Reading}
    {x : Poll Frame.Reading (Except LinkError (Option Frame))} (h : forth.receive r = (lane, x)) :
    receive ⟨forth, back, false, said⟩ .right r = (⟨lane, back, false, said⟩, x) := by
  simp only [receive, into, outOf, Side.other, h]
  rfl

theorem receive_left_lane {r : Frame.Reading}
    {x : Poll Frame.Reading (Except LinkError (Option Frame))} (h : back.receive r = (lane, x)) :
    receive ⟨forth, back, false, said⟩ .left r = (⟨forth, lane, false, said⟩, x) := by
  simp only [receive, into, outOf, Side.other, h]
  rfl

end Link

end Vault
