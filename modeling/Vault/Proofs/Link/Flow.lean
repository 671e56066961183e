import Vault.Proofs.Link.Fifo
import Vault.Proofs.Link.Transit

/-!
# What flows out of an end of a link

An end of a link sends messages and finishes its stream. `Vault.Flow` says which of these
operations are on their way to the other end, over a link of any make: what `Vault.Transit` says
of the frames on a lane. One lemma says what a try of an operation does (`Vault.Flow.attempt`),
and the others say what a try to receive does: where something is on its way, where nothing is,
and where the stream is at its end or was cut off. What flows the other way is not touched by
any of them (`Vault.Link.Alike`).
-/

open Vault.Frame (Reading)

namespace Vault

open Duplex (pending)
open Fifo (Op)

/-! ### The lane out of an end -/

theorem Side.other_other (s : Side) : s.other.other = s := by
  cases s <;> rfl

@[simp] theorem Lane.backlog_dropSender (lane : Lane) : lane.dropSender.backlog = lane.backlog := by
  cases lane <;> rfl

namespace Link

variable (l : Link) (s : Side) (lane : Lane)

@[simp] theorem outOf_setOut : (l.setOut s lane).outOf s = lane := by
  cases s <;> rfl

@[simp] theorem done_setOut : (l.setOut s lane).done s = l.done s := by
  cases s <;> rfl

@[simp] theorem setOut_outOf : l.setOut s (l.outOf s) = l := by
  cases s <;> rfl

@[simp] theorem outOf_setDone : (l.setDone s).outOf s = (l.outOf s).dropSender := by
  cases s <;> rfl

@[simp] theorem done_setDone : (l.setDone s).done s = true := by
  cases s <;> rfl

@[simp] theorem outOf_setOut_other : (l.setOut s lane).outOf s.other = l.outOf s.other := by
  cases s <;> rfl

@[simp] theorem done_setOut_other : (l.setOut s lane).done s.other = l.done s.other := by
  cases s <;> rfl

@[simp] theorem outOf_setDone_other : (l.setDone s).outOf s.other = l.outOf s.other := by
  cases s <;> rfl

@[simp] theorem done_setDone_other : (l.setDone s).done s.other = l.done s.other := by
  cases s <;> rfl

/-- Two links that are alike in what goes out of an end. -/
def Alike (l l' : Link) (s : Side) : Prop := l'.outOf s = l.outOf s ∧ l'.done s = l.done s

variable {l s lane}

theorem alike_setOut : l.Alike (l.setOut s lane) s.other :=
  ⟨outOf_setOut_other l s lane, done_setOut_other l s lane⟩

theorem send_lane {f : Frame} {rest : Option Bytes}
    {x : Poll (Option Bytes) (Except LinkError Unit)} (hopen : l.done s = false)
    (h : (l.outOf s).send f rest = (lane, x)) :
    l.send s f rest = (l.setOut s lane, x) := by
  rw [send, hopen, if_neg Bool.false_ne_true, h]

theorem receive_lane {r : Reading} {x : Poll Reading (Except LinkError (Option Frame))}
    (h : (l.outOf s).receive r = (lane, x)) : l.receive s.other r = (l.setOut s lane, x) := by
  rw [receive, into, Side.other_other, h]

/-- A try to receive leaves what goes out of the receiver's end alone. -/
theorem alike_receive (r : Reading) : l.Alike (l.receive s r).1 s := by
  cases s <;> exact ⟨rfl, rfl⟩

end Link

/-! ### Operations at an end -/

namespace Fifo.Op

/-- The frame that an operation sends. -/
def frame : Op → Frame
  | send m => .message m
  | finish outcome => Link.closingFrame outcome

/-- Try an operation at an end of a link. -/
def attempt (op : Op) (l : Link) (s : Side) (rest : Option Bytes) :
    Link × Poll (Option Bytes) (Except LinkError Unit) :=
  match op with
  | send m => l.send s (.message m) rest
  | finish outcome => l.finish s outcome rest

/-- The link when the frame of an operation has left, through what is now this lane. -/
def left (op : Op) (l : Link) (s : Side) (lane : Lane) : Link :=
  match op with
  | send _ => l.setOut s lane
  | finish _ => (l.setOut s lane).setDone s

/-- What a frame says is what the queue gives. -/
theorem inbound_frame (op : Op) : Link.inbound (.ok (some op.frame)) = op.seen := by
  rcases op with m | (status | ⟨⟩) <;> rfl

section Attempt

variable {op : Op} {l : Link} {s : Side} {lane : Lane} {rest : Option Bytes}

/-- After the end an operation does nothing. -/
theorem attempt_late (h : l.done s = true) : op.attempt l s rest = (l, .ready op.late) := by
  cases op with
  | send m => rw [attempt, Link.send, if_pos h, late]
  | finish outcome => rw [attempt, Link.finish, if_pos h, late]

theorem attempt_ready (hopen : l.done s = false)
    (h : (l.outOf s).send op.frame rest = (lane, .ready (.ok ()))) :
    op.attempt l s rest = (op.left l s lane, .ready (.ok ())) := by
  cases op with
  | send m => exact Link.send_lane hopen h
  | finish outcome =>
    have hsend : l.send s (Link.closingFrame outcome) rest = _ := Link.send_lane hopen h
    simp only [attempt, Link.finish, hopen, Bool.false_eq_true, if_false, hsend]
    rfl

theorem attempt_waiting {rest' : Option Bytes} (hopen : l.done s = false)
    (h : (l.outOf s).send op.frame rest = (lane, .waiting rest')) :
    op.attempt l s rest = (l.setOut s lane, .waiting rest') := by
  cases op with
  | send m => exact Link.send_lane hopen h
  | finish outcome =>
    have hsend : l.send s (Link.closingFrame outcome) rest = _ := Link.send_lane hopen h
    simp only [attempt, Link.finish, hopen, Bool.false_eq_true, if_false, hsend]

theorem done_left (hopen : l.done s = false) : (op.left l s lane).done s = op.isFinish := by
  cases op with
  | send m => rw [left, Link.done_setOut, hopen, isFinish]
  | finish outcome => rw [left, Link.done_setDone, isFinish]

@[simp] theorem backlog_left : ((op.left l s lane).outOf s).backlog = lane.backlog := by
  cases op with
  | send m => rw [left, Link.outOf_setOut]
  | finish outcome => rw [left, Link.outOf_setDone, Link.outOf_setOut, Lane.backlog_dropSender]

/-- What goes out of the other end is as it was. -/
theorem alike_left : l.Alike (op.left l s lane) s.other := by
  cases op with
  | send m => exact Link.alike_setOut
  | finish outcome =>
    refine ⟨?_, ?_⟩
    · rw [left, Link.outOf_setDone_other, Link.outOf_setOut_other]
    · rw [left, Link.done_setDone_other, Link.done_setOut_other]

/-- A try of an operation leaves what goes out of the other end alone. -/
theorem alike_attempt : l.Alike (op.attempt l s rest).1 s.other := by
  have hsend (f : Frame) : l.Alike (l.send s f rest).1 s.other := by
    rw [Link.send]
    split_ifs
    · exact ⟨rfl, rfl⟩
    · exact Link.alike_setOut
  cases op with
  | send m => exact hsend (.message m)
  | finish outcome =>
    have hlast := hsend (Link.closingFrame outcome)
    have hdone {l' : Link} (ha : l.Alike l' s.other) : l.Alike (l'.setDone s) s.other :=
      ⟨(Link.outOf_setDone_other l' s).trans ha.1, (Link.done_setDone_other l' s).trans ha.2⟩
    rw [attempt, Link.finish]
    split_ifs
    · exact ⟨rfl, rfl⟩
    generalize l.send s (Link.closingFrame outcome) rest = sent at hlast ⊢
    rcases sent with ⟨l', (e | ⟨⟩) | rest'⟩
    · dsimp only
      split_ifs
      · exact hdone hlast
      · exact hlast
    · exact hdone hlast
    · exact hlast

theorem transit_left {make : Make} {frames : List Frame} {r : Reading}
    (h : Transit make frames none false lane r) :
    Transit make frames none op.isFinish ((op.left l s lane).outOf s) r := by
  cases op with
  | send m =>
    rw [left, Link.outOf_setOut]
    exact h
  | finish outcome =>
    rw [left, Link.outOf_setDone, Link.outOf_setOut]
    exact h.dropSender

end Attempt

end Fifo.Op

/-! ### Operations on their way -/

/-- **Operations on their way** out of an end: they were done and have not been received, and of
one more the frame has begun to leave. -/
def Flow (make : Make) (side : Side) (queue : List Op) (begun : Option (Frame × Bytes))
    (ended : Bool) (reading : Reading) (l : Link) : Prop :=
  Transit make (queue.map Op.frame) begun ended (l.outOf side) reading

namespace Flow

variable {make : Make} {side : Side} {queue : List Op} {begun : Option (Frame × Bytes)}
  {ended : Bool} {reading : Reading} {l l' : Link} {op : Op} {rest : Option Bytes}

/-- Nothing is on its way over a new link. -/
theorem start (make : Make) (side : Side) : Flow make side [] none false {} make.link := by
  have hlane : make.link.outOf side = make.lane := by
    cases side <;> rfl
  rw [Flow, hlane]
  exact Transit.start make

theorem alike (h : Flow make side queue begun ended reading l) (ha : l.Alike l' side) :
    Flow make side queue begun ended reading l' := by
  rw [Flow, ha.1]
  exact h

/-- **An operation is done**: its frame has left, and after a finish nothing more will. -/
theorem through (hopen : l.done side = false) {lane : Lane}
    (hsend : (l.outOf side).send op.frame rest = (lane, .ready (.ok ())))
    (htransit : Transit make (queue.map Op.frame ++ [op.frame]) none false lane reading) :
    op.attempt l side rest = (op.left l side lane, .ready (.ok ())) ∧
      Flow make side (queue ++ [op]) none op.isFinish reading (op.left l side lane) ∧
      (op.left l side lane).done side = op.isFinish := by
  refine ⟨Op.attempt_ready hopen hsend, ?_, Op.done_left hopen⟩
  rw [Flow, List.map_append]
  exact Op.transit_left htransit

/-- **A try of an operation**: it is done, or less of its frame is left, or nothing happens, for
want of room. -/
theorem attempt (hf : make.Takes op.frame) (hopen : l.done side = false)
    (h : Flow make side queue (rest.map (Prod.mk op.frame)) false reading l) :
    (∃ l', op.attempt l side rest = (l', .ready (.ok ())) ∧
      Flow make side (queue ++ [op]) none op.isFinish reading l' ∧
      l'.done side = op.isFinish ∧ l.Alike l' side.other ∧
      (l'.outOf side).backlog < (l.outOf side).backlog + 2 * pending op.frame rest) ∨
    ∃ l' rest', op.attempt l side rest = (l', .waiting rest') ∧
      Flow make side queue (rest'.map (Prod.mk op.frame)) false reading l' ∧
      l'.done side = false ∧ l.Alike l' side.other ∧
      (l' = l ∧ rest' = rest ∧ (make.HasRoom → 0 < (l.outOf side).backlog) ∨
        (l'.outOf side).backlog + 2 * pending op.frame rest' <
          (l.outOf side).backlog + 2 * pending op.frame rest) := by
  rcases h.send hf with ⟨lane, hsend, htransit, hless⟩ | ⟨lane, rest', hsend, htransit, hmoved⟩
  · obtain ⟨hattempt, hflow, hdone⟩ := through hopen hsend htransit
    refine Or.inl ⟨_, hattempt, hflow, hdone, Op.alike_left, ?_⟩
    rwa [Op.backlog_left]
  · refine Or.inr ⟨_, rest', Op.attempt_waiting hopen hsend, ?_, ?_, Link.alike_setOut, ?_⟩
    · rwa [Flow, Link.outOf_setOut]
    · rwa [Link.done_setOut]
    · rw [Link.outOf_setOut]
      rcases hmoved with ⟨rfl, rfl, hfull⟩ | hless
      · exact Or.inl ⟨Link.setOut_outOf l side, rfl, hfull⟩
      · exact Or.inr hless

/-- **A message that is too long** for the lane is not sent at all. -/
theorem attempt_long {m : Bytes} (hm : ¬make.Takes (.message m)) (hopen : l.done side = false)
    (h : Flow make side queue none false reading l) :
    (Op.send m).attempt l side none = (l, .ready (.error
      (.outboundTooLarge (Frame.message m).encodeBody.size Frame.maxLength))) := by
  have hlane : ∃ p, l.outOf side = .pipe p ∧ ¬(Frame.message m).Fits := by
    -- a queue takes any message, so the lane is a pipe
    rw [Flow] at h
    generalize l.outOf side = lane at h
    cases h with
    | queue => exact absurd trivial hm
    | @pipe _ _ _ p => exact ⟨p, rfl, hm⟩
  obtain ⟨p, hp, hlong⟩ := hlane
  have hsend : (l.outOf side).send (.message m) none = (l.outOf side, .ready (.error
      (.outboundTooLarge (Frame.message m).encodeBody.size Frame.maxLength))) := by
    rw [hp]
    exact Link.send_pipe_long hlong
  rw [Op.attempt, Link.send_lane hopen hsend, Link.setOut_outOf]

/-- **An operation is done in one try** where all that is on its way fits together. -/
theorem attempt_holds (hf : make.Takes op.frame) (hopen : l.done side = false)
    (h : Flow make side queue none false reading l)
    (hholds : make.Holds ((queue ++ [op]).map Op.frame)) :
    ∃ l', op.attempt l side none = (l', .ready (.ok ())) ∧
      Flow make side (queue ++ [op]) none op.isFinish reading l' ∧ l'.done side = op.isFinish ∧
      l.Alike l' side.other := by
  rw [List.map_append] at hholds
  obtain ⟨lane, hsend, htransit⟩ := h.send_holds hf hholds
  obtain ⟨hattempt, hflow, hdone⟩ := through hopen hsend htransit
  exact ⟨_, hattempt, hflow, hdone, Op.alike_left⟩

/-- **An operation is done in two tries** over a pipe that is too short for its frame, if what
there is of it is read in between. -/
theorem attempt_in_two {capacity : ℕ} (hf : op.frame.Fits)
    (hlong : capacity < op.frame.onWire.size) (hshort : op.frame.onWire.size ≤ 2 * capacity)
    (hopen : l.done side = false) (hlane : l.outOf side = (Make.pipe capacity).lane) :
    ∃ l₁ l₂ l₃ rest r, op.attempt l side none = (l₁, .waiting (some rest)) ∧
      l₁.receive side.other {} = (l₂, .waiting r) ∧
      op.attempt l₂ side (some rest) = (l₃, .ready (.ok ())) ∧
      Flow (.pipe capacity) side [op] none op.isFinish r l₃ ∧ l₃.done side = op.isFinish := by
  obtain ⟨lane₁, lane₂, lane₃, rest, r, hbegins, hreads, hends, htransit⟩ :=
    Transit.in_two_parts hf hlong hshort
  rw [← hlane] at hbegins
  have hreads' : ((l.setOut side lane₁).outOf side).receive {} = (lane₂, .waiting r) := by
    rwa [Link.outOf_setOut]
  have hopen' : ((l.setOut side lane₁).setOut side lane₂).done side = false := by
    rwa [Link.done_setOut, Link.done_setOut]
  have hends' : (((l.setOut side lane₁).setOut side lane₂).outOf side).send op.frame
      (some rest) = (lane₃, .ready (.ok ())) := by
    rwa [Link.outOf_setOut]
  have hfirst : Transit (.pipe capacity) (([] : List Op).map Op.frame ++ [op.frame]) none false
    lane₃ r := htransit
  obtain ⟨hattempt, hflow, hdone⟩ := through hopen' hends' hfirst
  exact ⟨_, _, _, rest, r, Op.attempt_waiting hopen hbegins, Link.receive_lane hreads', hattempt,
    hflow, hdone⟩

/-! ### The other end -/

/-- The first of what is on its way is received. -/
theorem receive (h : Flow make side (op :: queue) begun ended reading l) :
    ∃ l', l.receive side.other reading = (l', .ready (.ok (some op.frame))) ∧
      Flow make side queue begun ended {} l' ∧ l'.done side = l.done side ∧
      l.Alike l' side.other ∧ (l'.outOf side).backlog < (l.outOf side).backlog := by
  obtain ⟨lane, hreceive, htransit, hless⟩ := Transit.receive h
  refine ⟨_, Link.receive_lane hreceive, ?_, Link.done_setOut l side lane, Link.alike_setOut, ?_⟩
  · rwa [Flow, Link.outOf_setOut]
  · rwa [Link.outOf_setOut]

/-- Where nothing is whole, what there is of a frame is taken. -/
theorem receive_nil (h : Flow make side [] begun false reading l) :
    ∃ l' reading', l.receive side.other reading = (l', .waiting reading') ∧
      Flow make side [] begun false reading' l' ∧ l'.done side = l.done side ∧
      l.Alike l' side.other ∧
      (l' = l ∧ reading' = reading ∧ (l.outOf side).backlog = 0 ∨
        (l'.outOf side).backlog < (l.outOf side).backlog) := by
  obtain ⟨lane, reading', hreceive, htransit, hempty, hmoved⟩ := Transit.receive_part h
  refine ⟨_, reading', Link.receive_lane hreceive, ?_, Link.done_setOut l side lane,
    Link.alike_setOut, ?_⟩
  · rwa [Flow, Link.outOf_setOut]
  · rw [Link.outOf_setOut]
    rcases hmoved with ⟨rfl, rfl⟩ | hless
    · exact Or.inl ⟨Link.setOut_outOf l side, rfl, hempty⟩
    · exact Or.inr hless

/-- At the end of the stream there is nothing more to receive. -/
theorem receive_end (h : Flow make side [] none true reading l) :
    l.receive side.other reading = (l, .ready (.ok none)) ∧ Flow make side [] none true {} l := by
  obtain ⟨hreceive, htransit⟩ := Transit.receive_end h
  refine ⟨?_, htransit⟩
  rw [Link.receive_lane hreceive, Link.setOut_outOf]

/-- Nor is there where a frame was cut off, but then the stream may be broken. -/
theorem receive_cut (h : Flow make side [] begun true reading l) :
    ∃ l' x, l.receive side.other reading = (l', .ready x) ∧ Flow make side [] none true {} l' ∧
      (x = .ok none ∨ ∃ text, x = .error (.protocol text)) := by
  obtain ⟨lane, x, hreceive, htransit, hx⟩ := Transit.receive_cut h
  refine ⟨_, x, Link.receive_lane hreceive, ?_, hx⟩
  rwa [Flow, Link.outOf_setOut]

/-- Where nothing is on its way, nothing is in the lane. -/
theorem backlog_nil (h : Flow make side [] none ended reading l) : (l.outOf side).backlog = 0 :=
  Transit.backlog_nil h

end Flow

end Vault
