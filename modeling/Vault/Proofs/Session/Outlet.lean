import Vault.Proofs.Session.Crossing

/-!
# One frame to a peer that may leave

Someone says one frame over a lane to a peer that listens, and may leave at any moment. As long
as it is there, the frame crosses the lane (`Vault.Crossing`), or it is too long for it and does
not leave at all. Once the peer is gone, whatever is still to be sent cannot be.

`Vault.Outlet` says how far this has come, what the peer has heard, and whether it is gone, with
one lemma for each thing that can happen: a try to send, a try to listen, the peer's leaving and
the closing of the lane behind a frame. What the peer hears is the frame, once, or nothing. And
a frame that is yet to be sent does not get stuck: where the peer finds nothing to take, a try to
send is through or gets on (`Vault.Outlet.moves`).
-/

namespace Vault

open Duplex (pending)

/-- A failure of a link that is the vault's own. -/
def LinkError.IsOwn (e : LinkError) : Prop := (SessionError.link e).toStatus.kind = .internal

/-- What is left to be sent of a frame is not empty. -/
def Frame.Unfinished (rest : Option Bytes) : Prop := ∀ b, rest = some b → b.size ≠ 0

theorem Frame.unfinished_none : Unfinished none := nofun

theorem Frame.Leaves.unfinished {f : Frame} {rest : Option Bytes} {b : Bytes}
    (hb : f.Leaves rest b) (hsize : b.size ≠ 0) : Unfinished rest := by
  rintro b' rfl
  rcases hb with hb | ⟨hb, -⟩
  · cases hb
    exact hsize
  · cases hb

namespace Lane

/-- The lane takes the frame, if there is room: through a pipe a frame goes only if it fits. -/
def Carries (f : Frame) : Lane → Prop
  | queue _ => True
  | pipe _ => f.Fits

/-- Nothing is under way. -/
def Silent : Lane → Prop
  | queue q => q.frames = []
  | pipe p => p.buffered.size = 0

/-- Nothing can be sent any more, because there is nobody to receive it. -/
def Shut : Lane → Prop
  | queue q => q.receiverGone = true
  | pipe p => p.closed = true

/-- Nobody has sent anything, and the receiver is there or is gone. -/
def Vacant (lane : Lane) (gone : Bool) : Prop :=
  gone = false ∧ lane.Fresh ∨ gone = true ∧ lane.Shut

variable {lane : Lane} {f : Frame} {rest : Option Bytes}

theorem carries_of_fits (hf : f.Fits) (lane : Lane) : lane.Carries f := by
  cases lane with
  | queue q => trivial
  | pipe p => exact hf

theorem shut_dropReceiver (lane : Lane) : lane.dropReceiver.Shut := by
  cases lane <;> exact rfl

theorem Shut.dropReceiver (h : lane.Shut) : lane.dropReceiver = lane := by
  cases lane with
  | queue q =>
    obtain ⟨frames, senderGone, receiverGone⟩ := q
    obtain rfl : receiverGone = true := h
    rfl
  | pipe p =>
    obtain ⟨buffered, capacity, closed⟩ := p
    obtain rfl : closed = true := h
    rfl

theorem Shut.dropSender (h : lane.Shut) : lane.dropSender.Shut := by
  cases lane with
  | queue q => exact h
  | pipe p => exact rfl

theorem Silent.dropSender (h : lane.Silent) : lane.dropSender.Silent := by
  cases lane <;> exact h

theorem Fresh.silent (h : lane.Fresh) : lane.Silent := by
  cases lane with
  | queue q =>
    obtain rfl : q = {} := h
    exact rfl
  | pipe p => exact h.1.1

/-- **Nothing is heard on a silent lane**, except that it has ended. -/
theorem Silent.receive (h : lane.Silent) :
    lane.receive {} = (lane, .waiting {}) ∨ lane.receive {} = (lane, .ready (.ok none)) := by
  cases lane with
  | queue q =>
    obtain ⟨frames, senderGone, receiverGone⟩ := q
    obtain rfl : frames = [] := h
    cases senderGone with
    | false => exact Or.inl rfl
    | true => exact Or.inr rfl
  | pipe p =>
    have hempty : p.buffered.size = 0 := h
    cases hclosed : p.closed with
    | false => exact Or.inl (Link.receive_pipe (Duplex.read_idle ⟨hempty, hclosed⟩))
    | true =>
      have hread : p.read {} = (p, .ready (.ok none)) := by
        rw [Pipe.read, Pipe.readOn, if_pos hempty, hclosed]
        rfl
      exact Or.inr (Link.receive_pipe hread)

/-- **Nothing can be sent** to someone who is gone. -/
theorem Shut.send (h : lane.Shut) (f : Frame) (hrest : Frame.Unfinished rest) :
    ∃ e, lane.send f rest = (lane, .ready (.error e)) ∧ e.IsOwn := by
  cases lane with
  | queue q =>
    have hclosed : q.senderGone = true ∨ q.receiverGone = true := Or.inr h
    refine ⟨.closed, ?_, rfl⟩
    rw [send, Queue.offer, if_pos hclosed]
  | pipe p =>
    rcases f.leaves_or_long rest with ⟨b, hb⟩ | ⟨rfl, hlong⟩
    · have hsize : b.size ≠ 0 := by
        rcases hb with rfl | ⟨-, -, rfl⟩
        · exact hrest b rfl
        · exact (Frame.size_onWire_pos f).ne'
      have hclosed : p.closed = true := h
      have hwrite : p.write b = (p, .ready (.error (.io Pipe.broken))) := by
        rw [Pipe.write, if_neg hsize, if_pos hclosed]
      exact ⟨_, Link.send_pipe hb hwrite, rfl⟩
    · exact ⟨_, Link.send_pipe_long hlong, rfl⟩

end Lane

/-! ### Crossings of any lane -/

namespace Crossing

variable {f : Frame} {lane : Lane} {rest : Option Bytes} {r : Frame.Reading}

theorem unfinished (h : Crossing f (some rest) lane r) : Frame.Unfinished rest := by
  cases h with
  | offered r => exact Frame.unfinished_none
  | leaving hb hleft htogether hopen hroom => exact hb.unfinished hleft

/-- A frame that the lane carries sets out. -/
theorem embark (hcarries : lane.Carries f) (hlane : lane.Fresh) :
    Crossing f (some none) lane {} := by
  cases lane with
  | queue q =>
    obtain rfl : q = {} := hlane
    exact .offered {}
  | pipe p => exact .start hcarries hlane

/-- The receiver takes what there is, and what is taken from a lane does not change what it
carries. -/
theorem take_part (hcarries : lane.Carries f) (h : Crossing f (some rest) lane r) :
    ∃ lane' r', lane.receive r = (lane', .waiting r') ∧ lane'.Carries f ∧
      Crossing f (some rest) lane' r' ∧ (lane' = lane ∧ r' = r ∨ lane'.backlog < lane.backlog) := by
  cases lane with
  | queue q =>
    cases h with
    | offered r => exact ⟨_, r, rfl, trivial, .offered r, Or.inl ⟨rfl, rfl⟩⟩
  | pipe p =>
    have hf : f.Fits := hcarries
    obtain ⟨lane', r', hreceive, hleft, hless⟩ := h.receive_part hf
    exact ⟨lane', r', hreceive, Lane.carries_of_fits hf lane', hleft, hless⟩

/-- The receiver gets a frame that has left, and then there is nothing more. -/
theorem take (hcarries : lane.Carries f) (h : Crossing f none lane r) :
    ∃ lane', lane.receive r = (lane', .ready (.ok (some f))) ∧ lane'.Silent := by
  cases h with
  | @queued q hq r =>
    obtain ⟨frames, senderGone, receiverGone⟩ := q
    obtain rfl : frames = [f] := hq
    exact ⟨.queue ⟨[], senderGone, receiverGone⟩, rfl, rfl⟩
  | @left p taken htogether hshort =>
    have hread : p.read ⟨taken⟩ = (p.holding ByteArray.empty, .ready (.ok (some f))) :=
      Pipe.read_whole hcarries (by rw [htogether, ByteArray.append_empty]) hshort
    exact ⟨_, Link.receive_pipe hread, rfl⟩

theorem carries_send {lane' : Lane} {p : Poll (Option Bytes) (Except LinkError Unit)}
    (hcarries : lane.Carries f) (hsend : lane.send f rest = (lane', p)) : lane'.Carries f := by
  cases lane with
  | queue q =>
    have hlane : lane' = ((Lane.queue q).send f rest).1 := by rw [hsend]
    rw [hlane, Lane.send]
    split <;> trivial
  | pipe q => exact Lane.carries_of_fits hcarries lane'

end Crossing

/-! ### The outlet -/

/-- The frame in what was received, if there is one. -/
def framesIn : Except LinkError (Option Frame) → List Frame
  | .ok (some f) => [f]
  | _ => []

/-- **A frame on its way to a peer that may leave**: what is left of it, the lane, what the peer
is reading and has heard, and whether it is gone. -/
inductive Outlet (f : Frame) :
    Option (Option Bytes) → Lane → Frame.Reading → List Frame → Bool → Prop
  /-- It crosses the lane. -/
  | crossing {rest : Option (Option Bytes)} {lane : Lane} {r : Frame.Reading}
    (hcarries : lane.Carries f) (hcross : Crossing f rest lane r) : Outlet f rest lane r [] false
  /-- It has arrived. -/
  | arrived {lane : Lane} (hsilent : lane.Silent) : Outlet f none lane {} [f] false
  /-- It is too long to be sent. -/
  | barred {lane : Lane} (hbarred : ¬lane.Carries f) (hfresh : lane.Fresh) :
    Outlet f (some none) lane {} [] false
  /-- It was too long to be sent. -/
  | dropped {lane : Lane} (hlong : ¬f.Fits) (hsilent : lane.Silent) : Outlet f none lane {} [] false
  /-- The peer is gone. -/
  | left {rest : Option (Option Bytes)} {lane : Lane} {r : Frame.Reading} {heard : List Frame}
    (hshut : lane.Shut) (hrest : ∀ rest', rest = some rest' → Frame.Unfinished rest' ∧ heard = [])
    (hheard : heard = [] ∨ heard = [f]) : Outlet f rest lane r heard true

namespace Outlet

variable {f : Frame} {rest : Option Bytes} {todo : Option (Option Bytes)} {lane : Lane}
  {r : Frame.Reading} {heard : List Frame} {gone : Bool}

theorem start (f : Frame) (hlane : lane.Vacant gone) : Outlet f (some none) lane {} [] gone := by
  obtain ⟨rfl, hfresh⟩ | ⟨rfl, hshut⟩ := hlane
  · by_cases hcarries : lane.Carries f
    · exact .crossing hcarries (.embark hcarries hfresh)
    · exact .barred hcarries hfresh
  · refine .left hshut (fun rest' hrest => ?_) (Or.inl rfl)
    cases hrest
    exact ⟨Frame.unfinished_none, rfl⟩

/-- Nothing is heard before everything is sent. -/
theorem unheard (h : Outlet f (some rest) lane r heard gone) : heard = [] := by
  cases h with
  | left hshut hrest hheard => exact (hrest rest rfl).2
  | _ => rfl

/-- What is heard is the frame, or nothing yet. -/
theorem heard_cases (h : Outlet f todo lane r heard gone) : heard = [] ∨ heard = [f] := by
  cases h with
  | arrived hsilent => exact Or.inr rfl
  | left hshut hrest hheard => exact hheard
  | _ => exact Or.inl rfl

/-- **A try to send** is through, or leaves less to send, or does nothing; or it fails, because
the peer is gone or because the frame is too long. -/
theorem send (h : Outlet f (some rest) lane r heard gone) :
    (∃ lane', lane.send f rest = (lane', .ready (.ok ())) ∧ Outlet f none lane' r heard gone) ∨
    (∃ lane' rest', lane.send f rest = (lane', .waiting rest') ∧ gone = false ∧
      Outlet f (some rest') lane' r heard gone ∧ (lane' = lane ∧ rest' = rest ∨
        lane'.backlog + 2 * pending f rest' < lane.backlog + 2 * pending f rest)) ∨
    ∃ e, lane.send f rest = (lane, .ready (.error e)) ∧ e.IsOwn ∧
      Outlet f none lane r heard gone ∧ (gone = true ∧ lane.Shut ∨ ¬f.Fits) := by
  cases h with
  | crossing hcarries hcross =>
    rcases hcross.send with ⟨lane', hsend, hleft, -⟩ | ⟨lane', rest', hsend, hleft, hless⟩
    · exact Or.inl ⟨lane', hsend, .crossing (Crossing.carries_send hcarries hsend) hleft⟩
    · exact Or.inr (Or.inl ⟨lane', rest', hsend, rfl,
        .crossing (Crossing.carries_send hcarries hsend) hleft, hless⟩)
  | barred hbarred hfresh =>
    cases lane with
    | queue q => exact absurd trivial hbarred
    | pipe p =>
      exact Or.inr (Or.inr ⟨_, Link.send_pipe_long hbarred, rfl, .dropped hbarred hfresh.silent,
        Or.inr hbarred⟩)
  | left hshut hrest hheard =>
    obtain ⟨e, hsend, hown⟩ := hshut.send f (hrest rest rfl).1
    exact Or.inr (Or.inr ⟨e, hsend, hown, .left hshut nofun hheard, Or.inl ⟨rfl, hshut⟩⟩)

/-- **A try to listen** takes what there is of the frame, or gets it, or finds that there is
nothing more to come. -/
theorem listen (h : Outlet f todo lane r heard false) :
    (∃ lane' r', lane.receive r = (lane', .waiting r') ∧ Outlet f todo lane' r' heard false ∧
      (lane' = lane ∧ r' = r ∨ lane'.backlog < lane.backlog)) ∨
    ∃ lane' x, lane.receive r = (lane', .ready x) ∧ todo = none ∧
      Outlet f none lane' {} (heard ++ framesIn x) false := by
  cases h with
  | @crossing todo lane r hcarries hcross =>
    rcases todo with _ | rest
    · obtain ⟨lane', hreceive, hsilent⟩ := hcross.take hcarries
      exact Or.inr ⟨lane', _, hreceive, rfl, .arrived hsilent⟩
    · obtain ⟨lane', r', hreceive, hcarries', hcross', hless⟩ := hcross.take_part hcarries
      exact Or.inl ⟨lane', r', hreceive, .crossing hcarries' hcross', hless⟩
  | barred hbarred hfresh =>
    exact Or.inl ⟨lane, {}, hfresh.receive, .barred hbarred hfresh, Or.inl ⟨rfl, rfl⟩⟩
  | arrived hsilent =>
    rcases hsilent.receive with hreceive | hreceive
    · exact Or.inl ⟨lane, {}, hreceive, .arrived hsilent, Or.inl ⟨rfl, rfl⟩⟩
    · exact Or.inr ⟨lane, _, hreceive, rfl, .arrived hsilent⟩
  | dropped hlong hsilent =>
    rcases hsilent.receive with hreceive | hreceive
    · exact Or.inl ⟨lane, {}, hreceive, .dropped hlong hsilent, Or.inl ⟨rfl, rfl⟩⟩
    · exact Or.inr ⟨lane, _, hreceive, rfl, .dropped hlong hsilent⟩

/-- A peer that listens hears a frame that has left and is not too long. -/
theorem heard_of_fits (hf : f.Fits) (h : Outlet f none lane r heard false) :
    (∃ lane' r', lane.receive r = (lane', .waiting r') ∧ heard = [f]) ∨
      ∃ lane' x, lane.receive r = (lane', .ready x) ∧ heard ++ framesIn x = [f] := by
  cases h with
  | crossing hcarries hcross =>
    obtain ⟨lane', hreceive, -⟩ := hcross.take hcarries
    exact Or.inr ⟨lane', _, hreceive, rfl⟩
  | arrived hsilent =>
    rcases hsilent.receive with hreceive | hreceive
    · exact Or.inl ⟨lane, {}, hreceive, rfl⟩
    · exact Or.inr ⟨lane, _, hreceive, rfl⟩
  | dropped hlong hsilent => exact absurd hf hlong

/-- The peer leaves. -/
theorem leave (h : Outlet f todo lane r heard gone) :
    Outlet f todo lane.dropReceiver r heard true := by
  refine .left lane.shut_dropReceiver (fun rest hrest => ?_) h.heard_cases
  cases hrest
  refine ⟨?_, h.unheard⟩
  cases h with
  | crossing hcarries hcross => exact hcross.unfinished
  | barred hbarred hfresh => exact Frame.unfinished_none
  | left hshut hrest hheard => exact (hrest rest rfl).1

/-- The lane is closed behind a frame that has left. -/
theorem dropSender (h : Outlet f none lane r heard gone) :
    Outlet f none lane.dropSender r heard gone := by
  cases h with
  | crossing hcarries hcross =>
    refine .crossing ?_ hcross.dropSender
    cases lane <;> exact hcarries
  | arrived hsilent => exact .arrived hsilent.dropSender
  | dropped hlong hsilent => exact .dropped hlong hsilent.dropSender
  | left hshut hrest hheard => exact .left hshut.dropSender hrest hheard

/-- **Where the peer finds nothing, a try to send gets on.** -/
theorem moves (h : Outlet f (some rest) lane r heard gone)
    (hreceive : gone = false → lane.receive r = (lane, .waiting r)) :
    lane.send f rest ≠ (lane, .waiting rest) := by
  intro hsend
  -- a try that is through or fails is no wait, so the frame is still on its way
  rcases h.send with ⟨lane', hthrough, -⟩ | ⟨lane', rest', hpart, rfl, -⟩ | ⟨e, hfailed, -⟩
  · cases congrArg Prod.snd (hthrough.symm.trans hsend)
  · cases h with
    | crossing hcarries hcross =>
      cases lane with
      | queue q =>
        cases hcross with
        | offered r => cases congrArg Prod.snd hsend
      | pipe p => exact hcross.moves hcarries (hreceive rfl) hsend
    | barred hbarred hfresh =>
      cases lane with
      | queue q => exact hbarred trivial
      | pipe p => cases congrArg Prod.snd ((Link.send_pipe_long hbarred).symm.trans hsend)
  · cases congrArg Prod.snd (hfailed.symm.trans hsend)

end Outlet

end Vault
