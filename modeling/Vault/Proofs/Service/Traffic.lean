import Vault.Proofs.Service.Stages
import Vault.Proofs.Session.Duplex
import Vault.Proofs.Wire.Size
import Vault.Service.Exchange

/-!
# The bytes of a connection

A connection that is worked from outside sees bytes arrive in portions of any size, is run
now and then, and has its bytes taken away in portions of any size; others share its host
(`Vault.Traffic.step`). None of this shows in what the connection does. At every moment the
bytes that arrived begin with the frames that were heard, no others were taken out of the
pipe (`Vault.Traffic.heard`), and the bytes that were written are the frames that were said
and the front of the one under way (`Vault.Connection.Tracks`). So what every dealing keeps
(`Vault.Connection.Invariant`) holds of a connection at all times, in terms of the bytes on
both sides (`Vault.Traffic.sound_after`).

The frame under way belongs to one side or the other: a session does not read while it
writes.
-/

namespace Vault

open Server (Call Dealing)

/-! ### Bytes that spell frames -/

namespace Frame

/-- **These bytes are these frames**, whatever follows them. -/
def Spells (b : Bytes) (fs : List Frame) : Prop :=
  ∀ e rest, framesOf e (b ++ rest) = (fs ++ (framesOf e rest).1, (framesOf e rest).2)

theorem spells_empty : Spells ByteArray.empty [] := by
  intro e rest
  rw [ByteArray.empty_append, List.nil_append]

/-- Bytes that settle a frame, and no more, settle it in front of whatever follows. -/
theorem firstOf_front {b rest : Bytes} (hb : ¬Reading.Underway ⟨b⟩) (hexact : Reading.Exact ⟨b⟩)
    {f : Frame} (h : (firstOf .eof (b ++ rest)).1 = .ok (some f)) (e : Ending) (rest' : Bytes) :
    firstOf e (b ++ rest') = (.ok (some f), rest') := by
  obtain ⟨hprogress, -⟩ := firstOf_of_settled .eof hb hexact rest
  obtain ⟨hprogress', hafter⟩ := firstOf_of_settled e hb hexact rest'
  dsimp only at hprogress hprogress' hafter
  rw [hprogress, h] at hprogress'
  have hsame : (firstOf e (b ++ rest')).1 = .ok (some f) := (Progress.done.inj hprogress').symm
  exact Prod.ext hsame (hafter f hsame)

/-- Bytes with no frame in front. -/
theorem framesOf_eq_nil {e : Ending} {b : Bytes} (h : ∀ f, (firstOf e b).1 ≠ .ok (some f)) :
    (framesOf e b).1 = [] := by
  rw [framesOf_eq]
  split
  · rfl
  · rfl
  · next f hf => exact absurd hf (h f)

/-- Bytes that settle that there is no frame are none, whatever follows them. -/
theorem framesOf_of_settled {b rest : Bytes} (hb : ¬Reading.Underway ⟨b⟩)
    (hexact : Reading.Exact ⟨b⟩) (h : ∀ f, (firstOf .eof (b ++ rest)).1 ≠ .ok (some f)) :
    (framesOf .eof b).1 = [] := by
  refine framesOf_eq_nil fun f hf => ?_
  rw [← ByteArray.append_empty (b := b)] at hf
  exact h f (congrArg Prod.fst (firstOf_front hb hexact hf .eof rest))

theorem Spells.concat {b c : Bytes} {fs : List Frame} {f : Frame} (hb : Spells b fs)
    (hc : ∀ e rest, firstOf e (c ++ rest) = (.ok (some f), rest)) :
    Spells (b ++ c) (fs ++ [f]) := by
  intro e rest
  rw [ByteArray.append_assoc, hb, framesOf_eq e (c ++ rest), hc]
  simp

theorem wire_concat (fs : List Frame) (f : Frame) :
    wire (fs ++ [f]) = wire fs ++ if f.Fits then f.onWire else ByteArray.empty := by
  induction fs with
  | nil =>
    by_cases hf : f.Fits
    · rw [List.nil_append, wire_cons_of_fits hf, if_pos hf]
      exact ByteArray.append_empty.trans ByteArray.empty_append.symm
    · rw [List.nil_append, wire_cons_of_not_fits hf, if_neg hf]
      exact ByteArray.append_empty.symm
  | cons g fs ih =>
    by_cases hg : g.Fits
    · rw [List.cons_append, wire_cons_of_fits hg, wire_cons_of_fits hg, ih, ByteArray.append_assoc]
    · rw [List.cons_append, wire_cons_of_not_fits hg, wire_cons_of_not_fits hg, ih]

theorem fits_key (k : Crypto.PublicKey) : (message k.bytes).Fits := by
  rw [Fits, size_message, k.size_eq]
  decide

/-- **What has been written of a frame** that is on its way out: nothing, if it is too long. -/
def Begun (f : Frame) (rest : Option Bytes) (front : Bytes) : Prop :=
  f.Fits ∧ (∃ b, f.Leaves rest b ∧ b.size ≠ 0 ∧ front ++ b = f.onWire) ∨
    ¬f.Fits ∧ rest = none ∧ front = ByteArray.empty

theorem begun_none (f : Frame) : f.Begun none ByteArray.empty := by
  by_cases hf : f.Fits
  · exact Or.inl ⟨hf, f.onWire, Or.inr ⟨rfl, hf, rfl⟩, Nat.ne_of_gt f.size_onWire_pos,
      ByteArray.empty_append⟩
  · exact Or.inr ⟨hf, rfl, rfl⟩

end Frame

open Vault.Frame (Reading Spells wire)

/-! ### What a pipe gives and takes -/

namespace Pipe

/-- What is read is what the bytes make of a frame, at their end or before. -/
theorem exact_of_readOn {fuel : ℕ} {p p' : Pipe} {r : Reading} (hr : r.Underway)
    {x : Except LinkError (Option Frame)} (h : readOn fuel p r = (p', .ready x)) :
    ∃ r : Reading, r.Exact ∧ (r.atEnd = x ∨ r.progress = .done x) := by
  induction fuel generalizing p r with
  | zero => cases h
  | succ fuel ih =>
    rw [readOn] at h
    split_ifs at h with hempty hclosed
    · exact ⟨r, hr.exact, Or.inl (Poll.ready.inj (Prod.mk.inj h).2)⟩
    · cases h
    · have htake : (Bytes.take p.buffered r.wanted).size ≤ r.wanted := by
        rw [Bytes.size_take]
        exact Nat.min_le_left _ _
      have hexact := Reading.exact_append htake hr
      dsimp only [Reading.feed] at h
      by_cases hway : Reading.Underway ⟨r.taken ++ Bytes.take p.buffered r.wanted⟩
      · rw [Reading.progress_eq_more hway] at h
        exact ih hway h
      · rw [Reading.progress_of_not_underway hway] at h
        refine ⟨_, hexact, Or.inr ?_⟩
        rw [Reading.progress_of_not_underway hway]
        exact congrArg _ (Poll.ready.inj (Prod.mk.inj h).2)

/-- **What a try to read can come to**: the frame is still on its way, and all there was is
taken; it is here, and nothing else is taken; or there is none, and none is in what is taken. -/
theorem read_cases {p : Pipe} {r : Reading} (hr : r.Underway) :
    (∃ r' : Reading, r'.Underway ∧ r'.taken = r.taken ++ p.buffered ∧
      p.read r = (p.holding ByteArray.empty, .waiting r')) ∨
    (∃ c f rest, r.taken ++ p.buffered = c ++ rest ∧
      (∀ e b, Frame.firstOf e (c ++ b) = (.ok (some f), b)) ∧
      (Dealing.receive (some (.ok (some f)))).Faithful ∧
      p.read r = (p.holding rest, .ready (.ok (some f)))) ∨
    ∃ c rest x, r.taken ++ p.buffered = c ++ rest ∧ (Frame.framesOf .eof c).1 = [] ∧
      (∀ f, x ≠ .ok (some f)) ∧ (Dealing.receive (some x)).Faithful ∧
      p.read r = (p.holding rest, .ready x) := by
  obtain ⟨hway, hsettled⟩ := readOn_spec (p := p) .eof hr (Or.inl (Nat.le_refl 3))
  have hfaithful {p' : Pipe} {x : Except LinkError (Option Frame)}
      (h : p.read r = (p', .ready x)) : (Dealing.receive (some x)).Faithful :=
    exact_of_readOn hr h
  by_cases h : Reading.Underway ⟨r.taken ++ p.buffered⟩
  · have hread : p.read r = _ := hway h
    by_cases hclosed : p.closed = true
    · rw [if_pos hclosed] at hread
      have hnone : (Frame.framesOf .eof (r.taken ++ p.buffered)).1 = [] :=
        congrArg Prod.fst (Frame.framesOf_of_underway .eof h)
      exact Or.inr (Or.inr ⟨_, _, _, ByteArray.append_empty.symm, hnone,
        Frame.Ending.stop_ne_some .eof _, hfaithful hread, hread⟩)
    · rw [if_neg hclosed] at hread
      exact Or.inl ⟨_, h, rfl, hread⟩
  · obtain ⟨c, rest, hsplit, hdone, hexact, hread⟩ := hsettled h
    have hread' : p.read r = _ := hread
    rw [hsplit] at hread'
    by_cases hf : ∃ f, (Frame.firstOf .eof (c ++ rest)).1 = .ok (some f)
    · obtain ⟨f, hf⟩ := hf
      rw [hf] at hread'
      exact Or.inr (Or.inl ⟨c, f, rest, hsplit, Frame.firstOf_front hdone hexact hf,
        hfaithful hread', hread'⟩)
    · have hnone (f : Frame) : (Frame.firstOf .eof (c ++ rest)).1 ≠ .ok (some f) :=
        fun hc => hf ⟨f, hc⟩
      exact Or.inr (Or.inr ⟨c, rest, _, hsplit, Frame.framesOf_of_settled hdone hexact hnone,
        hnone, hfaithful hread', hread'⟩)

/-- The bytes that find room. -/
def accepts (p : Pipe) (b : Bytes) : Bytes :=
  if p.closed then ByteArray.empty else Bytes.take b (p.capacity - p.buffered.size)

theorem write_fst (p : Pipe) (b : Bytes) :
    (p.write b).1 = p.holding (p.buffered ++ p.accepts b) := by
  rw [write, accepts]
  by_cases hb : b.size = 0
  · have htake : Bytes.take b (p.capacity - p.buffered.size) = ByteArray.empty := by
      refine ByteArray.size_eq_zero_iff.mp ?_
      rw [Bytes.size_take]
      omega
    rw [if_pos hb, htake, ite_self, ByteArray.append_empty, holding_buffered]
  rw [if_neg hb]
  by_cases hclosed : p.closed = true
  · rw [if_pos hclosed, if_pos hclosed, ByteArray.append_empty, holding_buffered]
  rw [if_neg hclosed, if_neg hclosed]
  dsimp only
  split_ifs <;> rfl

end Pipe

namespace Connection

variable {σ : Type}

/-! ### The frame under way -/

/-- What is taken of the frame that the connection reads or will read next. -/
def unread : Connection → Option Reading
  | .opening r => some r
  | .session r =>
    match r.waiting with
    | .receive _ => some r.reading
    | .deliver (.closing ..) => none
    | .deliver _ => some {}
  | _ => none

/-- The frame that the connection writes, and what is left of it if it has begun to leave. -/
def unwritten : Connection → Option (Frame × Option Bytes)
  | .acknowledging rest => some (.end, rest)
  | .refusing _ s rest => some (.abort s, rest)
  | .session r =>
    match r.waiting with
    | .receive _ => none
    | .deliver d => some (Duplex.frameOf d, r.rest)
  | _ => none

/-- **What arrived begins with the frames that were heard.** It goes on with the front of a frame,
or something that is none, and what is in the pipe. -/
def Inbound (arrived : Bytes) (fs : List Frame) (p : Pipe) : Option Reading → Prop
  | none => ∃ front back, arrived = front ++ (back ++ p.buffered) ∧ Spells front fs ∧
    (Frame.framesOf .eof back).1 = []
  | some r => r.Underway ∧ ∃ front, arrived = front ++ (r.taken ++ p.buffered) ∧ Spells front fs

/-- The wait for a last frame was given up. -/
def GivenUp (ds : List Dealing) : Prop := ∃ last, .finish last none ∈ ds

/-- **What was written are the frames that were said**, and the front of the one under way. -/
def Outbound (written : Bytes) (ds : List Dealing) (q : Pipe) (said : Bool) (c : Connection) :
    Prop :=
  match c.unwritten, c.result? with
  | some (f, rest), _ => said = false ∧ q.closed = false ∧
    ∃ front, f.Begun rest front ∧ written = wire (Server.said ds) ++ front
  | none, none => said = false ∧ q.closed = false ∧ written = wire (Server.said ds)
  | none, some _ => written = wire (Server.said ds) ∨
    GivenUp ds ∧ ∃ front, written = wire (Server.said ds) ++ front

/-- **The bytes on both sides** of a connection with these dealings: `arrived` are all that
arrived, `taken` those that were taken away. -/
def Tracks (arrived taken : Bytes) (ds : List Dealing) (c : Connection) (link : Link) : Prop :=
  ∃ p q said, link = .pipes p q said ∧ Inbound arrived (Server.heard ds) p c.unread ∧
    Outbound (taken ++ q.buffered) ds q said c

section Inbound

variable {arrived : Bytes} {fs : List Frame} {p : Pipe} {r : Reading}

theorem Inbound.weaken (h : Inbound arrived fs p (some r)) : Inbound arrived fs p none := by
  obtain ⟨hr, front, harrived, hfront⟩ := h
  exact ⟨front, r.taken, harrived, hfront, congrArg Prod.fst (Frame.framesOf_of_underway .eof hr)⟩

theorem Inbound.arrive {o : Option Reading} (h : Inbound arrived fs p o) (b : Bytes) :
    Inbound (arrived ++ b) fs (p.holding (p.buffered ++ b)) o := by
  cases o with
  | none =>
    obtain ⟨front, back, rfl, hfront, hback⟩ := h
    refine ⟨front, back, ?_, hfront, hback⟩
    rw [Pipe.buffered_holding, ByteArray.append_assoc, ByteArray.append_assoc]
  | some r =>
    obtain ⟨hr, front, rfl, hfront⟩ := h
    refine ⟨hr, front, ?_, hfront⟩
    rw [Pipe.buffered_holding, ByteArray.append_assoc, ByteArray.append_assoc]

/-- What is known in any case. -/
theorem Inbound.anyway {o : Option Reading} (h : Inbound arrived fs p o) :
    Inbound arrived fs p none := by
  cases o with
  | none => exact h
  | some r => exact h.weaken

/-- The frames that were heard stand in front of all that arrived. -/
theorem Inbound.frames {o : Option Reading} (h : Inbound arrived fs p o) (e : Frame.Ending) :
    fs <+: (Frame.framesOf e arrived).1 := by
  obtain ⟨front, back, rfl, hfront, -⟩ := h.anyway
  rw [hfront]
  exact List.prefix_append _ _

/-- The frames that were heard are those in the bytes that are not in the pipe any more. -/
theorem Inbound.consumed {o : Option Reading} (h : Inbound arrived fs p o) :
    ∃ b, arrived = b ++ p.buffered ∧ (Frame.framesOf .eof b).1 = fs := by
  obtain ⟨front, back, rfl, hfront, hback⟩ := h.anyway
  refine ⟨front ++ back, by rw [ByteArray.append_assoc], ?_⟩
  rw [hfront, hback, List.append_nil]

theorem Inbound.close {o : Option Reading} (h : Inbound arrived fs p o) :
    Inbound arrived fs p.close o := by
  cases o <;> exact h

/-- A connection that comes to a stage reads a new frame, if any. -/
theorem Inbound.entered (h : Inbound arrived fs p (some {})) (s : Stage) :
    Inbound arrived fs p s.entered.unread := by
  cases s with
  | session call phase waiting =>
    cases waiting with
    | receive what => exact h
    | deliver d =>
      cases d with
      | closing last result watched => exact h.weaken
      | _ => exact h
  | opening => exact h
  | _ => exact h.weaken

end Inbound

/-- At this stage and afterwards nothing is read. -/
def Stage.Deaf (s : Stage) : Prop := s.entered.unread = none

theorem Inbound.of_deaf {arrived : Bytes} {fs : List Frame} {p : Pipe} {s : Stage}
    (h : Inbound arrived fs p none) (hs : s.Deaf) : Inbound arrived fs p s.entered.unread := by
  rw [hs]
  exact h

section Deaf

theorem deaf_close (call : Call) (p : Server.Phase) (h : Host σ) (last : Except Status Unit)
    (result : Server.Outcome) (watched : Bool) :
    (ofTurn call (Server.close p h last result watched)).Deaf := by
  by_cases hp : p.name = .terminated
  · rw [Server.close_of_over hp]
    cases result <;> rfl
  · rw [Server.close_of_open hp]
    rfl

theorem deaf_terminate (call : Call) (p : Server.Phase) (h : Host σ) (e : SessionError)
    (watched : Bool) : (ofTurn call (Server.terminate p h e watched)).Deaf :=
  deaf_close call p _ _ _ _

variable {x : Except LinkError (Option Frame)}

theorem deaf_greeted (hx : ∀ f, x ≠ .ok (some f)) (h : Host σ) : (greeted x h).1.Deaf := by
  rcases x with e | _ | f
  · rfl
  · rfl
  · exact absurd rfl (hx f)

/-- A session reads on only after a message. -/
theorem deaf_received [Store σ] (hx : ∀ f, x ≠ .ok (some f)) (call : Call) (p : Server.Phase)
    (h : Host σ) (r : Server.Receiving) : (ofTurn call (Server.received call p h r x)).Deaf := by
  rcases x with e | _ | f
  · cases r with
    | peerKey => cases e <;> exact deaf_terminate call p h _ _
    | request => exact deaf_terminate call p h _ _
  · cases r with
    | peerKey => exact deaf_terminate call p h _ _
    | request => exact deaf_close call p h _ _ _
  · exact absurd rfl (hx f)

end Deaf

/-- The frames that were said stand in front of all that was written. -/
theorem Outbound.front {written : Bytes} {ds : List Dealing} {q : Pipe} {said : Bool}
    {c : Connection} (h : Outbound written ds q said c) :
    ∃ more, written = wire (Server.said ds) ++ more := by
  have hall (hw : written = wire (Server.said ds)) :
      ∃ more, written = wire (Server.said ds) ++ more :=
    ⟨ByteArray.empty, by rw [hw, ByteArray.append_empty]⟩
  unfold Outbound at h
  split at h
  · obtain ⟨-, -, front, -, hfront⟩ := h
    exact ⟨front, hfront⟩
  · exact hall h.2.2
  · obtain hw | ⟨-, hfront⟩ := h
    · exact hall hw
    · exact hfront

/-! ### One try to read, one try to write -/

section Tries

variable {arrived taken : Bytes} {ds : List Dealing} {p q : Pipe}

theorem outbound_entered {written : Bytes} (hopen : q.closed = false)
    (h : written = wire (Server.said ds)) (s : Stage) : Outbound written ds q false s.entered := by
  have hwriting (f : Frame) :
      ∃ front, f.Begun none front ∧ written = wire (Server.said ds) ++ front :=
    ⟨ByteArray.empty, f.begun_none, by rw [h, ByteArray.append_empty]⟩
  cases s with
  | opening => exact ⟨rfl, hopen, h⟩
  | acknowledging => exact ⟨rfl, hopen, hwriting _⟩
  | refusing e s => exact ⟨rfl, hopen, hwriting _⟩
  | session call phase waiting =>
    cases waiting with
    | receive what => exact ⟨rfl, hopen, h⟩
    | deliver d => exact ⟨rfl, hopen, hwriting _⟩
  | ended result => exact Or.inl h

/-- **A try to read.** The frame is on its way; or the wait is over, and whatever the connection
does next the bytes are accounted for, unless it would read on where there is nothing to
read. -/
theorem receive_cases {reading : Reading}
    (hin : Inbound arrived (Server.heard ds) p (some reading)) (hopen : q.closed = false)
    (hwritten : taken ++ q.buffered = wire (Server.said ds)) :
    (∃ p' reading', (Link.pipes p q false).receive .right reading =
        (.pipes p' q false, .waiting reading') ∧
      Inbound arrived (Server.heard ds) p' (some reading')) ∨
    ∃ link x, (Link.pipes p q false).receive .right reading = (link, .ready x) ∧
      (Dealing.receive (some x)).Faithful ∧ ∀ s : Stage, ((∀ f, x ≠ .ok (some f)) → s.Deaf) →
        Tracks arrived taken (ds ++ [.receive (some x)]) s.entered link := by
  have hout (x : Except LinkError (Option Frame)) (s : Stage) :
      Outbound (taken ++ q.buffered) (ds ++ [.receive (some x)]) q false s.entered := by
    refine outbound_entered hopen ?_ s
    rwa [Server.said_concat_of_none ds rfl]
  obtain ⟨hr, front, harrived, hfront⟩ := hin
  obtain ⟨r', hway, htaken, hread⟩ | ⟨c, f, left, hsplit, hfirst, hfaithful, hread⟩ |
    ⟨c, left, x, hsplit, hnone, hx, hfaithful, hread⟩ := Pipe.read_cases (p := p) hr
  · refine Or.inl ⟨_, _, Link.receive_right_pipes hread, hway, front, ?_, hfront⟩
    rw [htaken, Pipe.buffered_holding, ByteArray.append_empty, harrived]
  · have hnext : Inbound arrived (Server.heard (ds ++ [.receive (some (.ok (some f)))]))
        (p.holding left) (some {}) := by
      rw [Server.heard_concat ds rfl]
      refine ⟨Reading.underway_empty, front ++ c, ?_, hfront.concat hfirst⟩
      rw [Pipe.buffered_holding, ByteArray.empty_append, ByteArray.append_assoc, ← hsplit, harrived]
    exact Or.inr ⟨_, _, Link.receive_right_pipes hread, hfaithful,
      fun s _ => ⟨_, q, false, rfl, hnext.entered s, hout _ s⟩⟩
  · have hheard : (Dealing.receive (some x)).heard? = none := by
      rcases x with e | _ | f
      · rfl
      · rfl
      · exact absurd rfl (hx f)
    refine Or.inr ⟨_, _, Link.receive_right_pipes hread, hfaithful,
      fun s hs => ⟨_, q, false, rfl, .of_deaf ?_ (hs hx), hout x s⟩⟩
    rw [Server.heard_concat_of_none ds hheard]
    exact ⟨front, c, by rw [Pipe.buffered_holding, ← hsplit, harrived], hfront, hnone⟩

theorem said?_dealing (d : Server.Delivering) (x : Except LinkError Unit) :
    (d.dealing (some x)).said? = some (Duplex.frameOf d) := by
  cases d <;> rfl

theorem heard?_dealing (d : Server.Delivering) (x : Option (Except LinkError Unit)) :
    (d.dealing x).heard? = none := by
  cases d <;> rfl

theorem faithful_dealing (d : Server.Delivering) :
    (d.dealing (some (Duplex.frameOf d).outcome)).Faithful := by
  cases d <;> rfl

/-- A frame that is too long is not written, and the link stays as it is. -/
theorem attempt_long {d : Server.Delivering} (hlong : ¬(Duplex.frameOf d).Fits) (p q : Pipe) :
    d.attempt (.pipes p q false) .right none =
      (.pipes p q false, .ready (Duplex.frameOf d).outcome) := by
  have hsend := Link.send_right_pipes (p := p) (Link.send_pipe_long (p := q) hlong)
  rw [Frame.outcome, if_neg hlong]
  cases d with
  | key k secret => exact hsend
  | reply envelope => exact hsend
  | closing last result watched =>
    simp only [Duplex.frameOf] at hsend
    simp only [Server.Delivering.attempt, Link.finish, hsend]
    rfl

/-- The stages that may follow a delivery: after a last frame it is over. -/
def Follows (s : Stage) : Server.Delivering → Prop
  | .closing .. => ∃ result, s = .ended result
  | _ => True

/-- The bytes after a delivery, when the link may have been closed. -/
theorem tracks_delivered {d : Server.Delivering} {s : Stage} (hs : Follows s d)
    (hin : Inbound arrived (Server.heard ds) p
      (Stage.session .serve .terminated (.deliver d)).entered.unread) (hopen : q.closed = false)
    (hwritten : taken ++ q.buffered = wire (Server.said ds ++ [Duplex.frameOf d]))
    (x : Except LinkError Unit) :
    Tracks arrived taken (ds ++ [d.dealing (some x)]) s.entered (.pipes p q false) ∧
      Tracks arrived taken (ds ++ [d.dealing (some x)]) s.entered (Duplex.linkAfter p q d) := by
  have hsaid : taken ++ q.buffered = wire (Server.said (ds ++ [d.dealing (some x)])) := by
    rw [Server.said_concat ds (said?_dealing d x), hwritten]
  rw [← Server.heard_concat_of_none ds (heard?_dealing d (some x))] at hin
  have hout := outbound_entered hopen hsaid s
  cases d with
  | closing last result watched =>
    obtain ⟨result, rfl⟩ := hs
    exact ⟨⟨p, q, false, rfl, hin, hout⟩, p, q.close, true, rfl, hin, Or.inl hsaid⟩
  | key k secret =>
    exact ⟨⟨p, q, false, rfl, hin.entered s, hout⟩, p, q, false, rfl, hin.entered s, hout⟩
  | reply envelope =>
    exact ⟨⟨p, q, false, rfl, hin.entered s, hout⟩, p, q, false, rfl, hin.entered s, hout⟩

/-- **A try to write.** Part of the frame is left; or the wait is over, and whatever the
connection does next the bytes are accounted for. -/
theorem deliver_cases {d : Server.Delivering} {rest : Option Bytes} {front : Bytes}
    (hin : Inbound arrived (Server.heard ds) p
      (Stage.session .serve .terminated (.deliver d)).entered.unread) (hopen : q.closed = false)
    (hfront : (Duplex.frameOf d).Begun rest front)
    (hwritten : taken ++ q.buffered = wire (Server.said ds) ++ front) :
    (∃ q' left more, d.attempt (.pipes p q false) .right rest =
        (.pipes p q' false, .waiting (some left)) ∧ q'.closed = false ∧
      (Duplex.frameOf d).Begun (some left) more ∧
      taken ++ q'.buffered = wire (Server.said ds) ++ more) ∨
    ∃ link, d.attempt (.pipes p q false) .right rest =
        (link, .ready (Duplex.frameOf d).outcome) ∧ ∀ s, Follows s d →
      Tracks arrived taken (ds ++ [d.dealing (some (Duplex.frameOf d).outcome)]) s.entered
        link := by
  obtain ⟨hfits, b, hleaves, hsize, hwhole⟩ | ⟨hlong, rfl, rfl⟩ := hfront
  · have houtcome : (Duplex.frameOf d).outcome = .ok () := by rw [Frame.outcome, if_pos hfits]
    obtain hwrite | ⟨more, left, hsplit, hleft, hwrite, -⟩ := Pipe.write_cases hsize hopen
    · have hall : taken ++ (q.holding (q.buffered ++ b)).buffered =
          wire (Server.said ds ++ [Duplex.frameOf d]) := by
        rw [Pipe.buffered_holding, ← ByteArray.append_assoc, hwritten, ByteArray.append_assoc,
          hwhole, Frame.wire_concat, if_pos hfits]
      have hopen' : (q.holding (q.buffered ++ b)).closed = false := hopen
      rw [houtcome]
      exact Or.inr ⟨_, Duplex.attempt_writes hleaves hwrite,
        fun s hs => (tracks_delivered hs hin hopen' hall _).2⟩
    · refine Or.inl ⟨_, left, front ++ more, Duplex.attempt_writes_part hleaves hwrite, hopen,
        Or.inl ⟨hfits, left, Or.inl rfl, hleft, ?_⟩, ?_⟩
      · rw [ByteArray.append_assoc, hsplit, hwhole]
      · rw [Pipe.buffered_holding, ← ByteArray.append_assoc, hwritten, ByteArray.append_assoc]
  · rw [ByteArray.append_empty] at hwritten
    refine Or.inr ⟨_, attempt_long hlong p q, fun s hs => (tracks_delivered hs hin hopen ?_ _).1⟩
    rw [hwritten, Frame.wire_concat, if_neg hlong, ByteArray.append_empty]

end Tries

/-! ### Runs -/

section Runs

variable [Store σ] {may : Host σ → Host σ → Prop} {P : List Dealing → Stage → Host σ → Prop}
  {h : Host σ} {arrived taken : Bytes} {link : Link}

/-- **A connection and its bytes**: dealings that have led here, on a stream that does not
fail, account for the bytes on both sides, and they are as `P` says. -/
structure Tracked (P : List Dealing → Stage → Host σ → Prop) (arrived taken : Bytes)
    (x : Connection × Link × Host σ) : Prop where
  sane : x.1.stage.Sane
  dealings : ∃ ds, P ds x.1.stage x.2.2 ∧ (∀ d ∈ ds, d.Faithful) ∧ Tracks arrived taken ds x.1 x.2.1

/-- One more dealing. -/
theorem Invariant.tracked (hP : Invariant may P) {ds : List Dealing} {s s' : Stage} {h' : Host σ}
    {d : Dealing} (hs : s.Sane) (hp : P ds s h) (hds : ∀ d ∈ ds, d.Faithful)
    (hd : Deals s h d s' h') (hfaithful : d.Faithful)
    (ht : Tracks arrived taken (ds ++ [d]) s'.entered link) :
    Tracked P arrived taken (s'.entered, link, h') := by
  refine ⟨?_, ds ++ [d], ?_, ?_, ht⟩
  · rw [stage_entered]
    exact hd.sane hs
  · rw [stage_entered]
    exact hP.deals hs hp hd hfaithful
  · intro d' hd'
    rcases List.mem_append.mp hd' with hd' | hd'
    · exact hds d' hd'
    · rw [List.mem_singleton.mp hd']
      exact hfaithful

/-- What a try of a session comes to, for the connection it belongs to. -/
def attempted (r : Server.Running) (h : Host σ) :
    Link × Poll Server.Running (Server.Turn σ) → Connection × Link × Host σ
  | (link, .waiting r') => (.session r', link, h)
  | (link, .ready t) => ((ofTurn r.call t).entered, link, t.host)

/-- **A try of a session keeps account of the bytes.** -/
theorem tracked_attempt (hP : Invariant may P) {r : Server.Running}
    (ht : Tracked P arrived taken (.session r, link, h)) :
    Tracked P arrived taken (attempted r h (Server.attempt r link .right h)) := by
  obtain ⟨hsane, ds, hp, hds, p, q, said, rfl, hin, hout⟩ := ht
  obtain ⟨-, hpoised⟩ := id hsane
  obtain ⟨call, phase, waiting, reading, rest⟩ := r
  rw [Server.attempt]
  split_ifs with hwatched
  · -- the shutdown signal ends the wait
    obtain ⟨hw, hc⟩ := Bool.and_eq_true_iff.mp hwatched
    have hdeals : Deals (.session call phase waiting) h waiting.abandoned
        (ofTurn call (Server.interrupted phase h)) (Server.interrupted phase h).host :=
      .session (.interrupted hw hc)
    cases waiting with
    | receive what =>
      obtain ⟨rfl, hopen, hwritten⟩ := hout
      refine hP.tracked hsane hp hds hdeals trivial
        ⟨p, q, false, rfl, .of_deaf ?_ (deaf_close ..), outbound_entered hopen ?_ _⟩
      · rw [Server.heard_concat_of_none ds rfl]
        exact hin.weaken
      · rwa [Server.said_concat_of_none ds rfl]
    | deliver d =>
      cases hpoised with
      | closing last result watched =>
        obtain ⟨rfl, hopen, front, hfront, hwritten⟩ := hout
        refine hP.tracked hsane hp hds hdeals trivial
          ⟨p, q, false, rfl, ?_, Or.inr ⟨⟨last, ?_⟩, front, ?_⟩⟩
        · rw [Server.heard_concat_of_none ds rfl]
          exact hin
        · exact List.mem_append_right _ (List.mem_singleton.mpr rfl)
        · rwa [Server.said_concat_of_none ds rfl]
      | _ => exact absurd hw Bool.false_ne_true
  -- otherwise the wait goes on with other pipes, or what was waited for is dealt with
  cases waiting with
  | receive what =>
    obtain ⟨rfl, hopen, hwritten⟩ := hout
    dsimp only
    obtain ⟨p', reading', hreceive, hin'⟩ | ⟨link, x, hreceive, hfaithful, hnext⟩ :=
      receive_cases hin hopen hwritten
    · rw [hreceive]
      exact ⟨hsane, ds, hp, hds, p', q, false, rfl, hin', rfl, hopen, hwritten⟩
    · rw [hreceive]
      exact hP.tracked hsane hp hds (.session (.received x)) hfaithful
        (hnext _ fun hx => deaf_received hx call phase h what)
  | deliver d =>
    obtain ⟨rfl, hopen, front, hfront, hwritten⟩ := hout
    dsimp only
    have hin' : Inbound arrived (Server.heard ds) p
        (Stage.session .serve .terminated (.deliver d)).entered.unread := by
      cases d <;> exact hin
    obtain ⟨q', left, more, hattempt, hopen', hmore, hwritten'⟩ | ⟨link, hattempt, hnext⟩ :=
      deliver_cases hin' hopen hfront hwritten
    · rw [hattempt]
      exact ⟨hsane, ds, hp, hds, p, q', false, rfl, hin, rfl, hopen', more, hmore, hwritten'⟩
    · rw [hattempt]
      refine hP.tracked hsane hp hds (.session (.delivered _)) (faithful_dealing d) (hnext _ ?_)
      cases d with
      | closing last result watched => cases result <;> exact ⟨_, rfl⟩
      | _ => exact trivial

/-- **A run of a session keeps account of the bytes.** -/
theorem tracked_runTurn (hP : Invariant may P) {call : Call} {fuel : ℕ} {t : Server.Turn σ}
    (ht : Tracked P arrived taken ((ofTurn call t).entered, link, t.host)) :
    Tracked P arrived taken (ofRun (Server.runTurn call .right fuel t link)) := by
  induction fuel generalizing t link with
  | zero =>
    obtain ⟨phase, h, waiting | e | a⟩ := t
    · exact ht
    · exact ht
    · exact ht
  | succ fuel ih =>
    obtain ⟨phase, h, waiting | e | a⟩ := t
    · have hnext := tracked_attempt hP ht
      rw [Server.runTurn]
      dsimp only
      rcases hattempt : Server.attempt { call, phase, waiting } link .right h with ⟨link', t' | r'⟩
      · rw [hattempt] at hnext
        exact ih hnext
      · rw [hattempt] at hnext
        exact hnext
    · exact ht
    · exact ht

theorem tracked_resume (hP : Invariant may P) {r : Server.Running}
    (ht : Tracked P arrived taken (.session r, link, h)) :
    Tracked P arrived taken (ofRun (Server.resume r .right link h)) := by
  have hnext := tracked_attempt hP ht
  rw [Server.resume]
  rcases hattempt : Server.attempt r link .right h with ⟨link', t' | r'⟩
  · rw [hattempt] at hnext
    exact tracked_runTurn hP hnext
  · rw [hattempt] at hnext
    exact hnext

theorem tracked_acknowledge (hP : Invariant may P) {rest : Option Bytes}
    (ht : Tracked P arrived taken (.acknowledging rest, link, h)) :
    Tracked P arrived taken
      ((acknowledge rest .right link).1, (acknowledge rest .right link).2, h) := by
  obtain ⟨hsane, ds, hp, hds, p, q, said, rfl, hin, rfl, hopen, front, hfront, hwritten⟩ := ht
  rw [acknowledge]
  obtain ⟨q', left, more, hfinish, hopen', hmore, hwritten'⟩ | ⟨link, hfinish, hnext⟩ :=
    deliver_cases (d := .closing (.ok ()) (.ok .done) false) hin hopen hfront hwritten
  · simp only [Server.Delivering.attempt] at hfinish
    rw [hfinish]
    exact ⟨hsane, ds, hp, hds, p, q', false, rfl, hin, rfl, hopen', more, hmore, hwritten'⟩
  · simp only [Server.Delivering.attempt] at hfinish
    rw [hfinish]
    have hdeals := hP.tracked hsane hp hds (.acknowledged (Link.closingFrame (.ok ())).outcome) rfl
      (hnext (.ended _) ⟨_, rfl⟩)
    rw [Duplex.frameOf]
    rcases hx : (Link.closingFrame (.ok ())).outcome with e | _
    · rw [hx] at hdeals
      exact hdeals
    · rw [hx] at hdeals
      exact hdeals

theorem tracked_sayWhy (hP : Invariant may P) {e : ServiceError} {s : Status} {rest : Option Bytes}
    (ht : Tracked P arrived taken (.refusing e s rest, link, h)) :
    Tracked P arrived taken
      ((sayWhy e s rest .right link).1, (sayWhy e s rest .right link).2, h) := by
  obtain ⟨hsane, ds, hp, hds, p, q, said, rfl, hin, rfl, hopen, front, hfront, hwritten⟩ := ht
  rw [sayWhy]
  obtain ⟨q', left, more, hfinish, hopen', hmore, hwritten'⟩ | ⟨link, hfinish, hnext⟩ :=
    deliver_cases (d := .closing (.error s) (.ok .done) false) hin hopen hfront hwritten
  · simp only [Server.Delivering.attempt] at hfinish
    rw [hfinish]
    exact ⟨hsane, ds, hp, hds, p, q', false, rfl, hin, rfl, hopen', more, hmore, hwritten'⟩
  · simp only [Server.Delivering.attempt] at hfinish
    rw [hfinish]
    exact hP.tracked hsane hp hds (.refused (Link.closingFrame (.error s)).outcome) rfl
      (hnext (.ended _) ⟨_, rfl⟩)

/-- What comes of the first frame is what the connection does about it. -/
theorem tracked_opened (hP : Invariant may P) {x : Except LinkError (Option Frame)}
    (ht : Tracked P arrived taken ((greeted x h).1.entered, link, (greeted x h).2)) :
    Tracked P arrived taken (opened x .right link h) := by
  rcases x with e | _ | f
  · exact tracked_sayWhy hP ht
  · exact ht
  · rcases f with m | m | _ | s
    · cases m with
      | ping => exact tracked_acknowledge hP ht
      | echo => exact tracked_runTurn hP (t := Server.start .echo .awaitingPeerKey h) ht
      | session => exact tracked_runTurn hP (t := Server.start .serve .awaitingPeerKey h) ht
    · exact tracked_sayWhy hP ht
    · exact tracked_sayWhy hP ht
    · exact tracked_sayWhy hP ht

/-- **A run of a connection keeps account of the bytes.** -/
theorem tracked_advance (hP : Invariant may P) {c : Connection}
    (ht : Tracked P arrived taken (c, link, h)) :
    Tracked P arrived taken (c.advance .right link h) := by
  cases c with
  | opening reading =>
    obtain ⟨hsane, ds, hp, hds, p, q, said, rfl, hin, rfl, hopen, hwritten⟩ := ht
    rw [advance]
    obtain ⟨p', reading', hreceive, hin'⟩ | ⟨link, x, hreceive, hfaithful, hnext⟩ :=
      receive_cases hin hopen hwritten
    · rw [hreceive]
      exact ⟨hsane, ds, hp, hds, p', q, false, rfl, hin', rfl, hopen, hwritten⟩
    · rw [hreceive]
      exact tracked_opened hP (hP.tracked hsane hp hds (.opened x) hfaithful
        (hnext _ fun hx => deaf_greeted hx h))
  | acknowledging rest => exact tracked_acknowledge hP ht
  | refusing e s rest => exact tracked_sayWhy hP ht
  | session r => exact tracked_resume hP ht
  | ended result => exact ht

end Runs

end Connection

/-! ### A connection and the outside -/

/-- A connection that is worked from outside, and all the bytes that crossed. -/
structure Traffic (σ : Type) where
  /-- The connection, its link and its host. -/
  exchange : Exchange σ
  /-- The bytes that arrived. -/
  arrived : Bytes := ByteArray.empty
  /-- The bytes that were taken away. -/
  taken : Bytes := ByteArray.empty

namespace Traffic

variable {σ : Type}

/-- What can happen. -/
inductive Move (σ : Type) where
  /-- Bytes arrive, as many as find room. -/
  | arrive (b : Bytes)
  /-- Nothing more will arrive. -/
  | hangUp
  /-- Bytes are taken away, as far as there are any. -/
  | take (n : ℕ)
  /-- Others do something to the host: they use the store, time goes by, random bytes are
  drawn, the shutdown signal is raised. -/
  | others (f : Host σ → Host σ)
  /-- The connection runs on. -/
  | run

/-- The bytes that find room. -/
def accepts (b : Bytes) : Lane → Bytes
  | .queue _ => ByteArray.empty
  | .pipe p => p.accepts b

/-- Take bytes out of a lane. -/
def drain (n : ℕ) : Lane → Bytes × Lane
  | .queue q => (ByteArray.empty, .queue q)
  | .pipe p => (Bytes.take p.buffered n, .pipe (p.holding (Bytes.drop p.buffered n)))

/-- One move. -/
def step [Store σ] : Move σ → Traffic σ → Traffic σ
  | .arrive b, w =>
    { w with
      exchange := w.exchange.arrive b
      arrived := w.arrived ++ accepts b w.exchange.link.forth }
  | .hangUp, w => { w with exchange := w.exchange.arriveEnd }
  | .take n, w =>
    let (b, back) := drain n w.exchange.link.back
    { w with
      exchange := { w.exchange with link := { w.exchange.link with back } }
      taken := w.taken ++ b }
  | .others f, w => { w with exchange := { w.exchange with host := f w.exchange.host } }
  | .run, w =>
    let (connection, link, host) :=
      w.exchange.connection.advance .right w.exchange.link w.exchange.host
    { w with exchange := { host, link, connection } }

/-- A connection on which nothing has arrived, with this much room in both directions. -/
def start (capacity : ℕ) (h : Host σ) : Traffic σ := { exchange := ⟨h, .framed capacity, .fresh⟩ }

/-- The bytes that the connection has written. -/
def written (w : Traffic σ) : Bytes :=
  w.taken ++ match w.exchange.link.back with
    | .queue _ => ByteArray.empty
    | .pipe p => p.buffered

theorem written_eq {w : Traffic σ} {p q : Pipe} {said : Bool}
    (h : w.exchange.link = .pipes p q said) : w.written = w.taken ++ q.buffered := by
  rw [written, h]
  rfl

/-- The frames that have arrived so far. -/
def frames (w : Traffic σ) : List Frame := (Frame.framesOf .eof w.arrived).1

/-- The bytes that the connection has taken out of the pipe. -/
def consumed (w : Traffic σ) : Bytes :=
  match w.exchange.link.forth with
  | .queue _ => w.arrived
  | .pipe p => Bytes.take w.arrived (w.arrived.size - p.buffered.size)

/-- **The frames that the connection has taken** out of the pipe. -/
def heard (w : Traffic σ) : List Frame := (Frame.framesOf .eof w.consumed).1

/-- What the connection has taken are the frames of its dealings. -/
theorem heard_eq {w : Traffic σ} {p q : Pipe} {said : Bool} {fs : List Frame} {o : Option Reading}
    (hlink : w.exchange.link = .pipes p q said) (hin : Connection.Inbound w.arrived fs p o) :
    w.heard = fs := by
  obtain ⟨b, harrived, hb⟩ := hin.consumed
  have hconsumed : w.consumed = b := by
    have htake : Bytes.take (b ++ p.buffered) ((b ++ p.buffered).size - p.buffered.size) = b := by
      apply Bytes.ext_octets
      rw [ByteArray.size_append, Nat.add_sub_cancel, Bytes.octets_take, Bytes.octets_append]
      exact List.take_left' (Bytes.length_octets b)
    rw [consumed, hlink, harrived]
    exact htake
  rw [heard, hconsumed, hb]

/-- What others do to the host is what they may. -/
def Move.Keeps (may : Host σ → Host σ → Prop) : Move σ → Prop
  | .others f => ∀ h, may h (f h)
  | _ => True

variable [Store σ] {may : Host σ → Host σ → Prop}
  {P : List Dealing → Connection.Stage → Host σ → Prop} {h₀ : Host σ}

/-- The bytes that crossed are accounted for by dealings that are as `P` says. -/
def Sound (P : List Dealing → Connection.Stage → Host σ → Prop) (w : Traffic σ) : Prop :=
  Connection.Tracked P w.arrived w.taken
    (w.exchange.connection, w.exchange.link, w.exchange.host)

omit [Store σ] in
theorem sound_start (hstart : P [] .opening h₀) (capacity : ℕ) : Sound P (start capacity h₀) :=
  ⟨trivial, [], hstart, by simp, { capacity }, { capacity }, false, rfl,
    ⟨Reading.underway_empty, ByteArray.empty, rfl, Frame.spells_empty⟩, rfl, rfl, rfl⟩

/-- **Every move keeps account of the bytes.** -/
theorem sound_step (hP : Connection.Invariant may P) {m : Move σ} (hm : m.Keeps may)
    {w : Traffic σ} (hw : Sound P w) : Sound P (step m w) := by
  obtain ⟨⟨h, link, c⟩, arrived, taken⟩ := w
  cases m with
  | run => exact Connection.tracked_advance hP hw
  | others f =>
    obtain ⟨hsane, ds, hp, hds, ht⟩ := hw
    exact ⟨hsane, ds, hP.others hp (hm h), hds, ht⟩
  | arrive b =>
    obtain ⟨hsane, ds, hp, hds, p, q, said, hlink, hin, hout⟩ := hw
    obtain rfl : link = .pipes p q said := hlink
    refine ⟨hsane, ds, hp, hds, _, q, said, rfl, ?_, hout⟩
    dsimp only
    rw [Pipe.write_fst]
    exact hin.arrive _
  | hangUp =>
    obtain ⟨hsane, ds, hp, hds, p, q, said, hlink, hin, hout⟩ := hw
    obtain rfl : link = .pipes p q said := hlink
    exact ⟨hsane, ds, hp, hds, p.close, q, said, rfl, hin.close, hout⟩
  | take n =>
    obtain ⟨hsane, ds, hp, hds, p, q, said, hlink, hin, hout⟩ := hw
    obtain rfl : link = .pipes p q said := hlink
    have hwritten : taken ++ Bytes.take q.buffered n ++ Bytes.drop q.buffered n =
        taken ++ q.buffered := by
      rw [ByteArray.append_assoc, Bytes.take_append_drop]
    have hout' : Connection.Outbound (taken ++ Bytes.take q.buffered n ++
        (q.holding (Bytes.drop q.buffered n)).buffered) ds (q.holding (Bytes.drop q.buffered n))
        said c := by
      rw [Pipe.buffered_holding, hwritten]
      exact hout
    exact ⟨hsane, ds, hp, hds, p, _, said, rfl, hin, hout'⟩

/-- What is so at some moment remains so. -/
theorem sound_after_of_le (hP : Connection.Invariant may P) {sched : ℕ → Move σ}
    (hsched : ∀ n, (sched n).Keeps may) {w : Traffic σ} {n k : ℕ}
    (hn : Sound P (Schedule.after step sched w n)) (hk : n ≤ k) :
    Sound P (Schedule.after step sched w k) := by
  induction k, hk using Nat.le_induction with
  | base => exact hn
  | succ k _ ih => exact sound_step hP (hsched k) ih

/-- **At every moment** dealings that are as the invariant says account for the bytes that
arrived and those that were written. -/
theorem sound_after (hP : Connection.Invariant may P) (hstart : P [] .opening h₀)
    {sched : ℕ → Move σ} (hsched : ∀ n, (sched n).Keeps may) (capacity n : ℕ) :
    Sound P (Schedule.after step sched (start capacity h₀) n) :=
  sound_after_of_le hP hsched (n := 0) (sound_start hstart capacity) (Nat.zero_le n)

end Traffic

end Vault
