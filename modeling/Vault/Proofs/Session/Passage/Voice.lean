import Vault.Proofs.Schedule
import Vault.Proofs.Session.Duplex
import Vault.Proofs.Wire.Size

/-!
# What a server says, and when it is heard

A frame crosses a stream of bytes in as many portions as the pipe has room for. The client hears
exactly what the server says first (`Vault.Duplex.Voice`), whatever the server does afterwards: a
server that has said it (`Vault.Duplex.Quiet`) may be shut down and say its last frame, but that
stands behind the answer.

What is left to do is counted in bytes (`Vault.Duplex.rank`), and every poll does nothing or makes
it less.
-/

namespace Vault

variable {σ : Type} [Store σ]

namespace Duplex

/-! ### How much is left to do -/

/-- How many bytes of a frame are left to be written, and one more if it has yet to be
encoded. A frame that is too long counts as one that is a little too long. -/
def pending (f : Frame) : Option Bytes → ℕ
  | some b => b.size
  | none => min f.onWire.size (Frame.maxLength + 5) + 1

/-- More than there can be to write once a request has arrived. -/
def allowance : ℕ := 2 * (Frame.maxLength + 6) + 1

/-- What the client has to write. -/
def callerLoad : Client.Running → ℕ
  | ⟨.deliver (.request _ m), _, rest⟩ => 2 * pending (.message m) rest + 1
  | _ => 0

/-- What the server has to write, or may have to once it has read a request of which `n`
bytes are on their way. -/
def serverLoad (n : ℕ) : Server.Stop → ℕ
  | .waits ⟨_, _, .deliver d, _, rest⟩ => 2 * pending (frameOf d) rest
  | .waits ⟨_, _, .receive _, r, _⟩ => if n + r.taken.size = 0 then 0 else allowance
  | .ends .. => 0

/-- Whether a lane is yet to be closed. -/
def openings : Lane → ℕ
  | .pipe p => if p.closed then 0 else 1
  | .queue _ => 0

omit [Store σ] in
/-- How much is left to do before the call is over. A byte counts twice until it is in a
pipe and once until it is taken from there. -/
def rank (w : Duplex σ) : ℕ :=
  match w.caller with
  | .inr _ => 0
  | .inl c =>
    let n := callerLoad c + w.link.forth.backlog
    1 + n + serverLoad n w.stop + w.link.back.backlog + openings w.link.forth +
      openings w.link.back

/-- A move brings the end of the call nearer or does nothing, unless the call is over. -/
def Nearer (m : Move) (w : Duplex σ) : Prop :=
  (∃ o, w.caller = .inr o) ∨ step m w = w ∨ rank (step m w) < rank w

section Rank

variable {f : Frame} {rest : Option Bytes} {b front left : Bytes}

omit [Store σ] in
theorem rank_over (o : Client.Outcome) (link : Link) (stop : Server.Stop) (h : Host σ) :
    rank ⟨.inr o, link, stop, h⟩ = 0 := rfl

omit [Store σ] in
theorem rank_awaiting (secret : Crypto.SharedSecret) (r : Frame.Reading) (p q : Pipe) (said : Bool)
    (stop : Server.Stop) (h : Host σ) : rank ⟨awaiting secret r, .pipes p q said, stop, h⟩ =
      1 + p.buffered.size + serverLoad p.buffered.size stop + q.buffered.size +
        openings (.pipe p) + openings (.pipe q) := by
  simp only [rank, awaiting, callerLoad, Link.pipes, Lane.backlog, Nat.zero_add]

omit [Store σ] in
theorem rank_ended (running : Client.Running) (p q : Pipe) (said : Bool) (phase : Server.Phase)
    (result : Server.Outcome) (h : Host σ) :
    rank ⟨.inl running, .pipes p q said, .ends phase result, h⟩ =
      1 + (callerLoad running + p.buffered.size) + q.buffered.size + openings (.pipe p) +
        openings (.pipe q) := rfl

theorem openings_close (p : Pipe) :
    p.close = p ∨ openings (.pipe p.close) < openings (.pipe p) := by
  obtain ⟨buffered, capacity, closed⟩ := p
  cases closed with
  | false => exact Or.inr Nat.zero_lt_one
  | true => exact Or.inl rfl

theorem serverLoad_saying (n : ℕ) (phase : Server.Phase) (d : Server.Delivering)
    (rest : Option Bytes) : serverLoad n (saying phase d rest) = 2 * pending (frameOf d) rest := rfl

theorem openings_holding (p : Pipe) (b : Bytes) :
    openings (.pipe (p.holding b)) = openings (.pipe p) := rfl

theorem serverLoad_listening (secret : Crypto.SharedSecret) {r : Frame.Reading} {n : ℕ}
    (hn : n + r.taken.size ≠ 0) : serverLoad n (listening secret r) = allowance :=
  if_neg hn

omit [Store σ] in
theorem rank_asking (secret secret' : Crypto.SharedSecret) (m : Bytes) (rest : Option Bytes)
    (r : Frame.Reading) (p q : Pipe) (said : Bool) (h : Host σ) :
    rank ⟨asking secret m rest, .pipes p q said, listening secret' r, h⟩ =
      1 + (2 * pending (.message m) rest + 1 + p.buffered.size) + allowance + q.buffered.size +
        openings (.pipe p) + openings (.pipe q) := by
  rw [← serverLoad_listening secret' (r := r) (n := 2 * pending (.message m) rest + 1 +
    p.buffered.size) (by omega)]
  rfl

theorem pending_none_le (f : Frame) : pending f none ≤ Frame.maxLength + 6 := by
  rw [pending]
  omega

/-- A frame that is too long counts for more than one that is not. -/
theorem pending_none_lt {g : Frame} (hf : f.Fits) (hg : ¬g.Fits) :
    pending f none < pending g none := by
  have hlength : Frame.lengthBytes = 4 := rfl
  rw [Frame.Fits] at hf hg
  rw [pending, pending, Frame.size_onWire, Frame.size_onWire]
  omega

theorem size_le_pending (hb : f.Leaves rest b) : b.size ≤ pending f rest := by
  rcases hb with rfl | ⟨rfl, hf, rfl⟩
  · exact Nat.le_refl _
  · have hlength : Frame.lengthBytes = 4 := rfl
    have hsize := Frame.size_onWire f
    rw [Frame.Fits] at hf
    rw [pending]
    omega

/-- Writing part of a frame lowers what is left, unless it is the empty part. -/
theorem pending_part (hb : f.Leaves rest (front ++ left)) :
    rest = some left ∧ front = ByteArray.empty ∨
      front.size + 2 * pending f (some left) < 2 * pending f rest := by
  have hsize : (front ++ left).size = front.size + left.size := ByteArray.size_append
  rcases hb with rfl | ⟨rfl, hf, hwire⟩
  · by_cases hfront : front.size = 0
    · have hnone := ByteArray.size_eq_zero_iff.mp hfront
      exact Or.inl ⟨by rw [hnone, ByteArray.empty_append], hnone⟩
    · refine Or.inr ?_
      rw [pending, pending]
      omega
  · have hlength : Frame.lengthBytes = 4 := rfl
    have honWire := Frame.size_onWire f
    rw [Frame.Fits] at hf
    rw [hwire] at hsize
    refine Or.inr ?_
    rw [pending, pending]
    omega

end Rank

/-! ### Servers that have said what they say -/

/-- Nothing is under way in a pipe, and more may come. -/
def Idle (p : Pipe) : Prop := p.buffered.size = 0 ∧ p.closed = false

theorem read_idle {p : Pipe} (hp : Idle p) : p.read {} = (p, .waiting {}) := by
  rw [Pipe.read, Pipe.readOn, if_pos hp.1, hp.2]
  rfl

/-- To take all there is from a pipe is nothing only where there is nothing. -/
theorem emptied (p : Pipe) (taken : Bytes) :
    p.holding ByteArray.empty = p ∧ taken ++ p.buffered = taken ∨ p.buffered.size ≠ 0 := by
  by_cases hsize : p.buffered.size = 0
  · have hnone := ByteArray.size_eq_zero_iff.mp hsize
    refine Or.inl ⟨?_, ?_⟩
    · rw [← hnone, Pipe.holding_buffered]
    · rw [hnone, ByteArray.append_empty]
  · exact Or.inr hsize

/-- A server that has said all there is to say about a request. It may listen again where
nothing comes (`idle`). If it is never shut down (`calm`), it says nothing more at all. -/
inductive Quiet (calm idle : Prop) : Server.Stop → Prop
  | listening (secret : Crypto.SharedSecret) (hidle : idle) : Quiet calm idle (listening secret {})
  | closing (hcalm : ¬calm) (last : Except Status Unit) (result : Server.Outcome) (watched : Bool)
    (rest : Option Bytes) : Quiet calm idle (saying .terminated (.closing last result watched) rest)
  | ended (result : Server.Outcome) : Quiet calm idle (.ends .terminated result)

section Quiet

variable {calm idle : Prop} {p q : Pipe} {said : Bool} {h : Host σ} {t : Timestamp} {s : Signal}
  {stop : Server.Stop}

/-- A try to send keeps what is in the pipe in front. -/
theorem exists_send (q : Pipe) (f : Frame) (rest : Option Bytes) :
    ∃ q' x more, (Lane.pipe q).send f rest = (.pipe q', x) ∧
      q'.buffered = q.buffered ++ more := by
  have hwrites (b : Bytes) : ∃ q' x more, q.write b = (q', x) ∧
      q'.buffered = q.buffered ++ more := by
    obtain ⟨more, hmore⟩ := Pipe.exists_write q b
    exact ⟨_, _, more, rfl, congrArg Pipe.buffered hmore⟩
  rcases Frame.leaves_or_long f rest with ⟨b, hb⟩ | ⟨rfl, hf⟩
  · obtain ⟨q', x, more, hwrite, hmore⟩ := hwrites b
    exact ⟨q', _, more, Link.send_pipe hb hwrite, hmore⟩
  · exact ⟨q, _, ByteArray.empty, Link.send_pipe_long hf, ByteArray.append_empty.symm⟩

/-- So does a try to say the last frame. -/
theorem exists_finish (p q : Pipe) (said : Bool) (last : Except Status Unit)
    (rest : Option Bytes) :
    ∃ q' said' x more, (Link.pipes p q said).finish .right last rest = (.pipes p q' said', x) ∧
      q'.buffered = q.buffered ++ more := by
  cases said with
  | true => exact ⟨q, true, _, ByteArray.empty, rfl, ByteArray.append_empty.symm⟩
  | false =>
    obtain ⟨q', x, more, hlane, hmore⟩ := exists_send q (Link.closingFrame last) rest
    have hsend := Link.send_right_pipes (p := p) hlane
    rcases x with (e | _) | rest'
    · refine ⟨q', false, .ready (.error e), more, ?_, hmore⟩
      simp only [Link.finish, hsend]
      rfl
    · refine ⟨q'.close, true, .ready (.ok ()), more, ?_, hmore⟩
      simp only [Link.finish, hsend]
      rfl
    · refine ⟨q', false, .waiting rest', more, ?_, hmore⟩
      simp only [Link.finish, hsend]
      rfl

/-- A server that says its last frame does nothing else. -/
theorem serve_closing (c : Client.Running ⊕ Client.Outcome) (p q : Pipe) (said : Bool) (h : Host σ)
    (last : Except Status Unit) (result : Server.Outcome) (watched : Bool) (rest : Option Bytes) :
    ∃ q' said' stop' h' more, step (.serve t s)
        ⟨c, .pipes p q said, saying .terminated (.closing last result watched) rest, h⟩ =
          ⟨c, .pipes p q' said', stop', h'⟩ ∧
      (∀ calm idle : Prop, ¬calm → Quiet calm idle stop') ∧ h'.store = h.store ∧
      q'.buffered = q.buffered ++ more := by
  by_cases hshut : (watched && s.cancelled) = true
  · obtain ⟨hw, hs⟩ := Bool.and_eq_true_iff.mp hshut
    exact ⟨q, said, .ends .terminated (.ok .done), h.observing t s, ByteArray.empty,
      step_serve (Server.poll_interrupted
        (r := ⟨.serve, .terminated, .deliver (.closing last result watched), {}, rest⟩) hw hs _ h),
      fun _ _ _ => .ended _, rfl, ByteArray.append_empty.symm⟩
  · have hs : (Server.watched .serve (.deliver (.closing last result watched)) && s.cancelled) =
      false := Bool.eq_false_iff.mpr hshut
    obtain ⟨q', said', x, more, hfinish, hmore⟩ := exists_finish p q said last rest
    have hattempt : (Server.Delivering.closing last result watched).attempt (.pipes p q said)
      .right rest = _ := hfinish
    rcases x with x | rest'
    · have hturn : Server.delivered .serve .terminated (h.observing t s)
          (.closing last result watched) x = ⟨.terminated, h.observing t s, .inr result⟩ := by
        cases x <;> rfl
      exact ⟨q', said', .ends .terminated result, h.observing t s, more,
        step_serve (Server.poll_delivered hs hattempt hturn), fun _ _ _ => .ended _, rfl, hmore⟩
    · exact ⟨q', said', saying .terminated (.closing last result watched) rest', h, more,
        step_serve (Server.poll_delivering hs hattempt),
        fun _ _ hcalm => .closing hcalm _ _ _ _, rfl, hmore⟩

/-- **A poll of a server that has said what it says** changes nothing that matters. -/
theorem quiet_serve (hidle : idle → Idle p) (hquiet : Quiet calm idle stop)
    (hcalm : calm → s.cancelled = false) (c : Client.Running ⊕ Client.Outcome) (q : Pipe)
    (said : Bool) (h : Host σ) :
    ∃ idle' p' q' said' stop' h' more,
      step (.serve t s) ⟨c, .pipes p q said, stop, h⟩ = ⟨c, .pipes p' q' said', stop', h'⟩ ∧
      (idle' → idle) ∧ (idle' → Idle p') ∧ Quiet calm idle' stop' ∧ h'.store = h.store ∧
      q'.buffered = q.buffered ++ more ∧
      (calm → Nearer (.serve t s) ⟨c, .pipes p q said, stop, h⟩) := by
  cases hquiet with
  | listening secret hi =>
    by_cases hs : s.cancelled = true
    · have hnot : ¬calm := fun hc => Bool.false_ne_true ((hcalm hc).symm.trans hs)
      exact ⟨idle, p, q, said, _, _, ByteArray.empty, serve_shut hs _, id, hidle,
        .closing hnot _ _ _ _, rfl, ByteArray.append_empty.symm, fun hc => absurd hc hnot⟩
    · have hsame : step (.serve t s) ⟨c, .pipes p q said, listening secret {}, h⟩ =
          ⟨c, .pipes p q said, listening secret {}, h⟩ :=
        serve_reads_part (Bool.eq_false_iff.mpr hs) (read_idle (hidle hi))
      exact ⟨idle, p, q, said, _, _, ByteArray.empty, hsame, id, hidle, .listening secret hi, rfl,
        ByteArray.append_empty.symm, fun _ => Or.inr (Or.inl hsame)⟩
  | closing hnot last result watched rest =>
    obtain ⟨q', said', stop', h', more, hstep, hquiet, hstore, hmore⟩ :=
      serve_closing (t := t) (s := s) c p q said h last result watched rest
    exact ⟨idle, p, q', said', stop', h', more, hstep, id, hidle, hquiet calm idle hnot, hstore,
      hmore, fun hc => absurd hc hnot⟩
  | ended result =>
    have hstep : step (.serve t s) ⟨c, .pipes p q said, .ends .terminated result, h⟩ =
        ⟨c, .pipes p.close q.close said, .ends .terminated result, h⟩ := rfl
    refine ⟨False, p.close, q.close, said, _, h, ByteArray.empty, hstep, False.elim, False.elim,
      .ended result, rfl, ByteArray.append_empty.symm, fun _ => ?_⟩
    rcases c with running | o
    · rw [Nearer, hstep]
      refine Or.inr ?_
      have hp := openings_close p
      have hq := openings_close q
      rcases hp with hp | hp
      · rcases hq with hq | hq
        · exact Or.inl (by rw [hp, hq])
        · refine Or.inr ?_
          rw [rank_ended, rank_ended, hp]
          change _ + q.buffered.size + _ + _ < _
          omega
      · refine Or.inr ?_
        have hq' : openings (.pipe q.close) ≤ openings (.pipe q) := Nat.zero_le _
        rw [rank_ended, rank_ended]
        change 1 + (_ + p.buffered.size) + q.buffered.size + _ + _ < _
        omega
    · exact Or.inl ⟨o, rfl⟩

end Quiet

/-! ### Servers that speak -/

/-- Where a server stands when it says something about a request. -/
inductive Placed (idle : Prop) : Server.Phase → Server.Delivering → Prop
  | reply (secret : Crypto.SharedSecret) (envelope : Bytes) (hidle : idle) :
    Placed idle (.established secret) (.reply envelope)
  | closing (last : Except Status Unit) (result : Server.Outcome) :
    Placed idle .terminated (.closing last result false)

/-- **A server that says a frame**, some bytes of which are taken already: it is writing the
frame, or all of it is in the pipe. -/
inductive Voice (calm idle : Prop) (f : Frame) (taken : Bytes) (q : Pipe) :
    Bool → Server.Stop → Prop
  | saying {phase : Server.Phase} {d : Server.Delivering} {rest : Option Bytes} {b : Bytes}
    (hplaced : Placed idle phase d) (hframe : frameOf d = f) (hb : f.Leaves rest b)
    (hleft : b.size ≠ 0) (htogether : taken ++ q.buffered ++ b = f.onWire)
    (hopen : q.closed = false) (hroom : calm → 0 < q.capacity) :
    Voice calm idle f taken q false (saying phase d rest)
  | said {said : Bool} {stop : Server.Stop} {tail : Bytes}
    (htogether : taken ++ q.buffered = f.onWire ++ tail) (hshort : taken.size < f.onWire.size)
    (hquiet : Quiet calm idle stop) : Voice calm idle f taken q said stop

section Voice

variable {calm idle : Prop} {f : Frame} {taken b : Bytes} {p q : Pipe} {said : Bool} {h : Host σ}
  {t : Timestamp} {s : Signal} {stop : Server.Stop} {phase : Server.Phase}
  {d : Server.Delivering} {rest : Option Bytes}

/-- A frame that nobody has begun to write or read. -/
theorem voice_begins (hplaced : Placed idle phase d) (hfits : (frameOf d).Fits)
    (hq : Idle q) (hroom : calm → 0 < q.capacity) :
    Voice calm idle (frameOf d) ByteArray.empty q false (saying phase d none) := by
  have hnone := ByteArray.size_eq_zero_iff.mp hq.1
  refine .saying hplaced rfl (Or.inr ⟨rfl, hfits, rfl⟩) (Frame.size_onWire_pos _).ne' ?_ hq.2 hroom
  rw [hnone, ByteArray.empty_append, ByteArray.empty_append]

omit [Store σ] in
theorem turn_after_reply (secret : Crypto.SharedSecret) (envelope : Bytes) (h : Host σ)
    (t : Timestamp) (hs : s.cancelled = false) :
    Server.delivered .serve (.established secret) (h.observing t s) (.reply envelope) (.ok ()) =
      ⟨.established secret, h.observing t s, .inl (.receive .request)⟩ := by
  have hgoes : ¬(h.observing t s).signal.cancelled = true := by
    rw [show (h.observing t s).signal = s from rfl, hs]
    exact Bool.false_ne_true
  exact if_neg hgoes

omit [Store σ] in
theorem turn_after_reply_shut (secret : Crypto.SharedSecret) (envelope : Bytes) (h : Host σ)
    (t : Timestamp) (hs : s.cancelled = true) :
    Server.delivered .serve (.established secret) (h.observing t s) (.reply envelope) (.ok ()) =
      ⟨.terminated, h.observing t s, .inl (.deliver (.closing (.ok ()) (.ok .done) false))⟩ := by
  have hshut : (h.observing t s).signal.cancelled = true := hs
  exact if_pos hshut

/-- **A poll of a server that speaks** writes on at what it says. -/
theorem voice_serve (hidle : idle → Idle p) (hvoice : Voice calm idle f taken q said stop)
    (hcalm : calm → s.cancelled = false) (c : Client.Running ⊕ Client.Outcome) (h : Host σ) :
    ∃ idle' p' q' said' stop' h',
      step (.serve t s) ⟨c, .pipes p q said, stop, h⟩ = ⟨c, .pipes p' q' said', stop', h'⟩ ∧
      (idle' → idle) ∧ (idle' → Idle p') ∧ Voice calm idle' f taken q' said' stop' ∧
      h'.store = h.store ∧
      (calm → ∀ secret r, c = awaiting secret r →
        Nearer (.serve t s) ⟨c, .pipes p q said, stop, h⟩) := by
  cases hvoice with
  | @said _ _ tail htogether hshort hquiet =>
    obtain ⟨idle', p', q', said', stop', h', more, hstep, hkeep, hidle', hquiet', hstore, hmore,
      hnearer⟩ := quiet_serve hidle hquiet hcalm c q said h
    have hon : taken ++ q'.buffered = f.onWire ++ (tail ++ more) := by
      rw [hmore, ← ByteArray.append_assoc, htogether, ByteArray.append_assoc]
    exact ⟨idle', p', q', said', stop', h', hstep, hkeep, hidle', .said hon hshort hquiet', hstore,
      fun hc _ _ _ => hnearer hc⟩
  | @saying phase d rest b hplaced hframe hb hleft htogether hopen hroom =>
    subst hframe
    have hwatched : (Server.watched .serve (.deliver d) && s.cancelled) = false := by
      cases hplaced <;> rfl
    rcases Pipe.write_cases hleft hopen with hwrite | ⟨front, left, hsplit, hne, hwrite, -⟩
    · -- the rest of the frame is in the pipe
      have hsize := size_le_pending hb
      have hshort : taken.size < (frameOf d).onWire.size := by
        rw [← htogether, ByteArray.size_append, ByteArray.size_append]
        omega
      have hon : taken ++ (q.buffered ++ b) = (frameOf d).onWire ++ ByteArray.empty := by
        rw [← ByteArray.append_assoc, htogether, ByteArray.append_empty]
      cases hplaced with
      | reply secret envelope hi =>
        by_cases hs : s.cancelled = true
        · have hnot : ¬calm := fun hc => Bool.false_ne_true ((hcalm hc).symm.trans hs)
          have hstep := serve_writes (c := c) (p := p) hwatched hb hwrite
            (turn_after_reply_shut secret envelope h t hs)
          exact ⟨idle, p, _, false, _, _, hstep, id, hidle,
            .said hon hshort (.closing hnot _ _ _ _), rfl, fun hc => absurd hc hnot⟩
        · have hstep : step (.serve t s) ⟨c, .pipes p q false,
              saying (.established secret) (.reply envelope) rest, h⟩ =
                ⟨c, .pipes p (q.holding (q.buffered ++ b)) false, listening secret {},
                  h.observing t s⟩ :=
            serve_writes hwatched hb hwrite
              (turn_after_reply secret envelope h t (Bool.eq_false_iff.mpr hs))
          refine ⟨idle, p, _, false, _, _, hstep, id, hidle,
            .said hon hshort (.listening secret hi), rfl, fun hc secret' r hr => Or.inr (Or.inr ?_)⟩
          subst hr
          have hload : serverLoad 0 (listening secret {}) = 0 := rfl
          rw [hstep, rank_awaiting, rank_awaiting, (hidle hi).1, hload, serverLoad_saying,
            Pipe.buffered_holding, ByteArray.size_append, openings_holding]
          omega
      | closing last result =>
        have hstep : step (.serve t s)
            ⟨c, .pipes p q false, saying .terminated (.closing last result false) rest, h⟩ =
              ⟨c, .pipes p (q.holding (q.buffered ++ b)).close true, .ends .terminated result,
                h.observing t s⟩ :=
          serve_writes hwatched hb hwrite rfl
        refine ⟨False, p, _, true, _, _, hstep, False.elim, False.elim,
          .said hon hshort (.ended _), rfl, fun hc secret' r hr => Or.inr (Or.inr ?_)⟩
        subst hr
        have hsize' : (q.holding (q.buffered ++ b)).close.buffered.size =
            q.buffered.size + b.size := ByteArray.size_append
        have hclosed : openings (.pipe (q.holding (q.buffered ++ b)).close) = 0 := rfl
        rw [hstep, rank_awaiting, rank_awaiting, serverLoad_saying, serverLoad, hsize', hclosed]
        omega
    · -- part of it is, and the pipe is full
      subst hsplit
      have hstep : step (.serve t s) ⟨c, .pipes p q false, saying phase d rest, h⟩ =
          ⟨c, .pipes p (q.holding (q.buffered ++ front)) false, saying phase d (some left), h⟩ :=
        serve_writes_part hwatched hb hwrite
      have hon : taken ++ (q.buffered ++ front) ++ left = (frameOf d).onWire := by
        rw [← htogether]
        simp only [ByteArray.append_assoc]
      refine ⟨idle, p, _, false, _, _, hstep, id, hidle,
        .saying hplaced rfl (Or.inl rfl) hne hon hopen hroom, rfl, fun hc secret' r hr => Or.inr ?_⟩
      subst hr
      rw [hstep]
      rcases pending_part hb with ⟨rfl, rfl⟩ | hless
      · refine Or.inl ?_
        rw [ByteArray.append_empty, Pipe.holding_buffered]
      · refine Or.inr ?_
        rw [rank_awaiting, rank_awaiting, serverLoad_saying, serverLoad_saying,
          Pipe.buffered_holding, ByteArray.size_append, openings_holding]
        omega

end Voice

section Hears

variable {calm idle : Prop} {f : Frame} {taken : Bytes} {q : Pipe} {said : Bool}
  {stop : Server.Stop}

/-- **A poll of a client that hears a frame** takes all there is of it. -/
theorem voice_call (hfits : f.Fits) (hvoice : Voice calm idle f taken q said stop)
    (secret : Crypto.SharedSecret) (p : Pipe) (h : Host σ) :
    (∃ taken' q', step .call ⟨awaiting secret ⟨taken⟩, .pipes p q said, stop, h⟩ =
        ⟨awaiting secret ⟨taken'⟩, .pipes p q' said, stop, h⟩ ∧
      Voice calm idle f taken' q' said stop ∧
      Nearer .call ⟨awaiting secret ⟨taken⟩, .pipes p q said, stop, h⟩) ∨
    ∃ q', step .call ⟨awaiting secret ⟨taken⟩, .pipes p q said, stop, h⟩ =
        ⟨.inr (heard secret (.ok (some f))), .pipes p q' said, stop, h⟩ ∧
      Quiet calm idle stop := by
  cases hvoice with
  | said htogether hshort hquiet =>
    exact Or.inr ⟨_, call_hears (Pipe.read_whole hfits htogether hshort), hquiet⟩
  | saying hplaced hframe hb hleft htogether hopen hroom =>
    have hread := Pipe.read_partial (r := ⟨taken⟩) hfits htogether hleft hopen
    refine Or.inl ⟨taken ++ q.buffered, q.holding ByteArray.empty, call_hears_part hread,
      .saying hplaced hframe hb hleft ?_ hopen hroom, Or.inr ?_⟩
    · rw [Pipe.buffered_holding, ByteArray.append_empty, htogether]
    · rw [call_hears_part hread]
      rcases emptied q taken with ⟨hpipe, htaken⟩ | hsome
      · refine Or.inl ?_
        rw [hpipe, htaken]
      · refine Or.inr ?_
        rw [rank_awaiting, rank_awaiting, Pipe.buffered_holding, openings_holding,
          ByteArray.size_empty]
        omega

/-- A server that was shut down has nothing more to say about a request. -/
theorem quiet_of_voice (hcalm : ¬calm) (hvoice : Voice calm False f taken q said stop) :
    Quiet calm False stop := by
  cases hvoice with
  | said htogether hshort hquiet => exact hquiet
  | saying hplaced hframe hb hleft htogether hopen hroom =>
    cases hplaced with
    | reply secret envelope hidle => exact hidle.elim
    | closing last result => exact .closing hcalm last result false _

end Hears

end Duplex

end Vault
