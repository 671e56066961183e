import Vault.Link
import Vault.Proofs.Frame.Reading
import Vault.Proofs.Schedule

/-!
# Frames across a stream of bytes

A writer hands frames to a pipe, and a frame leaves in as many portions as the pipe has
room for. Whoever sits at the other end takes bytes out when and as they like, and what
they take are pieces with no regard to frames. The main statement
(`Vault.Frame.frames_cross_stream`) is that nothing of this shows: the bytes taken are
the frames behind their lengths, one after the other, without those that are too long to
be sent, and reading the pieces gives these frames back.

There are two halves to it. On the reading side, a string of frames cut off anywhere is
some whole frames and the front of one more, which is still on its way
(`Vault.Frame.framesOf_cut`). On the writing side, the bytes taken, the bytes in the
pipe and the bytes not yet written always make up the whole string
(`Vault.Frame.Crossing.Sound`), and a rank of what is left to do comes down as long as
the pipe is written to and emptied again and again.
-/

namespace Vault.Frame

open Cbor (concat)

/-! ### Frames on the wire -/

/-- A frame that is not too long to be sent. -/
def Fits (f : Frame) : Prop := f.encodeBody.size ≤ maxLength

instance : DecidablePred Fits := fun f => inferInstanceAs (Decidable (f.encodeBody.size ≤ _))

/-- A frame behind its length. -/
def onWire (f : Frame) : Bytes := Bytes.ofNatBE lengthBytes f.encodeBody.size ++ f.encodeBody

/-- The frames that are sent. -/
def accepted (frames : List Frame) : List Frame := frames.filter Fits

/-- The bytes on the wire. -/
def wire (frames : List Frame) : Bytes := concat ((accepted frames).map onWire)

/-- What becomes of a frame that is handed to a writer. -/
def outcome (f : Frame) : Except LinkError Unit :=
  if f.Fits then .ok () else .error (.outboundTooLarge f.encodeBody.size maxLength)

theorem encode_of_fits {f : Frame} (h : f.Fits) : f.encode = .ok f.onWire :=
  if_neg (Nat.not_lt_of_le h)

theorem encode_of_not_fits {f : Frame} (h : ¬f.Fits) :
    f.encode = .error (.outboundTooLarge f.encodeBody.size maxLength) :=
  if_pos (Nat.lt_of_not_le h)

theorem size_onWire (f : Frame) : f.onWire.size = lengthBytes + f.encodeBody.size := by
  rw [onWire, ByteArray.size_append, Bytes.size_ofNatBE]

theorem size_onWire_pos (f : Frame) : 0 < f.onWire.size := by
  rw [size_onWire]
  exact Nat.add_pos_left (by decide) _

theorem take_onWire (f : Frame) :
    Bytes.take f.onWire lengthBytes = Bytes.ofNatBE lengthBytes f.encodeBody.size := by
  apply Bytes.ext_octets
  rw [Bytes.octets_take, onWire, Bytes.octets_append]
  exact List.take_left' (by rw [Bytes.length_octets, Bytes.size_ofNatBE])

theorem drop_onWire (f : Frame) : Bytes.drop f.onWire lengthBytes = f.encodeBody := by
  apply Bytes.ext_octets
  rw [Bytes.octets_drop, onWire, Bytes.octets_append]
  exact List.drop_left' (by rw [Bytes.length_octets, Bytes.size_ofNatBE])

theorem accepted_cons_of_fits {f : Frame} (h : f.Fits) (frames : List Frame) :
    accepted (f :: frames) = f :: accepted frames :=
  List.filter_cons_of_pos (by simpa using h)

theorem accepted_cons_of_not_fits {f : Frame} (h : ¬f.Fits) (frames : List Frame) :
    accepted (f :: frames) = accepted frames :=
  List.filter_cons_of_neg (by simpa using h)

theorem wire_cons_of_fits {f : Frame} (h : f.Fits) (frames : List Frame) :
    wire (f :: frames) = f.onWire ++ wire frames := by
  rw [wire, accepted_cons_of_fits h, List.map_cons, Cbor.concat_cons, ← wire]

theorem wire_cons_of_not_fits {f : Frame} (h : ¬f.Fits) (frames : List Frame) :
    wire (f :: frames) = wire frames := by
  rw [wire, accepted_cons_of_not_fits h, ← wire]

theorem announced_onWire {f : Frame} (hf : f.Fits) {j : ℕ} (hj : lengthBytes ≤ j) :
    Reading.announced ⟨Bytes.take f.onWire j⟩ = f.encodeBody.size := by
  have htake : Bytes.take (Bytes.take f.onWire j) lengthBytes =
      Bytes.ofNatBE lengthBytes f.encodeBody.size := by
    rw [← take_onWire]
    apply Bytes.ext_octets
    rw [Bytes.octets_take, Bytes.octets_take, Bytes.octets_take, List.take_take,
      Nat.min_eq_left hj]
  have hsmall : f.encodeBody.size < 256 ^ lengthBytes := Nat.lt_of_le_of_lt hf (by decide)
  rw [Reading.announced, htake, Bytes.natBE_ofNatBE, Nat.mod_eq_of_lt hsmall]

/-- The front of a frame is a frame on its way. -/
theorem underway_onWire {f : Frame} (hf : f.Fits) {j : ℕ} (hj : j < f.onWire.size) :
    Reading.Underway ⟨Bytes.take f.onWire j⟩ := by
  have hsize : (Bytes.take f.onWire j).size = j := by
    rw [Bytes.size_take]
    omega
  rw [Reading.Underway, hsize]
  by_cases h4 : j < lengthBytes
  · exact Or.inl h4
  · rw [announced_onWire hf (Nat.le_of_not_lt h4)]
    rw [size_onWire] at hj
    exact Or.inr ⟨hf, hj⟩

/-- **A whole frame is read back**, and what follows it is left. -/
theorem firstOf_onWire (e : Ending) {f : Frame} (hf : f.Fits) (b : Bytes) :
    firstOf e (f.onWire ++ b) = (.ok (some f), b) := by
  have hfull : Bytes.take f.onWire f.onWire.size = f.onWire := by
    apply Bytes.ext_octets
    rw [Bytes.octets_take, ← Bytes.length_octets, List.take_length]
  have hann : Reading.announced ⟨f.onWire⟩ = f.encodeBody.size := by
    have h := announced_onWire hf (j := f.onWire.size) (by rw [size_onWire]; omega)
    rwa [hfull] at h
  have hexact : Reading.Exact ⟨f.onWire⟩ := by
    refine Or.inr ?_
    rw [hann, size_onWire]
  have hsettled : ¬Reading.Underway ⟨f.onWire⟩ := by
    rw [Reading.Underway, hann, size_onWire]
    omega
  have hdecode : decodeBody f.encodeBody = .ok f := by
    have h := decodeBody_encodeBody (f := f) (Nat.lt_of_le_of_lt hf (by decide)) ByteArray.empty
    rwa [ByteArray.append_empty] at h
  obtain ⟨hdone, hafter⟩ := firstOf_of_settled e hsettled hexact b
  rw [Reading.progress_of_not_underway hsettled, hann, if_neg (Nat.not_lt_of_le hf),
    drop_onWire, hdecode] at hdone
  have hfirst : (firstOf e (f.onWire ++ b)).1 = .ok (some f) := (Progress.done.inj hdone).symm
  exact Prod.ext hfirst (hafter f hfirst)

/-- How the reading of a string of frames ends that stops `j` bytes into a frame. -/
def Ending.verdict (e : Ending) (j : ℕ) : Except LinkError Unit :=
  match e with
  | .failure text => .error (.io text)
  | .eof =>
    if j = 0 then .ok ()
    else if j < lengthBytes then .error (.protocol "stream ended inside a length prefix")
    else .error (.protocol "stream ended inside a frame")

/-- Nothing is read of a frame that is still on its way. -/
theorem framesOf_of_underway (e : Ending) {r : Reading} (h : r.Underway) :
    framesOf e r.taken = ([], e.verdict r.taken.size) := by
  rw [framesOf_eq, firstOf_of_underway e h]
  cases e with
  | failure text => rfl
  | eof =>
    rw [Ending.stop, Reading.atEnd, Ending.verdict]
    split_ifs <;> rfl

theorem framesOf_empty (e : Ending) : framesOf e ByteArray.empty = ([], e.verdict 0) :=
  framesOf_of_underway e Reading.underway_empty

theorem framesOf_onWire (e : Ending) {f : Frame} (hf : f.Fits) (b : Bytes) :
    framesOf e (f.onWire ++ b) = (f :: (framesOf e b).1, (framesOf e b).2) := by
  rw [framesOf_eq, firstOf_onWire e hf b]

/-- Frames that fit are read back, and what follows them is read on. -/
theorem framesOf_wire_append (e : Ending) (frames : List Frame) (b : Bytes) :
    framesOf e (wire frames ++ b) =
      (accepted frames ++ (framesOf e b).1, (framesOf e b).2) := by
  induction frames with
  | nil =>
    rw [wire, accepted, List.filter_nil, List.map_nil, Cbor.concat_nil, ByteArray.empty_append]
    rfl
  | cons f frames ih =>
    by_cases hf : f.Fits
    · rw [wire_cons_of_fits hf, ByteArray.append_assoc, framesOf_onWire e hf, ih,
        accepted_cons_of_fits hf, List.cons_append]
    · rw [wire_cons_of_not_fits hf, ih, accepted_cons_of_not_fits hf]

/-- **Where a string of frames may be cut**: after some whole frames and inside one more,
or right before it. -/
theorem exists_cut {frames : List Frame} {k : ℕ} (hk : k < (wire frames).size) :
    ∃ before f rest, accepted frames = before ++ f :: rest ∧ (wire before).size ≤ k ∧
      k < (wire before).size + f.onWire.size ∧ f.Fits ∧
      Bytes.take (wire frames) k =
        wire before ++ Bytes.take f.onWire (k - (wire before).size) := by
  induction frames generalizing k with
  | nil => exact absurd hk (Nat.not_lt_zero k)
  | cons g frames ih =>
    by_cases hg : g.Fits
    · rw [wire_cons_of_fits hg] at hk ⊢
      rw [accepted_cons_of_fits hg]
      by_cases hin : k < g.onWire.size
      · refine ⟨[], g, accepted frames, rfl, Nat.zero_le k, ?_, hg, ?_⟩
        · exact Nat.lt_of_lt_of_le hin (Nat.le_add_left _ _)
        · apply Bytes.ext_octets
          rw [Bytes.octets_take, Bytes.octets_append, Bytes.octets_append, Bytes.octets_take,
            List.take_append_of_le_length (by rw [Bytes.length_octets]; omega)]
          rfl
      · rw [ByteArray.size_append] at hk
        obtain ⟨before, f, rest, hsplit, hlo, hhi, hf, htake⟩ :=
          ih (k := k - g.onWire.size) (by omega)
        have hwire := wire_cons_of_fits hg before
        have hsize : (wire (g :: before)).size = g.onWire.size + (wire before).size := by
          rw [hwire, ByteArray.size_append]
        refine ⟨g :: before, f, rest, by rw [hsplit]; rfl, by omega, by omega, hf, ?_⟩
        rw [hwire, ByteArray.append_assoc, ← hwire, hsize, ← Nat.sub_sub, ← htake]
        apply Bytes.ext_octets
        rw [Bytes.octets_take, Bytes.octets_append, Bytes.octets_append, Bytes.octets_take,
          List.take_append, List.take_of_length_le (by rw [Bytes.length_octets]; omega),
          Bytes.length_octets]
    · rw [wire_cons_of_not_fits hg] at hk ⊢
      rw [accepted_cons_of_not_fits hg]
      exact ih hk

/-! ### Writing into a pipe -/

/-- A writer with frames to send, the pipe, and what was taken out of it. -/
structure Crossing where
  /-- The pipe. -/
  pipe : Pipe
  /-- The frames that are not through, the one under way first. -/
  todo : List Frame
  /-- The bytes left of a frame that has begun to leave. -/
  rest : Option Bytes := none
  /-- What became of the frames before. -/
  results : List (Except LinkError Unit) := []
  /-- What was taken out of the pipe. -/
  pieces : List Bytes := []

namespace Crossing

/-- Who moves. -/
inductive Move where
  /-- The writer tries again. -/
  | write
  /-- The other end takes some bytes, as far as there are any. -/
  | take (n : ℕ)
  deriving DecidableEq

/-- The writer tries to send the next frame. -/
def write (s : Crossing) : Crossing :=
  match s.todo with
  | [] => s
  | f :: todo =>
    match (Lane.pipe s.pipe).send f s.rest with
    | (.pipe pipe, .ready result) =>
      { s with pipe, todo, rest := none, results := s.results ++ [result] }
    | (.pipe pipe, .waiting rest) => { s with pipe, rest }
    | (.queue _, _) => s

/-- The other end takes some bytes. -/
def take (n : ℕ) (s : Crossing) : Crossing :=
  { s with
    pipe := { s.pipe with buffered := Bytes.drop s.pipe.buffered n }
    pieces := s.pieces ++ [Bytes.take s.pipe.buffered n] }

/-- One move. -/
def step : Move → Crossing → Crossing
  | .write => write
  | .take n => take n

/-- The bytes that are still to be written. -/
def unwritten (s : Crossing) : Bytes :=
  match s.rest with
  | none => wire s.todo
  | some b => b ++ wire s.todo.tail

/-- **Nothing is lost and nothing comes from nowhere**: what was taken, what is in the pipe
and what is still to be written make up the frames on the wire. -/
structure Sound (frames : List Frame) (s : Crossing) : Prop where
  together : concat s.pieces ++ s.pipe.buffered ++ s.unwritten = wire frames
  results : s.results ++ s.todo.map outcome = frames.map outcome
  begun : ∀ b, s.rest = some b → b.size ≠ 0 ∧ ∃ f todo, s.todo = f :: todo ∧ f.Fits
  room : s.pipe.buffered.size ≤ s.pipe.capacity
  capacity : 0 < s.pipe.capacity
  unclosed : s.pipe.closed = false

variable {frames : List Frame} {s : Crossing}

/-- What a try makes of the bytes `b` of a frame: as many as there is room for are in the
pipe, and the frame is through once none are left. -/
def pushed (s : Crossing) (b : Bytes) (todo : List Frame) : Crossing :=
  let room := s.pipe.capacity - s.pipe.buffered.size
  let pipe := { s.pipe with buffered := s.pipe.buffered ++ Bytes.take b room }
  if (Bytes.drop b room).size = 0 then
    { s with pipe, todo, rest := none, results := s.results ++ [.ok ()] }
  else { s with pipe, rest := some (Bytes.drop b room) }

/-- The bytes of a frame are those left of it, or all of them when it has not begun. -/
theorem write_eq_pushed {f : Frame} {todo : List Frame} {b : Bytes} (hopen : s.pipe.closed = false)
    (htodo : s.todo = f :: todo)
    (hrest : s.rest = some b ∨ s.rest = none ∧ f.encode = .ok b) (hb : b.size ≠ 0) :
    s.write = s.pushed b todo := by
  have hsend : (Lane.pipe s.pipe).send f s.rest = (Lane.pipe s.pipe).send f (some b) := by
    rcases hrest with hrest | ⟨hrest, hencode⟩
    · rw [hrest]
    · simp only [Lane.send, hrest, hencode]
  have hclosed : ¬s.pipe.closed = true := by
    rw [hopen]
    exact Bool.false_ne_true
  simp only [write, htodo, hsend, pushed]
  simp only [Lane.send, Pipe.write, if_neg hb, if_neg hclosed]
  by_cases hleft : (Bytes.drop b (s.pipe.capacity - s.pipe.buffered.size)).size = 0
  · rw [if_pos hleft, if_pos hleft]
  · rw [if_neg hleft, if_neg hleft]

/-- **What a try can do**: nothing when all is through; refuse a frame that is too long,
with nothing written; or write of the next frame what there is room for. -/
theorem write_cases (h : Sound frames s) :
    (s.todo = [] ∧ s.write = s) ∨
    (∃ f todo, s.todo = f :: todo ∧ s.rest = none ∧ ¬f.Fits ∧
      s.write = { s with todo, rest := none, results := s.results ++ [outcome f] }) ∨
    (∃ f todo b, s.todo = f :: todo ∧ f.Fits ∧ b.size ≠ 0 ∧ s.unwritten = b ++ wire todo ∧
      s.write = s.pushed b todo) := by
  rcases htodo : s.todo with _ | ⟨f, todo⟩
  · refine Or.inl ⟨rfl, ?_⟩
    rw [write, htodo]
  refine Or.inr ?_
  rcases hrest : s.rest with _ | b
  · by_cases hf : f.Fits
    · refine Or.inr ⟨f, todo, f.onWire, rfl, hf, Nat.ne_of_gt (size_onWire_pos f), ?_, ?_⟩
      · rw [unwritten, hrest, htodo]
        exact wire_cons_of_fits hf todo
      · exact write_eq_pushed h.unclosed htodo (Or.inr ⟨hrest, encode_of_fits hf⟩)
          (Nat.ne_of_gt (size_onWire_pos f))
    · refine Or.inl ⟨f, todo, rfl, rfl, hf, ?_⟩
      have hsend : (Lane.pipe s.pipe).send f s.rest = (.pipe s.pipe, .ready (outcome f)) := by
        simp only [Lane.send, hrest, encode_of_not_fits hf, outcome, if_neg hf]
      simp only [write, htodo, hsend]
  · -- a frame that has begun was not refused
    obtain ⟨hb, g, todo', htodo', hg⟩ := h.begun b hrest
    rw [htodo] at htodo'
    obtain ⟨rfl, rfl⟩ := List.cons.inj htodo'
    refine Or.inr ⟨f, todo, b, rfl, hg, hb, ?_, write_eq_pushed h.unclosed htodo (Or.inl hrest) hb⟩
    rw [unwritten, hrest, htodo]
    rfl

/-! ### What every move keeps -/

theorem sound_pushed (h : Sound frames s) {f : Frame} {todo : List Frame} {b : Bytes}
    (htodo : s.todo = f :: todo) (hf : f.Fits) (hbytes : s.unwritten = b ++ wire todo) :
    Sound frames (s.pushed b todo) := by
  have htogether := h.together
  have hresults := h.results
  rw [hbytes] at htogether
  rw [htodo, List.map_cons] at hresults
  have hroom : (s.pipe.buffered ++
      Bytes.take b (s.pipe.capacity - s.pipe.buffered.size)).size ≤ s.pipe.capacity := by
    have := h.room
    rw [ByteArray.size_append, Bytes.size_take]
    omega
  have hsplit := Bytes.take_append_drop b (s.pipe.capacity - s.pipe.buffered.size)
  rw [pushed]
  split_ifs with hleft
  · -- there was room for all of it
    have hall : Bytes.take b (s.pipe.capacity - s.pipe.buffered.size) = b := by
      rw [ByteArray.size_eq_zero_iff.mp hleft, ByteArray.append_empty] at hsplit
      exact hsplit
    refine ⟨?_, ?_, nofun, hroom, h.capacity, h.unclosed⟩
    · dsimp only [unwritten]
      rw [hall, ← htogether]
      simp only [ByteArray.append_assoc]
    · dsimp only
      rw [← hresults, outcome, if_pos hf, List.append_assoc]
      rfl
  · refine ⟨?_, h.results, ?_, hroom, h.capacity, h.unclosed⟩
    · dsimp only [unwritten]
      rw [htodo, List.tail_cons, ← htogether]
      nth_rewrite 3 [← hsplit]
      simp only [ByteArray.append_assoc]
    · rintro b' hb'
      obtain rfl := Option.some.inj hb'
      exact ⟨hleft, f, todo, htodo, hf⟩

/-- **What was taken, what is in the pipe and what is to be written stay one string.** -/
theorem sound_step (m : Move) (h : Sound frames s) : Sound frames (step m s) := by
  cases m with
  | write =>
    rw [step]
    obtain ⟨-, hw⟩ | ⟨f, todo, htodo, hrest, hf, hw⟩ | ⟨f, todo, b, htodo, hf, -, hbytes, hw⟩ :=
      write_cases h
    · rw [hw]
      exact h
    · rw [hw]
      refine ⟨?_, ?_, nofun, h.room, h.capacity, h.unclosed⟩
      · rw [← h.together, unwritten, unwritten, hrest, htodo, wire_cons_of_not_fits hf]
      · rw [← h.results, htodo, List.map_cons, List.append_assoc]
        rfl
    · rw [hw]
      exact sound_pushed h htodo hf hbytes
  | take n =>
    refine ⟨?_, h.results, h.begun, ?_, h.capacity, h.unclosed⟩
    · have hsplit := Bytes.take_append_drop s.pipe.buffered n
      have hpieces : concat (s.pieces ++ [Bytes.take s.pipe.buffered n]) =
          concat s.pieces ++ Bytes.take s.pipe.buffered n := by
        apply Bytes.ext_octets
        rw [Bytes.octets_append, Cbor.octets_concat, Cbor.octets_concat, List.map_append,
          List.flatten_append, List.map_singleton, List.flatten_singleton]
      have htogether := h.together
      rw [← hsplit, ← ByteArray.append_assoc, ← hpieces] at htogether
      exact htogether
    · have := h.room
      dsimp only [step, take]
      rw [Bytes.size_drop]
      omega

/-! ### What is left to do -/

/-- Frames that are not through, bytes in the pipe, and twice the bytes to be written, which
are in the pipe on their way. -/
def rank (s : Crossing) : ℕ :=
  s.todo.length + 2 * s.unwritten.size + s.pipe.buffered.size

/-- What helps: taking bytes when there are some, and writing when there are none. -/
def Helps (s : Crossing) : Move → Prop
  | .write => s.pipe.buffered.size = 0 ∧ s.todo ≠ []
  | .take n => s.pipe.buffered.size ≠ 0 ∧ 0 < n

theorem rank_pushed (h : Sound frames s) {f : Frame} {todo : List Frame} {b : Bytes}
    (htodo : s.todo = f :: todo) (hbytes : s.unwritten = b ++ wire todo) :
    rank (s.pushed b todo) < rank s ∨
      rank (s.pushed b todo) = rank s ∧
        (s.pushed b todo).pipe.buffered.size = s.pipe.buffered.size ∧
        (s.pushed b todo).todo = s.todo ∧ ¬Helps s .write := by
  have hrank : rank s = todo.length + 1 + 2 * (b.size + (wire todo).size) +
      s.pipe.buffered.size := by
    rw [rank, hbytes, htodo, List.length_cons, ByteArray.size_append]
  have hcapacity := h.capacity
  rw [hrank, pushed]
  split_ifs with hleft
  · refine Or.inl ?_
    rw [rank, unwritten]
    dsimp only
    rw [ByteArray.size_append, Bytes.size_take]
    omega
  · have hsize : (s.pipe.buffered ++
        Bytes.take b (s.pipe.capacity - s.pipe.buffered.size)).size =
        s.pipe.buffered.size + (s.pipe.capacity - s.pipe.buffered.size) := by
      rw [Bytes.size_drop] at hleft
      rw [ByteArray.size_append, Bytes.size_take]
      omega
    rw [rank, unwritten]
    dsimp only
    rw [hsize, htodo, List.tail_cons, List.length_cons, ByteArray.size_append, Bytes.size_drop]
    rw [Bytes.size_drop] at hleft
    -- a pipe with nothing in it has room, so writing would have helped
    rcases Nat.eq_zero_or_pos (s.pipe.capacity - s.pipe.buffered.size) with hfull | hspace
    · refine Or.inr ⟨by omega, by omega, rfl, fun hhelps => ?_⟩
      have := hhelps.1
      omega
    · exact Or.inl (by omega)

/-- **A move brings the end nearer, or it changes nothing that matters**; one that helps
brings it nearer. -/
theorem rank_step (m : Move) (h : Sound frames s) : rank (step m s) < rank s ∨
    rank (step m s) = rank s ∧ (step m s).pipe.buffered.size = s.pipe.buffered.size ∧
      (step m s).todo = s.todo ∧ ¬Helps s m := by
  cases m with
  | write =>
    rw [step]
    obtain ⟨hnil, hw⟩ | ⟨f, todo, htodo, hrest, hf, hw⟩ | ⟨f, todo, b, htodo, -, hb, hbytes, hw⟩ :=
      write_cases h
    · rw [hw]
      exact Or.inr ⟨rfl, rfl, rfl, fun hhelps => hhelps.2 hnil⟩
    · rw [hw]
      refine Or.inl ?_
      rw [rank, rank, unwritten, unwritten, hrest, htodo]
      dsimp only
      rw [wire_cons_of_not_fits hf, List.length_cons]
      omega
    · rw [hw]
      exact rank_pushed h htodo hbytes
  | take n =>
    have hsize : (step (.take n) s).pipe.buffered.size = s.pipe.buffered.size - n :=
      Bytes.size_drop _ _
    have hrank : rank (step (.take n) s) =
        s.todo.length + 2 * s.unwritten.size + (s.pipe.buffered.size - n) :=
      congrArg (s.todo.length + 2 * s.unwritten.size + ·) hsize
    by_cases hhelps : Helps s (.take n)
    · refine Or.inl ?_
      have := hhelps.1
      have := hhelps.2
      rw [hrank, rank]
      omega
    · have hnone : s.pipe.buffered.size = 0 ∨ n = 0 := by
        by_contra hc
        exact hhelps ⟨fun h0 => hc (Or.inl h0), by omega⟩
      refine Or.inr ⟨?_, ?_, rfl, hhelps⟩
      · rw [hrank, rank]
        omega
      · rw [hsize]
        omega

/-! ### Whole runs -/

/-- Nothing is written and nothing is in the pipe. -/
def start (frames : List Frame) (capacity : ℕ) : Crossing :=
  { pipe := { capacity }, todo := frames }

theorem sound_start {capacity : ℕ} (h : 0 < capacity) : Sound frames (start frames capacity) := by
  refine ⟨?_, rfl, nofun, Nat.zero_le _, h, rfl⟩
  change ByteArray.empty ++ ByteArray.empty ++ wire frames = wire frames
  rw [ByteArray.empty_append, ByteArray.empty_append]

theorem sound_after {capacity : ℕ} (h : 0 < capacity) (sched : ℕ → Move) (k : ℕ) :
    Sound frames (Schedule.after step sched (start frames capacity) k) :=
  Schedule.after_keeps (Sound frames) (fun m _ => sound_step m) (n := 0) (sound_start h)
    (Nat.zero_le k)

/-- With nothing left to do, every frame has its result and every byte has been taken. -/
theorem finished (h : Sound frames s) (hzero : rank s = 0) :
    s.results = frames.map outcome ∧ concat s.pieces = wire frames := by
  rw [rank] at hzero
  have htodo : s.todo = [] := List.length_eq_zero_iff.mp (by omega)
  have hbuffered : s.pipe.buffered = ByteArray.empty :=
    ByteArray.size_eq_zero_iff.mp (by omega)
  have hunwritten : s.unwritten = ByteArray.empty := ByteArray.size_eq_zero_iff.mp (by omega)
  refine ⟨?_, ?_⟩
  · rw [← h.results, htodo, List.map_nil, List.append_nil]
  · rw [← h.together, hbuffered, hunwritten, ByteArray.append_empty, ByteArray.append_empty]

/-- As long as something is left to do and the pipe is empty, there is a frame to write. -/
theorem todo_ne_nil (h : Sound frames s) (hempty : s.pipe.buffered.size = 0)
    (hpos : 0 < rank s) : s.todo ≠ [] := by
  intro hnil
  rcases hrest : s.rest with _ | b
  · rw [rank, unwritten, hrest, hnil, hempty] at hpos
    exact absurd hpos (by decide)
  · obtain ⟨-, f, todo, hcons, -⟩ := h.begun b hrest
    rw [hnil] at hcons
    nomatch hcons

/-- **Everything gets across**, when the writer tries again and again and bytes are taken
again and again. -/
theorem eventually_finished {capacity : ℕ} (hcapacity : 0 < capacity) {sched : ℕ → Move}
    (hwrite : Schedule.Again sched (· = .write))
    (htake : Schedule.Again sched fun m => ∃ n, m = .take (n + 1)) :
    ∃ n, ∀ k, n ≤ k →
      (Schedule.after step sched (start frames capacity) k).results = frames.map outcome ∧
      concat (Schedule.after step sched (start frames capacity) k).pieces = wire frames := by
  have hle (m : Move) (s : Crossing) (h : Sound frames s) : rank (step m s) ≤ rank s := by
    rcases rank_step m h with hlt | ⟨heq, -⟩ <;> omega
  have hstay (m : Move) (s : Crossing) (h : Sound frames s) (heq : rank (step m s) = rank s)
      (m' : Move) (hm' : Helps s m') : Helps (step m s) m' := by
    rcases rank_step m h with hlt | ⟨-, hsize, htodo, -⟩
    · omega
    · cases m' with
      | write => exact ⟨hsize ▸ hm'.1, htodo ▸ hm'.2⟩
      | take n => exact ⟨hsize ▸ hm'.1, hm'.2⟩
  have hdown (m : Move) (s : Crossing) (h : Sound frames s) (hm : Helps s m) :
      rank (step m s) < rank s := by
    rcases rank_step m h with hlt | ⟨-, -, -, hno⟩
    · exact hlt
    · exact absurd hm hno
  have hagain (s : Crossing) (h : Sound frames s) (hpos : 0 < rank s) :
      Schedule.Again sched (Helps s) := by
    intro n
    -- an empty pipe is for the writer, any other for the one who takes
    by_cases hempty : s.pipe.buffered.size = 0
    · obtain ⟨k, hk, hm⟩ := hwrite n
      exact ⟨k, hk, hm ▸ ⟨hempty, todo_ne_nil h hempty hpos⟩⟩
    · obtain ⟨k, hk, j, hm⟩ := htake n
      exact ⟨k, hk, hm ▸ ⟨hempty, Nat.succ_pos j⟩⟩
  have hsound (k : ℕ) : Sound frames (Schedule.after step sched (start frames capacity) k) :=
    sound_after hcapacity sched k
  obtain ⟨n, -, hn⟩ := Schedule.reaches_rank_zero (Sound frames) rank Helps
    (fun m _ => sound_step m) hle hstay hdown hagain (hsound 0)
  refine ⟨n, fun k hk => finished (hsound k) ?_⟩
  induction k, hk using Nat.le_induction with
  | base => exact hn
  | succ k _ ih => exact Nat.le_zero.mp (ih ▸ hle (sched k) _ (hsound k))

end Crossing

/-! ### Writing and reading -/

theorem bytesOf_map_bytes (pieces : List Bytes) : bytesOf (pieces.map .bytes) = concat pieces := by
  induction pieces with
  | nil => rfl
  | cons b pieces ih => rw [List.map_cons, bytesOf, ih, Cbor.concat_cons]

theorem ending_map_bytes (pieces : List Bytes) : ending (pieces.map .bytes) = .eof := by
  induction pieces with
  | nil => rfl
  | cons b pieces ih => rw [List.map_cons, ending, ih]

theorem readAll_wire {frames : List Frame} {pieces : List Piece}
    (h : bytesOf pieces = wire frames) :
    readAll pieces = (accepted frames, (ending pieces).verdict 0) := by
  have hwire := framesOf_wire_append (ending pieces) frames ByteArray.empty
  rw [ByteArray.append_empty, framesOf_empty, List.append_nil] at hwire
  rw [readAll_eq_framesOf, h, hwire]

/-- The frames wholly before the cut are read, and the cut decides how the reading ends. -/
theorem readAll_cut {frames : List Frame} {pieces : List Piece} {k : ℕ}
    (hk : k < (wire frames).size) (h : bytesOf pieces = Bytes.take (wire frames) k) :
    ∃ before f rest, accepted frames = before ++ f :: rest ∧ (wire before).size ≤ k ∧
      k < (wire before).size + f.onWire.size ∧
      readAll pieces = (before, (ending pieces).verdict (k - (wire before).size)) := by
  obtain ⟨before, f, rest, hsplit, hlo, hhi, hf, htake⟩ := exists_cut hk
  have hinside : k - (wire before).size < f.onWire.size := by omega
  have hall : accepted before = before := by
    refine List.filter_eq_self.mpr fun g hg => ?_
    have hmem : g ∈ accepted frames := by
      rw [hsplit]
      exact List.mem_append_left _ hg
    exact (List.mem_filter.mp hmem).2
  refine ⟨before, f, rest, hsplit, hlo, hhi, ?_⟩
  have hsize : (Bytes.take f.onWire (k - (wire before).size)).size = k - (wire before).size := by
    rw [Bytes.size_take]
    omega
  rw [readAll_eq_framesOf, h, htake, framesOf_wire_append,
    framesOf_of_underway _ (underway_onWire hf hinside), hall, hsize, List.append_nil]

/-- **Frames cross a stream of bytes, however it is cut into pieces.**

Whatever the room in the pipe, and whenever bytes are taken out of it, the bytes on the
wire are a front piece of the accepted frames behind their lengths, and in the end all of
them; a frame that is too long is refused and writes nothing; and what was taken, piece by
piece, reads back as the frames that were accepted. For every other way to cut the same
bytes into pieces the frames read are the same, and then comes the end of the stream, or
the failure that it ends with. When bytes are missing at the end, the frames wholly before
the cut are read, and the reading ends cleanly between two frames, inside a length or
inside a frame as the cut does. And for bytes of any kind, nothing but the bytes and how
they end decides what is read. -/
theorem frames_cross_stream (frames : List Frame) :
    (∀ (capacity : ℕ) (sched : ℕ → Crossing.Move), 0 < capacity →
      (∀ k, ∃ b, concat (Schedule.after Crossing.step sched (.start frames capacity) k).pieces ++
        (Schedule.after Crossing.step sched (.start frames capacity) k).pipe.buffered ++ b =
          wire frames) ∧
      (Schedule.Again sched (· = .write) →
        Schedule.Again sched (fun m => ∃ n, m = .take (n + 1)) →
        ∃ n, ∀ k, n ≤ k →
          (Schedule.after Crossing.step sched (.start frames capacity) k).results =
            frames.map outcome ∧
          concat (Schedule.after Crossing.step sched (.start frames capacity) k).pieces =
            wire frames ∧
          readAll ((Schedule.after Crossing.step sched (.start frames capacity) k).pieces.map
            .bytes) = (accepted frames, .ok ()))) ∧
    (∀ pieces, bytesOf pieces = wire frames →
      readAll pieces = (accepted frames, (ending pieces).verdict 0)) ∧
    (∀ pieces k, k < (wire frames).size → bytesOf pieces = Bytes.take (wire frames) k →
      ∃ before f rest, accepted frames = before ++ f :: rest ∧ (wire before).size ≤ k ∧
        k < (wire before).size + f.onWire.size ∧
        readAll pieces = (before, (ending pieces).verdict (k - (wire before).size))) ∧
    (∀ pieces pieces', bytesOf pieces = bytesOf pieces' → ending pieces = ending pieces' →
      readAll pieces = readAll pieces') := by
  refine ⟨fun capacity sched hcapacity => ⟨fun k => ?_, fun hwrite htake => ?_⟩,
    fun pieces h => readAll_wire h, fun pieces k hk h => readAll_cut hk h,
    fun pieces pieces' hb he => ?_⟩
  · exact ⟨_, (Crossing.sound_after hcapacity sched k).together⟩
  · obtain ⟨n, hn⟩ := Crossing.eventually_finished hcapacity hwrite htake
    refine ⟨n, fun k hk => ?_⟩
    obtain ⟨hresults, hbytes⟩ := hn k hk
    refine ⟨hresults, hbytes, ?_⟩
    rw [readAll_wire ((bytesOf_map_bytes _).trans hbytes), ending_map_bytes]
    rfl
  · rw [readAll_eq_framesOf, readAll_eq_framesOf, hb, he]

/-- Three frames of which the second is too long, through a pipe of three bytes that is
written to and emptied by turns; and the last of them cut off after five bytes. -/
theorem frames_cross_stream_three :
    (∃ n, ∀ k, n ≤ k → readAll ((Schedule.after Crossing.step
        (fun n => if n % 2 = 0 then .write else .take 2)
        (.start [.open .ping, .message (Bytes.replicate (maxLength + 1) 0), .end] 3)
        k).pieces.map .bytes) = ([.open .ping, .end], .ok ())) ∧
    readAll [.bytes ⟨#[0, 0]⟩, .bytes ⟨#[0, 4, 0x63]⟩] =
      ([], .error (.protocol "stream ended inside a frame")) := by
  have hlong : ¬Fits (.message (Bytes.replicate (maxLength + 1) 0)) := by
    have h1 := Cbor.size_le_writeBytes (Bytes.replicate (maxLength + 1) 0)
    have h2 := Cbor.size_le_writeVariant "message"
      (Cbor.writeBytes (Bytes.replicate (maxLength + 1) 0))
    have h3 : (Bytes.replicate (maxLength + 1) 0).size = maxLength + 1 := Bytes.size_ofFn _ _
    rw [Fits, encodeBody]
    omega
  have haccepted : accepted [.open .ping, .message (Bytes.replicate (maxLength + 1) 0), .end] =
      [.open .ping, .end] := by
    rw [accepted_cons_of_fits (by decide +kernel), accepted_cons_of_not_fits hlong,
      accepted_cons_of_fits (by decide +kernel)]
    rfl
  refine ⟨?_, ?_⟩
  · obtain ⟨n, hn⟩ := ((frames_cross_stream
        [.open .ping, .message (Bytes.replicate (maxLength + 1) 0), .end]).1 3
        (fun n => if n % 2 = 0 then .write else .take 2) (by decide)).2
      (fun n => ⟨2 * n, by omega, if_pos (by omega)⟩)
      (fun n => ⟨2 * n + 1, by omega, 1, if_neg (by omega)⟩)
    refine ⟨n, fun k hk => ?_⟩
    rw [(hn k hk).2.2, haccepted]
  · obtain ⟨before, f, rest, hsplit, -, -, hread⟩ := (frames_cross_stream [.end]).2.2.1
      [.bytes ⟨#[0, 0]⟩, .bytes ⟨#[0, 4, 0x63]⟩] 5 (by decide +kernel) (by decide +kernel)
    rw [accepted_cons_of_fits (by decide +kernel)] at hsplit
    obtain rfl : before = [] := by
      cases before with
      | nil => rfl
      | cons g before => simp [accepted] at hsplit
    rw [hread]
    rfl

end Vault.Frame
