import Vault.Proofs.Session.Listing
import Vault.Proofs.Session.Shutdown.Stages

/-!
# A server that is told to stop

However the peer and the server are polled and whenever the signal is raised, what the session
has come to when the call is over is one of the outcomes of `Vault.Parting`, and a server that is
told to stop does stop (`Vault.Shutdown.shutdown_between_requests`).

One of these outcomes is that the reply to a request does not fit into a frame. Then the store
has been written and the peer is told of a failure, however the server is shut down
(`Vault.Shutdown.request_carried_out_and_not_answered`).
-/

namespace Vault

namespace Shutdown

open Fifo (Op)
open Duplex (saying overflowing)

variable {σ : Type} [Store σ]

/-! ### Any run -/

section Runs

variable {make : Make} {secret : Crypto.SharedSecret} {h : Host σ} {ms : List Bytes}
  {closes : Bool} {w : Pair σ} {sched : ℕ → Move}

theorem stage_start (htakes : ∀ m ∈ ms, make.Takes (.message m)) :
    Stage make secret h ms closes (start make secret ms closes h) := by
  have hbegun : (start make secret ms closes h).begun = none := by
    rw [Pair.begun]
    cases (start make secret ms closes h).todo <;> rfl
  have hforth : Forth make ms closes [] [] false {} (start make secret ms closes h) := by
    refine ⟨rfl, ?_, rfl, Bool.false_ne_true.elim, ?_⟩
    · rw [hbegun]
      exact Flow.start make .left
    · intro op hop
      rcases List.mem_append.mp hop with hsend | hfinish
      · obtain ⟨m, hm, rfl⟩ := List.mem_map.mp hsend
        exact htakes m hm
      · split_ifs at hfinish
        · obtain rfl := List.mem_singleton.mp hfinish
          exact Make.takes_of_fits Duplex.fits_end
        · cases hfinish
  exact .listening (B := []) rfl .none rfl hforth ⟨Flow.start make .right, rfl, rfl⟩ rfl

theorem Stage.step (hwell : ∀ m ∈ ms, Readable secret m) (move : Move)
    (hw : Stage make secret h ms closes w) : Stage make secret h ms closes (step move w) := by
  cases move with
  | put => exact hw.put
  | take => exact hw.take.1
  | serve t s => exact (hw.serve hwell).1

theorem stage_run (h : Host σ) (closes : Bool) (sched : ℕ → Move)
    (hwell : ∀ m ∈ ms, make.Takes (.message m) ∧ Readable secret m) (n : ℕ) :
    Stage make secret h ms closes (run make secret ms closes h sched n) :=
  Schedule.after_keeps (Stage make secret h ms closes)
    (fun move _ hw => hw.step (fun m hm => (hwell m hm).2) move)
    (stage_start fun m hm => (hwell m hm).1) (Nat.zero_le n)

/-! #### The server is told to stop -/

/-- A move after the server was told to stop. -/
def Move.Told : Move → Prop
  | serve _ s => s.cancelled = true
  | _ => True

/-- The server has to wait for the peer, or is done. -/
def Pair.Waits (w : Pair σ) : Prop := 0 < (w.link.outOf .right).backlog ∨ w.Done

omit [Store σ] in
theorem Pair.Same.waits {v : Pair σ} (hsame : w.Same v) (hw : w.Waits) : v.Waits := by
  rw [Waits, Done, hsame.1, hsame.2.1]
  exact hw

omit [Store σ] in
theorem Pair.Same.symm {v : Pair σ} (hsame : w.Same v) : v.Same w :=
  ⟨hsame.1.symm, hsame.2.1.symm, hsame.2.2.symm⟩

/-- No move of anybody takes the server farther from being done. -/
theorem Stage.advances (hwell : ∀ m ∈ ms, Readable secret m) {move : Move} (htold : move.Told)
    (hw : Stage make secret h ms closes w) :
    (Shutdown.step move w).rank < w.rank ∨ w.Same (Shutdown.step move w) := by
  cases move with
  | put =>
    obtain ⟨hstop, -, -, -, hover, ha⟩ := put_frame w
    exact Or.inr ⟨hstop, ha.1, hover⟩
  | take =>
    rcases hw.take.2 with hless | ⟨hsame, -⟩
    · exact Or.inl hless
    · exact Or.inr hsame
  | serve t s =>
    rcases (hw.serve hwell).2 htold with hless | ⟨hsame, -⟩
    · exact Or.inl hless
    · exact Or.inr hsame

/-- The move that helps: the peer's if the server waits for it, and the server's otherwise. -/
def Helps (w : Pair σ) (move : Move) : Prop :=
  0 < w.rank ∧ (w.Waits ∧ move = .take ∨ ¬w.Waits ∧ ∃ t s, move = .serve t s)

theorem Stage.helps (hwell : ∀ m ∈ ms, Readable secret m) (hroom : make.HasRoom) {move : Move}
    (htold : move.Told) (hw : Stage make secret h ms closes w) (hhelps : Helps w move) :
    (Shutdown.step move w).rank < w.rank := by
  obtain ⟨hpos, ⟨hwaits, rfl⟩ | ⟨hfree, t, s, rfl⟩⟩ := hhelps
  · rcases hw.take.2 with hless | ⟨-, hempty, hread⟩
    · exact hless
    · rcases hwaits with hfull | hdone
      · omega
      · -- the peer has come to the end of the stream, and nothing is left to do
        obtain ⟨⟨phase, result, hstop⟩, hclosed⟩ := hdone
        rw [Pair.rank, hstop, hempty, hclosed, hread ⟨⟨phase, result, hstop⟩, hclosed⟩] at hpos
        exact absurd hpos (Nat.lt_irrefl 0)
  · rcases (hw.serve hwell).2 htold with hless | ⟨-, hwaits⟩
    · exact hless
    · exact absurd (hwaits hroom) hfree

omit [Store σ] in
/-- Nothing is left to do when the server is done and the peer knows it. -/
theorem of_rank_eq_zero (hzero : w.rank = 0) :
    (∃ phase result, w.stop = .ends phase result) ∧ w.atEnd = true := by
  rw [Pair.rank] at hzero
  refine ⟨?_, ?_⟩
  · rcases hstop : w.stop with ⟨call, phase, waiting, reading, rest⟩ | ⟨phase, result⟩
    · rw [hstop] at hzero
      rcases waiting with what | (_ | _ | _) <;> simp only [load] at hzero <;> omega
    · exact ⟨phase, result, rfl⟩
  · by_contra hover
    rw [if_neg hover] at hzero
    omega

/-- **A server that is told to stop does**, and its peer learns it, if both go on. -/
theorem comes_to_end (h : Host σ) (closes : Bool)
    (hwell : ∀ m ∈ ms, make.Takes (.message m) ∧ Readable secret m)
    (hroom : make.HasRoom) {n : ℕ} (htold : ∀ k, n ≤ k → (sched k).Told)
    (htake : Schedule.Again sched (· = .take))
    (hserve : Schedule.Again sched fun move => ∃ t s, move = .serve t s) :
    ∃ k, n ≤ k ∧ ∀ j, k ≤ j → (run make secret ms closes h sched j).rank = 0 := by
  have hread : ∀ m ∈ ms, Readable secret m := fun m hm => (hwell m hm).2
  have hlater (i : ℕ) : (sched (n + i)).Told := htold _ (Nat.le_add_right n i)
  -- from the `n`th move on the rank is followed among the moves of a server that was told
  have hzero : ∃ i, 0 ≤ i ∧ (Schedule.after (fun move : { move : Move // move.Told } =>
      step move.1) (fun i => ⟨sched (n + i), hlater i⟩)
      (run make secret ms closes h sched n) i).rank = 0 := by
    refine Schedule.reaches_rank_zero (Stage make secret h ms closes) Pair.rank
      (fun w move => Helps w move.1) (fun move w hw => hw.step hread move.1) ?_ ?_ ?_ ?_
      (stage_run h closes sched hwell n)
    · intro move w hw
      rcases hw.advances hread move.2 with hless | hsame
      · exact Nat.le_of_lt hless
      · exact Nat.le_of_eq hsame.rank_eq
    · rintro move w hw hrank move' ⟨hpos, hhelps⟩
      rcases hw.advances hread move.2 with hless | hsame
      · omega
      · refine ⟨by rw [hrank]; exact hpos, ?_⟩
        rcases hhelps with ⟨hwaits, htakes⟩ | ⟨hfree, hserves⟩
        · exact Or.inl ⟨hsame.waits hwaits, htakes⟩
        · exact Or.inr ⟨fun hc => hfree (hsame.symm.waits hc), hserves⟩
    · intro move w hw hhelps
      exact hw.helps hread hroom move.2 hhelps
    · intro w hw hpos
      by_cases hwaits : w.Waits
      · intro i
        obtain ⟨k, hk, hmove⟩ := htake.shift n i
        exact ⟨k, hk, hpos, Or.inl ⟨hwaits, hmove⟩⟩
      · intro i
        obtain ⟨k, hk, hmove⟩ := hserve.shift n i
        exact ⟨k, hk, hpos, Or.inr ⟨hwaits, hmove⟩⟩
  obtain ⟨i, -, hi⟩ := hzero
  rw [Schedule.after_subtype, run, ← Schedule.after_add] at hi
  refine ⟨n + i, Nat.le_add_right n i, fun j hj => ?_⟩
  -- nothing that happens afterwards changes it
  induction j, hj using Nat.le_induction with
  | base => exact hi
  | succ j hj ih =>
    have hstage : Stage make secret h ms closes (run make secret ms closes h sched j) :=
      stage_run h closes sched hwell j
    rw [run, Schedule.after_succ]
    rcases hstage.advances hread (htold j ((Nat.le_add_right n i).trans hj)) with hless | hsame
    · rw [ih] at hless
      exact absurd hless (Nat.not_lt_zero _)
    · exact hsame.rank_eq.trans ih

end Runs

/-! ### What a run comes to -/

section Outcomes

variable {make : Make} {secret : Crypto.SharedSecret} {h : Host σ} {ms : List Bytes}
  {closes : Bool} {w : Pair σ}

/-- **At every moment** the peer has read the front of what one of the outcomes would tell it,
and when the server's call is over, it is the outcome of that call and of the store. -/
theorem Stage.parting (hw : Stage make secret h ms closes w) :
    ∃ out result store, Parting make secret h ms closes out result store ∧ w.got <+: out ∧
      (∀ phase result', w.stop = .ends phase result' →
        phase = .terminated ∧ result' = result ∧ w.host.store = store) ∧
      (w.atEnd = true → w.got = out) := by
  -- a server that is at work may be told to stop before the next request
  have hatWork {served envelopes : List Bytes} {h' : Host σ} {B : List Op} {r : Server.Running}
      {after : List Op} {begun : Option (Frame × Bytes)} (hstop : w.stop = .waits r)
      (hserved : Served make secret h served envelopes h')
      (hall : ops ms closes = served.map .send ++ after) (hback : Back make B begun w)
      (hgot : w.got ++ B.map Op.frame = envelopes.map .message) :
      ∃ out result store, Parting make secret h ms closes out result store ∧ w.got <+: out ∧
        (∀ phase result', w.stop = .ends phase result' →
          phase = .terminated ∧ result' = result ∧ w.host.store = store) ∧
        (w.atEnd = true → w.got = out) := by
    obtain ⟨more, hms⟩ := exists_more hall
    refine ⟨_, _, _, .ended hms hserved, ?_, ?_, ?_⟩
    · rw [← hgot, List.append_assoc]
      exact List.prefix_append _ _
    · intro phase result' hc
      exact nomatch hstop.symm.trans hc
    · intro hc
      exact nomatch hback.reads.symm.trans hc
  cases hw with
  | listening hstop hserved hhost hforth hback hgot =>
    exact hatWork hstop hserved hforth.all hback hgot
  | replying hstop hserved hanswers hhost hbegun hforth hback hgot =>
    have hall := hforth.all
    rw [List.map_append, List.append_assoc] at hall
    exact hatWork hstop hserved hall hback hgot
  | closing hstop htakes hparting hcut hback =>
    refine ⟨_, _, _, hparting, ?_, ?_, ?_⟩
    · rw [List.append_assoc]
      exact List.prefix_append _ _
    · intro phase result' hc
      exact nomatch hstop.symm.trans hc
    · intro hc
      exact nomatch hback.reads.symm.trans hc
  | done hstop hparting hflow hover =>
    refine ⟨_, _, _, hparting, List.prefix_append _ _, ?_, ?_⟩
    · intro phase result' hc
      obtain ⟨rfl, rfl⟩ := Server.Stop.ends.inj (hstop.symm.trans hc)
      exact ⟨rfl, rfl, rfl⟩
    · intro hc
      rw [(hover hc).1, List.map_nil, List.append_nil]

/-- **A shutdown does not split a request.** Whenever the server's call is over, however the
peer and the server were polled and whenever the signal was raised, the session has come to one
of the outcomes of `Vault.Parting`, and the peer reads what that outcome tells it. If every
request can be answered and the peer does not close its side, these are the replies to the first
few requests and one end of the stream, the call has succeeded, and the store is what carrying
out exactly these requests leaves. A server that is told to stop does stop, and its peer comes to
the end of the stream, if it keeps reading. -/
theorem shutdown_between_requests (make : Make) (secret : Crypto.SharedSecret) (h : Host σ)
    (ms : List Bytes) (closes : Bool) (sched : ℕ → Move)
    (hwell : ∀ m ∈ ms, make.Takes (.message m) ∧ Readable secret m) :
    (∀ n, ∃ out result store, Parting make secret h ms closes out result store ∧
      (run make secret ms closes h sched n).got <+: out ∧
      (∀ phase result', (run make secret ms closes h sched n).stop = .ends phase result' →
        phase = .terminated ∧ result' = result ∧
          (run make secret ms closes h sched n).host.store = store) ∧
      ((run make secret ms closes h sched n).atEnd = true →
        (run make secret ms closes h sched n).got = out)) ∧
    (closes = false → Answerable make secret h ms → ∀ n, ∃ served more envelopes h',
      ms = served ++ more ∧ Served make secret h served envelopes h' ∧
      (run make secret ms closes h sched n).got <+: envelopes.map .message ++ [.end] ∧
      (∀ phase result, (run make secret ms closes h sched n).stop = .ends phase result →
        phase = .terminated ∧ result = .ok .done ∧
          (run make secret ms closes h sched n).host.store = h'.store) ∧
      ((run make secret ms closes h sched n).atEnd = true →
        (run make secret ms closes h sched n).got = envelopes.map .message ++ [.end])) ∧
    (∀ n, make.HasRoom → (∀ k, n ≤ k → (sched k).Told) → Schedule.Again sched (· = .take) →
      (Schedule.Again sched fun move => ∃ t s, move = .serve t s) →
      ∃ k, n ≤ k ∧ ∀ j, k ≤ j →
        (∃ result, (run make secret ms closes h sched j).stop = .ends .terminated result) ∧
        (run make secret ms closes h sched j).atEnd = true) := by
  refine ⟨fun n => (stage_run h closes sched hwell n).parting, ?_, ?_⟩
  · rintro rfl hanswerable n
    obtain ⟨out, result, store, hparting, hread, hends, hover⟩ :=
      (stage_run h false sched hwell n).parting
    obtain ⟨rfl, served, more, envelopes, h', hms, hserved, rfl, rfl⟩ :=
      hparting.of_answerable hanswerable
    exact ⟨served, more, envelopes, h', hms, hserved, hread, hends, hover⟩
  · intro n hroom htold htake hserve
    obtain ⟨k, hk, hzero⟩ := comes_to_end h closes hwell hroom htold htake hserve
    refine ⟨k, hk, fun j hj => ?_⟩
    obtain ⟨⟨phase, result, hstop⟩, hover⟩ := of_rank_eq_zero (hzero j hj)
    obtain ⟨_, _, _, _, _, hends, _⟩ :=
      (stage_run h closes sched hwell j).parting
    obtain ⟨rfl, -, -⟩ := hends phase result hstop
    exact ⟨⟨result, hstop⟩, hover⟩

end Outcomes

/-! ### An addition and a listing -/

omit [Store σ] in
/-- One frame can be on its way if the pipe has room for its length and its bytes. -/
theorem holds_singleton {f : Frame} {capacity : ℕ}
    (hf : Frame.lengthBytes + f.encodeBody.size ≤ capacity) : (Make.pipe capacity).Holds [f] := by
  rw [Make.Holds, List.map_singleton, Cbor.concat_cons, Cbor.concat_nil, ByteArray.append_empty,
    Frame.size_onWire]
  exact hf

/-- The first request reaches the server, and the reply to it is there to be delivered. -/
theorem exists_step_request {make : Make} {secret : Crypto.SharedSecret} {h h₁ : Host σ}
    {m envelope : Bytes} (ms : List Bytes) (closes : Bool) (htakes : make.Takes (.message m))
    (hholds : make.Holds [.message m])
    (hturn : Server.received .serve (.established secret) (h.observing (.clamp 0) {}) .request
      (.ok (some (.message m))) = ⟨.established secret, h₁, .inl (.deliver (.reply envelope))⟩) :
    ∃ l, step (.serve (.clamp 0) {}) (step .put (start make secret (m :: ms) closes h)) =
        { start make secret ms closes h₁ with
          link := l, stop := saying (.established secret) (.reply envelope) none } ∧
      Flow make .left [] none false {} l ∧ l.done .left = false ∧ make.link.Alike l .right := by
  have hrequest : make.Takes (Op.send m).frame := htakes
  obtain ⟨l₁, hsend, hflow₁, hdone₁, halike₁⟩ :=
    Flow.attempt_holds hrequest rfl (Flow.start make .left) hholds
  obtain ⟨l₂, hreceive, hflow₂, hdone₂, halike₂, -⟩ := hflow₁.receive
  refine ⟨l₂, ?_, hflow₂, hdone₂.trans hdone₁, halike₂.1.trans halike₁.1,
    halike₂.2.trans halike₁.2⟩
  rw [step_put (w := start make secret (m :: ms) closes h) ops_cons hsend,
    step_hears rfl rfl hreceive hturn]
  rfl

/-- The server says its last word, and the peer reads it. -/
theorem exists_step_last {make : Make} {w : Pair σ} {outcome : Except Status Unit}
    {result : Server.Outcome} (t : Timestamp) (s : Signal)
    (hstop : w.stop = saying .terminated (.closing outcome result false) none)
    (htakes : make.Takes (Op.finish outcome).frame)
    (hback : Back make [] none w) (hholds : make.Holds [(Op.finish outcome).frame]) :
    ∃ l, step .take (step (.serve t s) w) =
      { w with
        link := l, reading := {}, got := w.got ++ [(Op.finish outcome).frame]
        stop := .ends .terminated result, host := w.host.observing t s } := by
  obtain ⟨l, hfinish, hflow, -, -⟩ :=
    Flow.attempt_holds htakes hback.unsaid hback.flow hholds
  obtain ⟨l', hread, -⟩ := hflow.receive
  refine ⟨l', ?_⟩
  rw [step_delivers hstop rfl hfinish rfl]
  exact step_take hback.reads hread

/-- A server that takes a request, is told to stop while it delivers the reply, and finds the next
request in front of it. -/
def interrupted : ℕ → Move
  | 0 => .put
  | 1 => .serve (.clamp 0) {}
  | 2 => .put
  | 3 => .serve (.clamp 0) {}
  | n + 4 => if n % 2 = 0 then .take else .serve (.clamp 0) { raised := true }

theorem told_interrupted {k : ℕ} (hk : 4 ≤ k) : (interrupted k).Told := by
  obtain ⟨n, rfl⟩ := Nat.exists_eq_add_of_le' hk
  rw [interrupted]
  split_ifs
  · trivial
  · exact rfl

theorem again_take_interrupted : Schedule.Again interrupted (· = .take) := by
  intro n
  refine ⟨2 * n + 4, by omega, ?_⟩
  rw [interrupted, if_pos (by omega)]

theorem again_serve_interrupted :
    Schedule.Again interrupted fun move => ∃ t s, move = .serve t s := by
  intro n
  refine ⟨2 * n + 5, by omega, .clamp 0, { raised := true }, ?_⟩
  rw [show 2 * n + 5 = 2 * n + 1 + 4 by omega, interrupted, if_neg (by omega)]

/-- Two requests arrive, and of the reply to the first only a part fits into the pipe when the
server is told to stop: the peer reads this reply and the end of the stream, and the store is what
the first request has made of it. -/
theorem run_interrupted {capacity : ℕ} {secret : Crypto.SharedSecret} {h h₁ : Host σ}
    {m₁ m₂ envelope : Bytes} (hfits₁ : (Frame.message m₁).Fits) (hfits₂ : (Frame.message m₂).Fits)
    (hfits : (Frame.message envelope).Fits) (hholds₁ : (Make.pipe capacity).Holds [.message m₁])
    (hholds₂ : (Make.pipe capacity).Holds [.message m₂])
    (hlong : capacity < (Frame.message envelope).onWire.size)
    (hshort : (Frame.message envelope).onWire.size ≤ 2 * capacity)
    (hend : (Make.pipe capacity).Holds [.end])
    (hturn : Server.received .serve (.established secret) (h.observing (.clamp 0) {}) .request
      (.ok (some (.message m₁))) = ⟨.established secret, h₁, .inl (.deliver (.reply envelope))⟩) :
    (∃ rest, (run (.pipe capacity) secret [m₁, m₂] false h interrupted 4).stop =
      saying (.established secret) (.reply envelope) (some rest)) ∧
    (run (.pipe capacity) secret [m₁, m₂] false h interrupted 9).stop =
      .ends .terminated (.ok .done) ∧
    (run (.pipe capacity) secret [m₁, m₂] false h interrupted 9).got =
      [.message envelope, .end] ∧
    (run (.pipe capacity) secret [m₁, m₂] false h interrupted 9).host.store = h₁.store := by
  have hstart : run (.pipe capacity) secret [m₁, m₂] false h interrupted 0 =
    start (.pipe capacity) secret [m₁, m₂] false h := rfl
  have hnext (n : ℕ) : run (.pipe capacity) secret [m₁, m₂] false h interrupted (n + 1) =
    step (interrupted n) (run (.pipe capacity) secret [m₁, m₂] false h interrupted n) :=
    Schedule.after_succ n
  generalize run (.pipe capacity) secret [m₁, m₂] false h interrupted = w at hstart hnext ⊢
  -- the first request is taken, and the second one arrives
  have htakes₁ : (Make.pipe capacity).Takes (.message m₁) := hfits₁
  obtain ⟨l₂, htaken, hflow₂, hdone₂, halike₂⟩ :=
    exists_step_request [m₂] false htakes₁ hholds₁ hturn
  let w₀ : Pair σ := start (.pipe capacity) secret [m₂] false h₁
  have hw₂ : w 2 = { w₀ with
      link := l₂, stop := saying (.established secret) (.reply envelope) none } := by
    rw [hnext 1, hnext 0, hstart]
    exact htaken
  have htakes₂ : (Make.pipe capacity).Takes (Op.send m₂).frame := hfits₂
  obtain ⟨l₃, hsend₂, -, -, halike₃⟩ := Flow.attempt_holds htakes₂ hdone₂ hflow₂ hholds₂
  have hw₃ : w 3 = { w₀ with
      todo := [], link := l₃, stop := saying (.established secret) (.reply envelope) none } := by
    rw [hnext 2, hw₂]
    exact step_put rfl hsend₂
  -- the reply leaves in two parts, and the signal is raised between them
  have hopen : l₃.done .right = false := halike₃.2.trans halike₂.2
  have hempty : l₃.outOf .right = (Make.pipe capacity).lane := halike₃.1.trans halike₂.1
  have hreplies : (Op.send envelope).frame.Fits := hfits
  obtain ⟨l₄, l₅, l₆, rest, r, hbegins, hpart, hends, hflow₆, hdone₆⟩ :=
    Flow.attempt_in_two hreplies hlong hshort hopen hempty
  have hw₄ : w 4 = { w₀ with
      todo := [], link := l₄
      stop := saying (.established secret) (.reply envelope) (some rest) } := by
    rw [hnext 3, hw₃]
    exact step_delivers_part rfl rfl hbegins
  have hw₅ : w 5 = { w₀ with
      todo := [], link := l₅, reading := r
      stop := saying (.established secret) (.reply envelope) (some rest) } := by
    rw [hnext 4, hw₄]
    exact step_take_part rfl hpart
  have hw₆ : w 6 = { w₀ with
      todo := [], link := l₆, reading := r, host := h₁.observing (.clamp 0) { raised := true }
      stop := saying .terminated (.closing (.ok ()) (.ok .done) false) none } := by
    have hstop : (w 5).stop = saying (.established secret) (.reply envelope) (some rest) :=
      congrArg Pair.stop hw₅
    have hturn' := Duplex.turn_after_reply_shut (s := { raised := true }) secret envelope
      (w 5).host (.clamp 0) rfl
    have hmove : interrupted 5 = .serve (.clamp 0) { raised := true } := rfl
    rw [hnext 5, hmove, step_delivers hstop rfl (by rw [hw₅]; exact hends) hturn', hw₅]
    rfl
  obtain ⟨l₇, hreply, hflow₇, hdone₇, -, -⟩ := hflow₆.receive
  have hw₇ : w 7 = { w₀ with
      todo := [], link := l₇, host := h₁.observing (.clamp 0) { raised := true }
      got := [.message envelope]
      stop := saying .terminated (.closing (.ok ()) (.ok .done) false) none } := by
    rw [hnext 6, hw₆]
    exact step_take rfl hreply
  -- then the stream ends
  have hback : Back (.pipe capacity) [] none (w 7) := by
    rw [hw₇]
    exact ⟨hflow₇, hdone₇.trans hdone₆, rfl⟩
  have hcloses : (Make.pipe capacity).Takes (Op.finish (.ok ())).frame := Duplex.fits_end
  obtain ⟨l₉, hlast⟩ := exists_step_last (.clamp 0) { raised := true }
    (congrArg Pair.stop hw₇) hcloses hback hend
  have hw₉ : w 9 = _ := (hnext 8).trans ((congrArg (step .take) (hnext 7)).trans hlast)
  rw [hw₇] at hw₉
  exact ⟨⟨rest, congrArg Pair.stop hw₄⟩, congrArg Pair.stop hw₉, congrArg Pair.got hw₉,
    congrArg (fun v => v.host.store) hw₉⟩

/-- A document can be added to an empty store, and then the documents of its owner can be listed,
over any link. -/
theorem answerable_addition_listing {make : Make} {secret : Crypto.SharedSecret} {m₁ m₂ : Bytes}
    (hopens₁ : Crypto.Envelope.reveal secret m₁ =
      .ok (Wire.encodeRequest (Duplex.longDraft 5).request))
    (hopens₂ : Crypto.Envelope.reveal secret m₂ = .ok (Wire.encodeRequest (.list "alice"))) :
    Answerable make secret Duplex.emptyHost [m₁, m₂] := by
  intro served m more envelopes h' t s e store hms hserved
  have hplain : (Duplex.longDraft 5).requestSize = 43 := Duplex.requestSize_longDraft 5
  have hle : (Duplex.longDraft 5).requestSize ≤ Frame.maxLength := by
    rw [hplain]
    decide
  rcases served with _ | ⟨m', _ | ⟨m'', others⟩⟩
  · obtain rfl := (List.cons.inj hms).1
    have hsame : h' = Duplex.emptyHost := hserved.of_nil
    rcases Draft.dispatch_cases hle (h'.observing t s) with
      ⟨store', entropy, -, -, hdispatch⟩ | ⟨_, _, -, -, -, hrefused⟩
    · exact not_unanswered hopens₁ hdispatch
        (Draft.carries_response (by rw [hplain]; decide) _ _)
    · rw [hsame] at hrefused
      exact absurd hrefused (Duplex.not_refused_longDraft (Nat.le_refl 5))
  · obtain rfl := (List.cons.inj (List.cons.inj hms).2).1
    have hlistable : Listable "alice" (h'.observing t s) (h'.store.list "alice") :=
      ⟨show Frame.sealedSize _ ≤ Frame.maxLength by decide +kernel, by decide, rfl⟩
    obtain ⟨h'', hdispatch, -⟩ := hlistable.dispatch
    exact not_unanswered hopens₂ hdispatch (Dispatch.carries_listing _)
  · exact absurd (congrArg List.length hms) (by simp)

/-- Who has read one reply and the end of the stream has read all there was. -/
theorem replies_of_prefix {envelope : Bytes} {envelopes : List Bytes}
    (h : [Frame.message envelope, .end] <+: envelopes.map Frame.message ++ [.end]) :
    envelopes = [envelope] := by
  rcases envelopes with _ | ⟨first, _ | ⟨second, others⟩⟩
  · cases (List.cons_prefix_cons.mp h).1
  · obtain rfl := Frame.message.inj (List.cons_prefix_cons.mp h).1
    rfl
  · cases (List.cons_prefix_cons.mp (List.cons_prefix_cons.mp h).2).1

/-- The request to add a document, the one for a listing, and the reply to the first. -/
theorem exists_addition_listing (secret : Crypto.SharedSecret) : ∃ m₁ m₂ envelope h₁,
    Crypto.Envelope.reveal secret m₁ = .ok (Wire.encodeRequest (Duplex.longDraft 5).request) ∧
    Crypto.Envelope.reveal secret m₂ = .ok (Wire.encodeRequest (.list "alice")) ∧
    (Frame.message m₁).encodeBody.size ≤ 83 ∧ (Frame.message m₂).encodeBody.size ≤ 83 ∧
    128 ≤ (Frame.message envelope).encodeBody.size ∧
    (Frame.message envelope).encodeBody.size ≤ 147 ∧
    Server.received .serve (.established secret) (Duplex.emptyHost.observing (.clamp 0) {}) .request
      (.ok (some (.message m₁))) =
        ⟨.established secret, h₁, .inl (.deliver (.reply envelope))⟩ ∧ h₁.store.size = 1 := by
  have hplain : (Duplex.longDraft 5).requestSize = 43 := Duplex.requestSize_longDraft 5
  have hle : (Duplex.longDraft 5).requestSize ≤ Frame.maxLength := by
    rw [hplain]
    decide
  have hshort₁ : ¬Crypto.Envelope.tooLong (Wire.encodeRequest
      (Duplex.longDraft 5).request).size = true := by
    rw [← Draft.requestSize, hplain]
    decide
  have hshort₂ : ¬Crypto.Envelope.tooLong (Wire.encodeRequest (.list "alice")).size = true := by
    decide +kernel
  obtain ⟨m₁, hseal₁, hopens₁, -⟩ :=
    Crypto.Envelope.sealFresh_of_not_tooLong secret hshort₁ ⟨fun _ => 1, 0⟩
  obtain ⟨m₂, hseal₂, hopens₂, -⟩ :=
    Crypto.Envelope.sealFresh_of_not_tooLong secret hshort₂ ⟨fun _ => 2, 0⟩
  have hsize₁ : (Frame.message m₁).encodeBody.size ≤ 83 := by
    rw [Frame.size_message_of_sealed hseal₁, ← Draft.requestSize, hplain]
    decide
  have hsize₂ : (Frame.message m₂).encodeBody.size ≤ 83 := by
    rw [Frame.size_message_of_sealed hseal₂]
    decide +kernel
  rcases Draft.dispatch_cases hle (Duplex.emptyHost.observing (.clamp 0) {}) with
    ⟨store, entropy, -, hinsert, hdispatch⟩ | ⟨_, _, -, -, -, hrefused⟩
  swap
  · exact absurd hrefused (Duplex.not_refused_longDraft (Nat.le_refl 5))
  let doc : Document := ((Duplex.longDraft 5).document (.clamp 0) Duplex.emptyHost.entropy).1
  have hlower : 43 + 47 ≤ doc.responseSize := hplain ▸ Draft.le_size_response _ _ _
  have hupper : doc.responseSize ≤ 43 + 57 := hplain ▸ Draft.size_response_le hle _ _
  obtain ⟨envelope, entropy', htaking, hreply, -⟩ :=
    Duplex.taking_of_ok secret hdispatch (lt_of_le_of_lt hupper (by decide))
  have hbody : (Frame.message envelope).encodeBody.size =
    9 + Cbor.Head.width (doc.responseSize + 29) + (doc.responseSize + 29) := hreply
  have hwidth := Cbor.Head.width_le (doc.responseSize + 29)
  refine ⟨m₁, m₂, envelope, _, hopens₁, hopens₂, hsize₁, hsize₂, by omega, by omega,
    (Duplex.received_request _ hopens₁).trans htaking, ?_⟩
  exact congrArg (fun x => x.2.1.size) (hinsert.symm.trans (Duplex.insert_emptyHost _ _))

/-- **In the middle of a reply**: a document is added and its owner asks for a listing, and the
server is told to stop when only a part of the reply to the first request has left. The peer
reads the whole reply and the end of the stream. The document is in the store, and the listing
is not made. -/
theorem shutdown_between_requests_mid_reply : ∃ m₁ m₂ envelope h',
    Readable Duplex.someSession.secret m₁ ∧ Readable Duplex.someSession.secret m₂ ∧
    (∃ rest, (run (.pipe 96) Duplex.someSession.secret [m₁, m₂] false Duplex.emptyHost
      interrupted 4).stop =
        saying (.established Duplex.someSession.secret) (.reply envelope) (some rest)) ∧
    Served (.pipe 96) Duplex.someSession.secret Duplex.emptyHost [m₁] [envelope] h' ∧
    (run (.pipe 96) Duplex.someSession.secret [m₁, m₂] false Duplex.emptyHost interrupted 9).got =
      [.message envelope, .end] ∧
    (run (.pipe 96) Duplex.someSession.secret [m₁, m₂] false Duplex.emptyHost interrupted 9).stop =
      .ends .terminated (.ok .done) ∧
    (run (.pipe 96) Duplex.someSession.secret [m₁, m₂] false Duplex.emptyHost interrupted
      9).host.store = h'.store ∧
    h'.store.size = 1 ∧
    ∃ k, ∀ j, k ≤ j → (run (.pipe 96) Duplex.someSession.secret [m₁, m₂] false Duplex.emptyHost
      interrupted j).atEnd = true := by
  obtain ⟨m₁, m₂, envelope, h₁, hopens₁, hopens₂, hsize₁, hsize₂, hlower, hupper, hturn, hstored⟩ :=
    exists_addition_listing Duplex.someSession.secret
  have hfits {f : Frame} (hf : f.encodeBody.size ≤ 147) : f.Fits := hf.trans (by decide)
  have hread₁ : Readable Duplex.someSession.secret m₁ := by
    refine ⟨_, _, hopens₁, Draft.decode_request ?_⟩
    rw [Duplex.requestSize_longDraft]
    decide
  have hread₂ : Readable Duplex.someSession.secret m₂ :=
    ⟨_, _, hopens₂, Wire.decodeRequest_encodeRequest (by decide +kernel)⟩
  have hlength : Frame.lengthBytes = 4 := rfl
  have hholds {f : Frame} (hf : f.encodeBody.size ≤ 83) : (Make.pipe 96).Holds [f] :=
    holds_singleton (by omega)
  have hwire := Frame.size_onWire (.message envelope)
  obtain ⟨hmiddle, hstop, hgot, hstore⟩ := run_interrupted (hfits (by omega)) (hfits (by omega))
    (hfits hupper) (hholds hsize₁) (hholds hsize₂) (by omega) (by omega) (hholds (by decide)) hturn
  obtain ⟨-, hanswered, hstops⟩ := shutdown_between_requests (.pipe 96) Duplex.someSession.secret
    Duplex.emptyHost [m₁, m₂] false interrupted (by
      intro m hm
      simp only [List.mem_cons, List.not_mem_nil, or_false] at hm
      rcases hm with rfl | rfl
      · exact ⟨hfits (by omega), hread₁⟩
      · exact ⟨hfits (by omega), hread₂⟩)
  obtain ⟨served, more, envelopes, h', hms, hserved, hread, hends, -⟩ :=
    hanswered rfl (answerable_addition_listing hopens₁ hopens₂) 9
  obtain ⟨-, -, hstore'⟩ := hends _ _ hstop
  -- what the peer has read says which requests were served
  rw [hgot] at hread
  obtain rfl := replies_of_prefix hread
  obtain ⟨m, rfl⟩ := List.length_eq_one_iff.mp hserved.length_eq
  obtain rfl : m₁ = m := (List.cons.inj hms).1
  obtain ⟨k, -, hk⟩ := hstops 4 (show 0 < 96 by decide) (fun k hk => told_interrupted hk)
    again_take_interrupted again_serve_interrupted
  refine ⟨m₁, m₂, envelope, h', hread₁, hread₂, hmiddle, hserved, hgot, hstop, hstore', ?_, k,
    fun j hj => (hk j hj).2⟩
  rw [← hstore', hstore]
  exact hstored

/-- A server that takes a request and is then told to stop. -/
def late : ℕ → Move
  | 0 => .put
  | 1 => .serve (.clamp 0) {}
  | 4 => .take
  | _ => .serve (.clamp 0) { raised := true }

/-- A request that arrives whole before the server is told to stop, and whose reply cannot be
sent: the peer reads an abort, and what carrying out the request has done to the store stays. -/
theorem run_late {make : Make} {secret : Crypto.SharedSecret} {h h₂ : Host σ} {m envelope : Bytes}
    (htakes : make.Takes (.message m)) (hholds : make.Holds [.message m])
    (hturn : Server.received .serve (.established secret) (h.observing (.clamp 0) {}) .request
      (.ok (some (.message m))) = ⟨.established secret, h₂, .inl (.deliver (.reply envelope))⟩)
    (hlong : ¬make.Takes (.message envelope)) (hbrief : (overflowing envelope).toStatus.Brief)
    (hroom : make.Holds [.abort (overflowing envelope).toStatus]) :
    (run make secret [m] false h late 5).stop =
        .ends .terminated (.error (overflowing envelope)) ∧
      (run make secret [m] false h late 5).got = [.abort (overflowing envelope).toStatus] ∧
      (run make secret [m] false h late 5).host.store = h₂.store := by
  have hstart : run make secret [m] false h late 0 = start make secret [m] false h := rfl
  have hnext (n : ℕ) : run make secret [m] false h late (n + 1) =
    step (late n) (run make secret [m] false h late n) := Schedule.after_succ n
  generalize run make secret [m] false h late = w at hstart hnext ⊢
  -- the request is carried out
  obtain ⟨l, htaken, -, -, halike⟩ :=
    exists_step_request [] false htakes hholds hturn
  have hw₂ : w 2 = { start make secret [] false h₂ with
      link := l, stop := saying (.established secret) (.reply envelope) none } := by
    rw [hnext 1, hnext 0, hstart]
    exact htaken
  have hflow : Flow make .right [] none false {} l := (Flow.start make .right).alike halike
  have hopen : l.done .right = false := halike.2
  -- the signal is raised, but the reply comes first, and there is no frame for it
  have hw₃ : w 3 = { start make secret [] false h₂ with
      link := l
      host := Server.blamed (h₂.observing (.clamp 0) { raised := true }) (overflowing envelope)
      stop := saying .terminated (.closing (.error (overflowing envelope).toStatus)
        (.error (overflowing envelope)) false) none } := by
    have hstop : (w 2).stop = saying (.established secret) (.reply envelope) none :=
      congrArg Pair.stop hw₂
    have hmove : late 2 = .serve (.clamp 0) { raised := true } := rfl
    have hattempt := hflow.attempt_long hlong hopen
    rw [hnext 2, hmove, step_delivers hstop rfl (by rw [hw₂]; exact hattempt) rfl, hw₂]
    rfl
  have hback : Back make [] none (w 3) := by
    rw [hw₃]
    exact ⟨hflow, hopen, rfl⟩
  have habort : make.Takes (Op.finish (.error (overflowing envelope).toStatus)).frame :=
    Make.takes_of_fits hbrief.fits_abort
  obtain ⟨l₅, hlast⟩ := exists_step_last (.clamp 0) { raised := true } (congrArg Pair.stop hw₃)
    habort hback hroom
  have hw₅ : w 5 = _ := (hnext 4).trans ((congrArg (step .take) (hnext 3)).trans hlast)
  rw [hw₃] at hw₅
  exact ⟨congrArg Pair.stop hw₅, congrArg Pair.got hw₅, congrArg (fun v => v.host.store) hw₅⟩

/-- **A request that is carried out and not answered**: it arrives and its document is stored,
and then the server is told to stop. Its reply does not fit into a frame, so the peer reads
nothing but an abort and the call fails. -/
theorem request_carried_out_and_not_answered : ∃ m envelope,
    (Make.pipe (2 ^ 23)).Takes (.message m) ∧ Readable Duplex.someSession.secret m ∧
    (run (.pipe (2 ^ 23)) Duplex.someSession.secret [m] false Duplex.emptyHost late 5).stop =
      .ends .terminated (.error (overflowing envelope)) ∧
    (run (.pipe (2 ^ 23)) Duplex.someSession.secret [m] false Duplex.emptyHost late 5).got =
      [.abort (overflowing envelope).toStatus] ∧
    Duplex.emptyHost.store.size = 0 ∧
    (run (.pipe (2 ^ 23)) Duplex.someSession.secret [m] false Duplex.emptyHost late
      5).host.store.size = 1 := by
  have hplain : (Duplex.longDraft 4194200).requestSize = 4194242 :=
    Duplex.requestSize_longDraft 4194200
  have hle : (Duplex.longDraft 4194200).requestSize ≤ Frame.maxLength := by
    rw [hplain]
    decide
  have hnear : Frame.maxLength <
      Frame.sealedSize (Duplex.longDraft 4194200).requestSize + 47 := by
    rw [hplain]
    decide
  have hshort : ¬Crypto.Envelope.tooLong (Wire.encodeRequest
      (Duplex.longDraft 4194200).request).size = true := by
    rw [← Draft.requestSize, hplain]
    decide
  obtain ⟨m, hseal, hopens, -⟩ := Crypto.Envelope.sealFresh_of_not_tooLong
    Duplex.someSession.secret hshort ⟨fun _ => 1, 0⟩
  have hmessage : (Frame.message m).encodeBody.size = 4194285 := by
    rw [Frame.size_message_of_sealed hseal, ← Draft.requestSize, hplain]
    rfl
  have htakes : (Make.pipe (2 ^ 23)).Takes (.message m) := by
    rw [Make.Takes, Frame.Fits, hmessage]
    decide
  have hread : Readable Duplex.someSession.secret m :=
    ⟨_, _, hopens, Draft.decode_request hle⟩
  rcases Draft.dispatch_cases hle (Duplex.emptyHost.observing (.clamp 0) {}) with
    ⟨store, entropy, -, hinsert, hdispatch⟩ | ⟨_, _, -, -, -, hrefused⟩
  · -- the document is stored, and it is longer than the request by its id and its times
    have hresponse := Draft.size_response_le hle (.clamp 0) Duplex.emptyHost.entropy
    rw [hplain] at hresponse
    obtain ⟨envelope, entropy', htaking, hreply, -⟩ := Duplex.taking_of_ok
      Duplex.someSession.secret hdispatch (lt_of_le_of_lt hresponse (by decide))
    have hlong : ¬(Make.pipe (2 ^ 23)).Takes (.message envelope) := by
      rw [Make.Takes, Frame.Fits, hreply]
      exact Draft.not_carries_response hnear (.clamp 0) Duplex.emptyHost.entropy
    have hbrief : (overflowing envelope).toStatus.Brief := by
      refine LinkError.brief_outboundTooLarge ?_
      rw [hreply]
      exact sealedSize_lt (lt_of_le_of_lt hresponse (by decide))
    have habort := (Frame.size_abort_le (overflowing envelope).toStatus).trans
      (Nat.add_le_add_left hbrief.textSize_le 38)
    have hroom (f : Frame) (hf : f.encodeBody.size ≤ 4194304) :
        (Make.pipe (2 ^ 23)).Holds [f] := by
      have hlength : Frame.lengthBytes = 4 := rfl
      exact holds_singleton (by omega)
    obtain ⟨hstop, hgot, hstore⟩ := run_late htakes (hroom _ (by omega))
      ((Duplex.received_request _ hopens).trans htaking) hlong hbrief (hroom _ (by omega))
    refine ⟨m, envelope, htakes, hread, hstop, hgot, rfl, ?_⟩
    rw [hstore]
    exact congrArg (fun x => x.2.1.size) (hinsert.symm.trans (Duplex.insert_emptyHost _ _))
  · exact absurd hrefused (Duplex.not_refused_longDraft (by decide))

end Shutdown

end Vault
