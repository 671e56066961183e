import Vault.Proofs.Link.Flow
import Vault.Proofs.Schedule

/-!
# A link is a queue in each direction

At one end of a link messages are sent and the stream is finished, at the other end they are
received, and both ends try whenever they like (`Vault.Channel.step`). Over queues a frame goes
in one try, over pipes it goes byte by byte and may have to wait for room, but the record of
what was done and received is one that a queue of messages explains, whatever the link is made
of and in whatever order the ends try (`Vault.Channel.Sound`, `Vault.Channel.sound_after`).

So what is received over one make of link is what is received over the other. It is even
received at the same try, as long as all that is on its way fits into the lanes
(`Vault.Channel.history_after`): then the link and the queue go in step. Where it does not fit,
the sending end waits, and the receiving end lets it go on (`Vault.Channel.comes_through`).
-/

open Vault.Frame (Reading)

namespace Vault

open Duplex (pending)
open Fifo (Op Event)
open Cbor (concat)

/-! ### Two ends that try -/

/-- One direction of a link in use: what the sending end has still to do, how many results the
receiving end still wants, and the record of what is over. -/
structure Channel where
  /-- The two ends. -/
  link : Link
  /-- What the sending end has still to do. -/
  todo : List Op
  /-- What it has left of the frame it has begun. -/
  rest : Option Bytes := none
  /-- How much the receiving end has still to receive. -/
  wants : ℕ
  /-- What it has taken of a frame. -/
  reading : Reading := {}
  /-- What is over. -/
  history : List Event := []

namespace Channel

/-- Which end tries. -/
inductive Move where
  /-- The sending end. -/
  | put
  /-- The receiving end. -/
  | take

/-- One try. -/
def step (side : Side) : Move → Channel → Channel
  | .put, w =>
    match w.todo with
    | [] => w
    | op :: todo =>
      match op.attempt w.link side w.rest with
      | (link, .ready answer) =>
        { w with link, todo, rest := none, history := w.history ++ [.put op answer] }
      | (link, .waiting rest) => { w with link, rest }
  | .take, w =>
    match w.wants with
    | 0 => w
    | wants + 1 =>
      match w.link.receive side.other w.reading with
      | (link, .ready x) =>
        { w with link, wants, reading := {}, history := w.history ++ [.got (Link.inbound x)] }
      | (link, .waiting reading) => { w with link, reading }

/-- A link that has not been used, something to send and something to receive. -/
def start (link : Link) (ops : List Op) (wants : ℕ) : Channel where
  link := link
  todo := ops
  wants := wants

/-- The link after so many tries. -/
def run (side : Side) (sched : ℕ → Move) (link : Link) (ops : List Op) (wants : ℕ) : ℕ → Channel :=
  Schedule.after (step side) sched (start link ops wants)

/-- The frame that has begun to leave. -/
def begun (w : Channel) : Option (Frame × Bytes) :=
  w.todo.head?.bind fun op => w.rest.map (Prod.mk op.frame)

/-- **A link in use and the queue that explains it.** What was accepted and not received is on
its way over the lane. -/
structure Sound (make : Make) (side : Side) (ops : List Op) (wants : ℕ) (w : Channel)
    (q : Fifo) : Prop where
  explains : Fifo.Explains w.history q
  done : Fifo.done w.history ++ w.todo = ops
  heard : (Fifo.heard w.history).length + w.wants = wants
  takes : ∀ op ∈ w.todo, make.Takes op.frame
  flow : Flow make side q.queue w.begun q.ended w.reading w.link
  said : w.link.done side = q.ended
  whole : q.ended = true → w.rest = none

variable {make : Make} {side : Side} {ops : List Op} {wants : ℕ} {w : Channel} {q : Fifo}

theorem sound_start (htakes : ∀ op ∈ ops, make.Takes op.frame) :
    Sound make side ops wants (start make.link ops wants) {} where
  explains := .nil
  done := rfl
  heard := Nat.zero_add wants
  takes := htakes
  flow := by
    have hbegun : (start make.link ops wants).begun = none := by
      cases ops <;> rfl
    rw [hbegun]
    exact Flow.start make side
  said := by
    cases side <;> rfl
  whole := fun hc => nomatch hc

/-! ### The sending end -/

section Put

variable {op : Op} {todo : List Op}

theorem begun_cons (htodo : w.todo = op :: todo) : w.begun = w.rest.map (Prod.mk op.frame) := by
  rw [begun, htodo]
  rfl

omit w in
theorem begun_whole {w : Channel} (hrest : w.rest = none) : w.begun = none := by
  rw [begun, hrest]
  cases w.todo <;> rfl

/-- An operation that is done is in the queue. -/
theorem Sound.put_through (h : Sound make side ops wants w q) (htodo : w.todo = op :: todo)
    (hended : q.ended = false) {l : Link}
    (hattempt : op.attempt w.link side w.rest = (l, .ready (.ok ())))
    (hflow : Flow make side (q.queue ++ [op]) none op.isFinish w.reading l)
    (hdone : l.done side = op.isFinish) :
    step side .put w = { w with
      link := l, todo := todo, rest := none, history := w.history ++ [.put op (.ok ())] } ∧
    Sound make side ops wants (step side .put w) ⟨q.queue ++ [op], op.isFinish⟩ := by
  have hstep : step side .put w = { w with
      link := l, todo := todo, rest := none, history := w.history ++ [.put op (.ok ())] } := by
    simp only [step, htodo, hattempt]
  refine ⟨hstep, ?_⟩
  rw [hstep]
  constructor
  · refine h.explains.put ?_
    rw [Fifo.put, hended, if_neg Bool.false_ne_true]
  · rw [Fifo.done_put, List.append_assoc, ← h.done, htodo]
    rfl
  · rw [Fifo.heard_put]
    exact h.heard
  · intro op' hop'
    exact h.takes op' (by rw [htodo]; exact List.mem_cons_of_mem op hop')
  · rw [begun_whole rfl]
    exact hflow
  · exact hdone
  · exact fun _ => rfl

/-- After the end nothing more is put into the queue. -/
theorem Sound.put_late (h : Sound make side ops wants w q) (htodo : w.todo = op :: todo)
    (hended : q.ended = true) :
    step side .put w = { w with
      todo := todo, rest := none, history := w.history ++ [.put op op.late] } ∧
    Sound make side ops wants (step side .put w) q := by
  have hdone : w.link.done side = true := h.said.trans hended
  have hstep : step side .put w = { w with
      todo := todo, rest := none, history := w.history ++ [.put op op.late] } := by
    simp only [step, htodo, Op.attempt_late hdone]
  refine ⟨hstep, ?_⟩
  have hflow := h.flow
  rw [begun_whole (h.whole hended)] at hflow
  rw [hstep]
  constructor
  · refine h.explains.put ?_
    rw [Fifo.put, hended, if_pos rfl]
  · rw [Fifo.done_put, List.append_assoc, ← h.done, htodo]
    rfl
  · rw [Fifo.heard_put]
    exact h.heard
  · intro op' hop'
    exact h.takes op' (by rw [htodo]; exact List.mem_cons_of_mem op hop')
  · rw [begun_whole rfl]
    exact hflow
  · exact h.said
  · exact fun _ => rfl

end Put

/-! ### The receiving end -/

section Take

variable {n : ℕ}

/-- What the queue gives is received. -/
theorem Sound.take_some (h : Sound make side ops wants w q) (hwants : w.wants = n + 1)
    {q' : Fifo} {result : Except LinkError (Option Bytes)} (htake : q.take = some (q', result)) :
    ∃ link, step side .take w = { w with
      link := link, wants := n, reading := {}, history := w.history ++ [.got result] } ∧
    Sound make side ops wants (step side .take w) q' ∧
    (link.outOf side).backlog ≤ (w.link.outOf side).backlog := by
  -- one try of the receiver, whether there is a frame or the end of the stream
  have hreceive : ∃ l x, w.link.receive side.other w.reading = (l, .ready x) ∧
      Link.inbound x = result ∧ Flow make side q'.queue w.begun q'.ended {} l ∧
      l.done side = w.link.done side ∧ q'.ended = q.ended ∧
      (l.outOf side).backlog ≤ (w.link.outOf side).backlog := by
    have hflow := h.flow
    rw [Fifo.take] at htake
    split at htake
    · next op queue hqueue =>
      cases htake
      rw [hqueue] at hflow
      obtain ⟨l, hreceive, hflow, hdone, -, hless⟩ := hflow.receive
      exact ⟨l, _, hreceive, Op.inbound_frame op, hflow, hdone, rfl, Nat.le_of_lt hless⟩
    · next hqueue =>
      split_ifs at htake with hended
      cases htake
      rw [hqueue, hended, begun_whole (h.whole hended)] at hflow
      obtain ⟨hreceive, hflow⟩ := hflow.receive_end
      refine ⟨_, _, hreceive, rfl, ?_, rfl, rfl, Nat.le_refl _⟩
      rw [hqueue, hended, begun_whole (h.whole hended)]
      exact hflow
  obtain ⟨l, x, hreceive, hresult, hflow, hdone, hended, hle⟩ := hreceive
  have hstep : step side .take w = { w with
      link := l, wants := n, reading := {}, history := w.history ++ [.got result] } := by
    simp only [step, hwants, hreceive, hresult]
  refine ⟨l, hstep, ?_, hle⟩
  rw [hstep]
  constructor
  · exact h.explains.got htake
  · rw [Fifo.done_got]
    exact h.done
  · rw [Fifo.heard_got, List.length_append, List.length_singleton]
    have hheard := h.heard
    rw [hwants] at hheard
    dsimp only
    omega
  · exact h.takes
  · exact hflow
  · rw [hended]
    exact hdone.trans h.said
  · rw [hended]
    exact h.whole

/-- Where the queue gives nothing, what there is of a frame is taken. -/
theorem Sound.take_none (h : Sound make side ops wants w q) (hwants : w.wants = n + 1)
    (htake : q.take = none) :
    ∃ link reading, step side .take w = { w with link := link, reading := reading } ∧
    Sound make side ops wants (step side .take w) q ∧
    (link = w.link ∧ reading = w.reading ∧ (w.link.outOf side).backlog = 0 ∨
      (link.outOf side).backlog < (w.link.outOf side).backlog) := by
  rw [Fifo.take] at htake
  split at htake
  · cases htake
  next hqueue =>
  split_ifs at htake with hended
  have hopen := Bool.eq_false_iff.mpr hended
  have hflow := h.flow
  rw [hqueue, hopen] at hflow
  obtain ⟨l, reading, hreceive, hflow, hdone, -, hmoved⟩ := hflow.receive_nil
  have hstep : step side .take w = { w with link := l, reading := reading } := by
    simp only [step, hwants, hreceive]
  refine ⟨l, reading, hstep, ?_, hmoved⟩
  rw [hstep]
  refine ⟨h.explains, h.done, h.heard, h.takes, ?_, hdone.trans h.said, h.whole⟩
  rw [hqueue, hopen]
  exact hflow

end Take

/-! ### Every try keeps the record sound and brings the end nearer -/

/-- What there is to write. -/
def load : List Op → Option Bytes → ℕ
  | [], _ => 0
  | op :: ops, rest => 2 * pending op.frame rest + 1 + load ops none

/-- What there is to do: to write, to take from the lane, and to receive. -/
def rank (side : Side) (w : Channel) : ℕ :=
  load w.todo w.rest + (w.link.outOf side).backlog + w.wants

theorem advances_put (h : Sound make side ops wants w q) :
    (∃ q', Sound make side ops wants (step side .put w) q') ∧
      (rank side (step side .put w) < rank side w ∨ step side .put w = w ∧
        (w.todo = [] ∨ q.ended = false ∧ (make.HasRoom → 0 < (w.link.outOf side).backlog))) := by
  cases htodo : w.todo with
  | nil =>
    have hstep : step side .put w = w := by simp only [step, htodo]
    rw [hstep]
    exact ⟨⟨q, h⟩, Or.inr ⟨rfl, Or.inl rfl⟩⟩
  | cons op todo =>
    cases hended : q.ended with
    | true =>
      obtain ⟨hstep, hsound⟩ := h.put_late htodo hended
      refine ⟨⟨q, hsound⟩, Or.inl ?_⟩
      rw [hstep, rank, rank, htodo, load]
      dsimp only
      omega
    | false =>
      have hflow := h.flow
      rw [begun_cons htodo, hended] at hflow
      have htakes : make.Takes op.frame := h.takes op (by rw [htodo]; exact List.mem_cons_self)
      rcases hflow.attempt htakes (h.said.trans hended) with
        ⟨l, hattempt, hthrough, hdone, -, hless⟩ | ⟨l, rest, hattempt, hpart, hdone, -, hmoved⟩
      · obtain ⟨hstep, hsound⟩ := h.put_through htodo hended hattempt hthrough hdone
        refine ⟨⟨_, hsound⟩, Or.inl ?_⟩
        rw [hstep, rank, rank, htodo, load]
        dsimp only
        omega
      · have hstep : step side .put w = { w with link := l, rest := rest } := by
          simp only [step, htodo, hattempt]
        refine ⟨⟨q, ?_⟩, ?_⟩
        · rw [hstep]
          refine ⟨h.explains, h.done, h.heard, h.takes, ?_, hdone.trans hended.symm, ?_⟩
          · rw [begun, htodo, hended]
            exact hpart
          · rw [hended]
            exact fun hc => nomatch hc
        · rcases hmoved with ⟨rfl, rfl, hfull⟩ | hless
          · exact Or.inr ⟨hstep, Or.inr ⟨rfl, hfull⟩⟩
          · refine Or.inl ?_
            rw [hstep, rank, rank, htodo, load, load]
            dsimp only
            omega

theorem advances_take (h : Sound make side ops wants w q) :
    (∃ q', Sound make side ops wants (step side .take w) q') ∧
      (rank side (step side .take w) < rank side w ∨ step side .take w = w ∧
        (w.wants = 0 ∨ q.take = none ∧ (w.link.outOf side).backlog = 0)) := by
  cases hwants : w.wants with
  | zero =>
    have hstep : step side .take w = w := by simp only [step, hwants]
    rw [hstep]
    exact ⟨⟨q, h⟩, Or.inr ⟨rfl, Or.inl rfl⟩⟩
  | succ n =>
    cases htake : q.take with
    | some x =>
      obtain ⟨q', result⟩ := x
      obtain ⟨link, hstep, hsound, hle⟩ := h.take_some hwants htake
      refine ⟨⟨q', hsound⟩, Or.inl ?_⟩
      rw [hstep, rank, rank, hwants]
      dsimp only
      omega
    | none =>
      obtain ⟨link, reading, hstep, hsound, hmoved⟩ := h.take_none hwants htake
      refine ⟨⟨q, hsound⟩, ?_⟩
      rcases hmoved with ⟨rfl, rfl, hempty⟩ | hless
      · exact Or.inr ⟨hstep, Or.inr ⟨rfl, hempty⟩⟩
      · refine Or.inl ?_
        rw [hstep, rank, rank]
        dsimp only
        omega

theorem sound_step (move : Move) (h : ∃ q, Sound make side ops wants w q) :
    ∃ q, Sound make side ops wants (step side move w) q := by
  obtain ⟨q, h⟩ := h
  cases move with
  | put => exact (advances_put h).1
  | take => exact (advances_take h).1

/-- **The record is sound at all times.** -/
theorem sound_after (side : Side) (wants : ℕ) (htakes : ∀ op ∈ ops, make.Takes op.frame)
    (sched : ℕ → Move) (n : ℕ) :
    ∃ q, Sound make side ops wants (run side sched make.link ops wants n) q :=
  Schedule.after_keeps (fun w => ∃ q, Sound make side ops wants w q)
    (fun move _ => sound_step move) (n := 0) ⟨{}, sound_start htakes⟩ (Nat.zero_le n)

/-! ### A queue that is used in the same way -/

/-- A queue in use by two ends that take turns as they do at a link. -/
structure Ideal where
  /-- The queue. -/
  fifo : Fifo := {}
  /-- What the sending end has still to do. -/
  todo : List Op
  /-- How much the receiving end has still to receive. -/
  wants : ℕ
  /-- What is over. -/
  history : List Event := []

/-- One try. There is always room in a queue. -/
def Ideal.step : Move → Ideal → Ideal
  | .put, i =>
    match i.todo with
    | [] => i
    | op :: todo =>
      let (fifo, answer) := i.fifo.put op
      { i with fifo, todo, history := i.history ++ [.put op answer] }
  | .take, i =>
    match i.wants, i.fifo.take with
    | wants + 1, some (fifo, result) =>
      { i with fifo, wants, history := i.history ++ [.got result] }
    | _, _ => i

/-- The queue after so many tries. -/
def Ideal.run (sched : ℕ → Move) (ops : List Op) (wants : ℕ) : ℕ → Ideal :=
  Schedule.after Ideal.step sched { todo := ops, wants }

/-- The link and the queue have come equally far. -/
structure InStep (make : Make) (side : Side) (ops : List Op) (wants : ℕ) (w : Channel)
    (i : Ideal) : Prop where
  sound : Sound make side ops wants w i.fifo
  whole : w.rest = none
  todo : w.todo = i.todo
  wants : w.wants = i.wants
  history : w.history = i.history

/-- Where what is on its way fits together, no try to send has to wait. -/
theorem InStep.put {i : Ideal} (h : InStep make side ops wants w i)
    (hholds : make.Holds ((i.step .put).fifo.queue.map Op.frame)) :
    InStep make side ops wants (step side .put w) (i.step .put) := by
  obtain ⟨hsound, hwhole, htodo, hwants, hhistory⟩ := h
  cases hi : i.todo with
  | nil =>
    have hstep : Channel.step side .put w = w := by simp only [Channel.step, htodo, hi]
    have hideal : i.step .put = i := by simp only [Ideal.step, hi]
    rw [hstep, hideal]
    exact ⟨hsound, hwhole, htodo, hwants, hhistory⟩
  | cons op todo =>
    have htodo' := htodo.trans hi
    cases hended : i.fifo.ended with
    | true =>
      obtain ⟨hstep, hnext⟩ := hsound.put_late htodo' hended
      have hideal : i.step .put =
          { i with todo := todo, history := i.history ++ [.put op op.late] } := by
        simp only [Ideal.step, hi, Fifo.put, hended, if_true]
      rw [hideal]
      refine ⟨hnext, ?_, ?_, ?_, ?_⟩ <;> rw [hstep]
      · exact hwants
      · rw [hhistory]
    | false =>
      have hideal : i.step .put = { i with
          fifo := ⟨i.fifo.queue ++ [op], op.isFinish⟩, todo := todo
          history := i.history ++ [.put op (.ok ())] } := by
        simp only [Ideal.step, hi, Fifo.put, hended, Bool.false_eq_true, if_false]
      rw [hideal] at hholds ⊢
      have hflow := hsound.flow
      rw [begun_whole hwhole, hended] at hflow
      obtain ⟨l, hattempt, hthrough, hdone, -⟩ := hflow.attempt_holds
        (hsound.takes op (by rw [htodo']; exact List.mem_cons_self))
        (hsound.said.trans hended) hholds
      rw [← hwhole] at hattempt
      obtain ⟨hstep, hnext⟩ := hsound.put_through htodo' hended hattempt hthrough hdone
      refine ⟨hnext, ?_, ?_, ?_, ?_⟩ <;> rw [hstep]
      · exact hwants
      · rw [hhistory]

theorem InStep.take {i : Ideal} (h : InStep make side ops wants w i) :
    InStep make side ops wants (step side .take w) (i.step .take) := by
  obtain ⟨hsound, hwhole, htodo, hwants, hhistory⟩ := h
  cases hi : i.wants with
  | zero =>
    have hstep : Channel.step side .take w = w := by simp only [Channel.step, hwants, hi]
    have hideal : i.step .take = i := by simp only [Ideal.step, hi]
    rw [hstep, hideal]
    exact ⟨hsound, hwhole, htodo, hwants, hhistory⟩
  | succ n =>
    have hwants' := hwants.trans hi
    cases htake : i.fifo.take with
    | some x =>
      obtain ⟨fifo, result⟩ := x
      obtain ⟨link, hstep, hnext, -⟩ := hsound.take_some hwants' htake
      have hideal : i.step .take =
          { i with fifo := fifo, wants := n, history := i.history ++ [.got result] } := by
        simp only [Ideal.step, hi, htake]
      rw [hideal]
      refine ⟨hnext, ?_, ?_, ?_, ?_⟩ <;> rw [hstep]
      · exact hwhole
      · exact htodo
      · rw [hhistory]
    | none =>
      obtain ⟨link, reading, hstep, hnext, -⟩ := hsound.take_none hwants' htake
      have hideal : i.step .take = i := by simp only [Ideal.step, hi, htake]
      rw [hideal]
      refine ⟨hnext, ?_, ?_, ?_, ?_⟩ <;> rw [hstep]
      · exact hwhole
      · exact htodo
      · exact hwants
      · exact hhistory

theorem InStep.step {i : Ideal} (move : Move) (h : InStep make side ops wants w i)
    (hholds : make.Holds ((i.step move).fifo.queue.map Op.frame)) :
    InStep make side ops wants (step side move w) (i.step move) := by
  cases move with
  | put => exact h.put hholds
  | take => exact h.take

/-- **The link and the queue go in step** where what is on its way always fits together. -/
theorem history_after (htakes : ∀ op ∈ ops, make.Takes op.frame) (sched : ℕ → Move)
    {n : ℕ} (hholds : ∀ k, k ≤ n → make.Holds
      ((Ideal.run sched ops wants k).fifo.queue.map Op.frame)) :
    (run side sched make.link ops wants n).history = (Ideal.run sched ops wants n).history := by
  have hinstep : InStep make side ops wants (run side sched make.link ops wants n)
      (Ideal.run sched ops wants n) := by
    induction n with
    | zero => exact ⟨sound_start htakes, rfl, rfl, rfl, rfl⟩
    | succ n ih =>
      exact (ih fun k hk => hholds k (Nat.le_succ_of_le hk)).step (sched n)
        (hholds (n + 1) (Nat.le_refl _))
  exact hinstep.history

/-! ### Everything comes through -/

/-- Where nothing moves, the sending end is through or waits for the other to read. -/
theorem Sound.put_at_rest (h : Sound make side ops wants w q) (hroom : make.HasRoom)
    (hrest : step side .put w = w) :
    w.todo = [] ∨ q.ended = false ∧ 0 < (w.link.outOf side).backlog := by
  rcases (advances_put h).2 with hless | ⟨-, htodo | ⟨hopen, hfull⟩⟩
  · rw [hrest] at hless
    omega
  · exact Or.inl htodo
  · exact Or.inr ⟨hopen, hfull hroom⟩

/-- Where nothing moves, the receiving end is through or there is nothing for it. -/
theorem Sound.take_at_rest (h : Sound make side ops wants w q) (hrest : step side .take w = w) :
    w.wants = 0 ∨ q.take = none ∧ (w.link.outOf side).backlog = 0 := by
  rcases (advances_take h).2 with hless | ⟨-, hnone⟩
  · rw [hrest] at hless
    omega
  · exact hnone

/-- Before the end everything that was done was accepted. -/
theorem Sound.accepted_of_open (h : Sound make side ops wants w q) (hopen : q.ended = false) :
    Op.accepted (Fifo.done w.history) = Fifo.done w.history ∧
      Op.accepted ops = Fifo.done w.history ++ Op.accepted w.todo := by
  have hended := h.explains.ended_eq
  rw [hopen] at hended
  refine ⟨Op.accepted_eq_self hended.symm, ?_⟩
  rw [← h.done, Op.accepted_append hended.symm]

/-- **The sending end is through** where neither end can go on, if as much is received as was
accepted. -/
theorem Sound.sender_through (h : Sound make side ops wants w q) (hroom : make.HasRoom)
    (hrest : ∀ move, step side move w = w) (hmany : (Op.accepted ops).length ≤ wants) :
    Fifo.done w.history = ops := by
  have hdone := h.done
  have hheard := h.heard
  obtain ⟨hqueue, hle⟩ := h.explains.queue_eq
  rcases h.put_at_rest hroom (hrest .put) with htodo | ⟨hended, hfull⟩
  · rwa [htodo, List.append_nil] at hdone
  · exfalso
    have hwants : w.wants = 0 := by
      rcases h.take_at_rest (hrest .take) with hwants | ⟨-, hempty⟩
      · exact hwants
      · omega
    obtain ⟨hsame, hall⟩ := h.accepted_of_open hended
    have hle := hle hended
    rw [hsame] at hle
    rw [hall, List.length_append] at hmany
    -- the sending end is at an operation that would be accepted
    have hnone : Op.accepted w.todo = [] := List.length_eq_zero_iff.mp (by omega)
    have htodo : w.todo = [] := by
      cases htodo : w.todo with
      | nil => rfl
      | cons op todo =>
        rw [htodo] at hnone
        cases op <;> cases hnone
    have hempty : q.queue = [] := by
      rw [hqueue, hsame]
      exact List.drop_of_length_le (by rw [hnone, List.length_nil] at hmany; omega)
    have hflow := h.flow
    rw [begun, htodo, hempty] at hflow
    have hlane := hflow.backlog_nil
    omega

/-- **The receiving end is through** where neither end can go on, if there is enough for it to
receive. -/
theorem Sound.receiver_through (h : Sound make side ops wants w q) (hroom : make.HasRoom)
    (hrest : ∀ move, step side move w = w)
    (henough : wants ≤ (Op.accepted ops).length ∨ ops.any Op.isFinish = true) :
    (Fifo.heard w.history).length = wants := by
  have hdone := h.done
  have hheard := h.heard
  obtain ⟨hqueue, hle⟩ := h.explains.queue_eq
  have hended := h.explains.ended_eq
  rcases h.take_at_rest (hrest .take) with hwants | ⟨hnone, hempty⟩
  · omega
  · have htodo : w.todo = [] := by
      rcases h.put_at_rest hroom (hrest .put) with htodo | ⟨-, hfull⟩
      · exact htodo
      · omega
    rw [htodo, List.append_nil] at hdone
    rw [Fifo.take] at hnone
    split at hnone
    · cases hnone
    next hq =>
    split_ifs at hnone with hc
    have hnot := Bool.eq_false_iff.mpr hc
    rw [hdone] at hqueue hle hended
    have hall := List.drop_eq_nil_iff.mp (hqueue.symm.trans hq)
    have hle := hle hnot
    rcases henough with hfew | hfinish
    · omega
    · rw [← hended, hnot] at hfinish
      cases hfinish

/-- **Everything comes through** if both ends try again and again. -/
theorem comes_through (htakes : ∀ op ∈ ops, make.Takes op.frame) (hroom : make.HasRoom)
    {sched : ℕ → Move} (hput : Schedule.Again sched (· = .put))
    (htake : Schedule.Again sched (· = .take)) :
    ∃ n, ∀ k, n ≤ k →
      ((Op.accepted ops).length ≤ wants →
        Fifo.done (run side sched make.link ops wants k).history = ops) ∧
      (wants ≤ (Op.accepted ops).length ∨ ops.any Op.isFinish = true →
        (Fifo.heard (run side sched make.link ops wants k).history).length = wants) := by
  obtain ⟨n, -, hrest⟩ := Schedule.comes_to_rest (n := 0) (s := start make.link ops wants)
    (fun w => ∃ q, Sound make side ops wants w q) (rank side) (fun move _ => sound_step move)
    (by
      rintro (_ | _) w ⟨q, h⟩
      · rcases (advances_put h).2 with hless | ⟨hsame, -⟩
        exacts [Or.inr hless, Or.inl hsame]
      · rcases (advances_take h).2 with hless | ⟨hsame, -⟩
        exacts [Or.inr hless, Or.inl hsame])
    (by
      rintro (_ | _)
      exacts [hput, htake])
    ⟨{}, sound_start htakes⟩
  refine ⟨n, fun k hk => ?_⟩
  obtain ⟨q, h⟩ := sound_after side wants htakes sched n
  rw [run, Schedule.after_rest hrest hk]
  exact ⟨h.sender_through hroom hrest, h.receiver_through hroom hrest⟩

/-! ### The law of a channel -/

/-- **A link works as a queue of messages.** The record of what was done and received could
have been made on a queue. Operations are done in order. Those before the end succeed, and
after it nothing can be sent, finishing once more succeeds, and neither changes the link. What
is received is what had been accepted, in that order, the finish with its outcome, and then the
end of the stream for ever; so what is received in any place depends on nothing but the
operations. And if both ends try again and again, all operations are done if enough is
received, and as much is received as there is. -/
structure AsQueue (side : Side) (sched : ℕ → Move) (link : Link) (ops : List Op) (wants : ℕ) :
    Prop where
  explains : ∀ n, ∃ q, Fifo.Explains (run side sched link ops wants n).history q
  order : ∀ n, Fifo.done (run side sched link ops wants n).history ++
    (run side sched link ops wants n).todo = ops
  answered : ∀ n, Fifo.answered (run side sched link ops wants n).history =
    Op.answers (Fifo.done (run side sched link ops wants n).history)
  late : ∀ n, (Fifo.done (run side sched link ops wants n).history).any Op.isFinish = true →
    sched n = .put →
      (run side sched link ops wants (n + 1)).link = (run side sched link ops wants n).link
  heard : ∀ n, Fifo.heard (run side sched link ops wants n).history =
    ((Op.accepted (Fifo.done (run side sched link ops wants n).history)).take
      (Fifo.heard (run side sched link ops wants n).history).length).map Op.seen ++
    List.replicate ((Fifo.heard (run side sched link ops wants n).history).length -
      (Op.accepted (Fifo.done (run side sched link ops wants n).history)).length) (.ok none)
  place : ∀ (n k : ℕ) x, (Fifo.heard (run side sched link ops wants n).history)[k]? = some x →
    x = ((Op.accepted ops)[k]?.map Op.seen).getD (.ok none)
  through : Schedule.Again sched (· = .put) → Schedule.Again sched (· = .take) →
    ∃ n, ∀ k, n ≤ k →
      ((Op.accepted ops).length ≤ wants →
        Fifo.done (run side sched link ops wants k).history = ops) ∧
      (wants ≤ (Op.accepted ops).length ∨ ops.any Op.isFinish = true →
        (Fifo.heard (run side sched link ops wants k).history).length = wants)

/-- After the end the sending end does nothing to the link. -/
theorem Sound.link_late (h : Sound make side ops wants w q) (hended : q.ended = true) :
    (step side .put w).link = w.link := by
  cases htodo : w.todo with
  | nil => simp only [step, htodo]
  | cons op todo => rw [(h.put_late htodo hended).1]

theorem asQueue_of_make (htakes : ∀ op ∈ ops, make.Takes op.frame) (hroom : make.HasRoom)
    (sched : ℕ → Move) : AsQueue side sched make.link ops wants := by
  have hsound (n : ℕ) := sound_after side wants htakes sched n
  constructor
  · intro n
    obtain ⟨q, h⟩ := hsound n
    exact ⟨q, h.explains⟩
  · intro n
    obtain ⟨q, h⟩ := hsound n
    exact h.done
  · intro n
    obtain ⟨q, h⟩ := hsound n
    exact h.explains.answered
  · intro n hfinish hput
    obtain ⟨q, h⟩ := hsound n
    rw [run, Schedule.after_succ, hput]
    exact h.link_late (h.explains.ended_eq.trans hfinish)
  · intro n
    obtain ⟨q, h⟩ := hsound n
    exact h.explains.heard
  · intro n k x hx
    obtain ⟨q, h⟩ := hsound n
    rw [h.explains.heard_get _ hx, h.done]
  · exact comes_through htakes hroom

/-- **Both makes of link are the same reliable channel.**

In either direction and however the ends take turns, a link of queues works as a queue of
messages, and so does a link of pipes with any room at all if no frame is too long. While all
that has been sent and not received fits into the lanes, each of them even goes in step with
the queue, try by try. -/
theorem links_are_message_queues (side : Side) (ops : List Op) (wants capacity : ℕ)
    (sched : ℕ → Move) :
    (AsQueue side sched Link.inMemory ops wants ∧
      ∀ n, (∀ k, k ≤ n → (Ideal.run sched ops wants k).fifo.queue.length ≤ Queue.capacity) →
        (run side sched Link.inMemory ops wants n).history =
          (Ideal.run sched ops wants n).history) ∧
    ((∀ op ∈ ops, op.frame.Fits) →
      (0 < capacity → AsQueue side sched (Link.framed capacity) ops wants) ∧
      ∀ n, (∀ k, k ≤ n → (concat ((Ideal.run sched ops wants k).fifo.queue.map
          fun op => op.frame.onWire)).size ≤ capacity) →
        (run side sched (Link.framed capacity) ops wants n).history =
          (Ideal.run sched ops wants n).history) := by
  constructor
  · have htakes : ∀ op ∈ ops, Make.queue.Takes op.frame := fun _ _ => trivial
    refine ⟨asQueue_of_make htakes trivial sched, ?_⟩
    intro n hfew
    refine history_after htakes sched fun k hk => ?_
    rw [Make.Holds, List.length_map]
    exact hfew k hk
  · intro hfits
    have htakes : ∀ op ∈ ops, (Make.pipe capacity).Takes op.frame := hfits
    refine ⟨fun hroom => asQueue_of_make htakes hroom sched, ?_⟩
    intro n hfew
    refine history_after htakes sched fun k hk => ?_
    rw [Make.Holds, List.map_map]
    exact hfew k hk

/-- An empty message, one of a byte, a status, and then more that comes too late, through pipes
of three bytes and through queues by turns. In both cases all is done, and what is received is
the two messages, the status and the end of the stream. -/
theorem links_are_message_queues_three :
    let ops : List Op := [.send ByteArray.empty, .send ⟨#[7]⟩,
      .finish (.error ⟨.invalidArgument, "no"⟩), .send ⟨#[8]⟩, .finish (.ok ())]
    ∀ link, link = Link.inMemory ∨ link = Link.framed 3 →
      ∃ n, Fifo.answered
          (run .left (Schedule.roundRobin .put [.take]) link ops 4 n).history =
          [.ok (), .ok (), .ok (), .error .closed, .ok ()] ∧
        Fifo.heard (run .left (Schedule.roundRobin .put [.take]) link ops 4 n).history =
          [.ok (some ByteArray.empty), .ok (some ⟨#[7]⟩),
            .error (.remote ⟨.invalidArgument, "no"⟩), .ok none] := by
  intro ops link hlink
  have hlaw : AsQueue .left (Schedule.roundRobin .put [.take]) link ops 4 := by
    have hall := links_are_message_queues .left ops 4 3 (Schedule.roundRobin .put [.take])
    rcases hlink with rfl | rfl
    · exact hall.1.1
    · exact (hall.2 (by decide +kernel)).1 (by decide)
  obtain ⟨n, hn⟩ := hlaw.through (Schedule.again_roundRobin (by simp))
    (Schedule.again_roundRobin (by simp))
  obtain ⟨hdone, hheard⟩ := hn n (Nat.le_refl n)
  have hdone := hdone (by decide)
  have hheard := hheard (Or.inr rfl)
  refine ⟨n, ?_, ?_⟩
  · rw [hlaw.answered, hdone]
    rfl
  · rw [hlaw.heard, hdone, hheard]
    rfl

end Channel

end Vault
