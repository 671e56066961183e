import Mathlib.Data.List.Infix
import Vault.Link

/-!
# A queue of messages with an end

This is what a channel from one end of a link to the other is meant to be: a queue. At one
end messages are sent and the stream is finished, at the other they are received, and what is
received comes out as it went in. `Vault.Fifo` is that queue, with no lanes, frames or bytes,
and `Vault.Fifo.Explains` says that a record of operations and their results could have been
made on it.

A record that a queue explains is settled by what was done at the sending end, and the second
half of this file says how (`Vault.Fifo.Explains.answered`, `Vault.Fifo.Explains.heard`). The
operations up to the first finish are **accepted** (`Vault.Fifo.Op.accepted`). They are
received one after another, the finish as the end of the stream or as the status it gave, and
everything received after that is the end of the stream again. Operations after the first
finish change nothing.
-/

namespace Vault

namespace Fifo

/-- What is done at the sending end. -/
inductive Op where
  /-- Send a message. -/
  | send (m : Bytes)
  /-- Finish the stream, cleanly or with a status. -/
  | finish (outcome : Except Status Unit)

namespace Op

/-- Whether this finishes the stream. -/
def isFinish : Op → Bool
  | send _ => false
  | finish _ => true

/-- What the receiving end gets of an operation. -/
def seen : Op → Except LinkError (Option Bytes)
  | send m => .ok (some m)
  | finish (.ok _) => .ok none
  | finish (.error s) => .error (.remote s)

/-- The answer to an operation after the stream was finished. -/
def late : Op → Except LinkError Unit
  | send _ => .error .closed
  | finish _ => .ok ()

/-- The operations that count: those up to the first finish. -/
def accepted : List Op → List Op
  | [] => []
  | send m :: ops => send m :: accepted ops
  | finish outcome :: _ => [finish outcome]

/-- The answers to operations one after another. -/
def answers : List Op → List (Except LinkError Unit)
  | [] => []
  | send _ :: ops => .ok () :: answers ops
  | finish _ :: ops => .ok () :: ops.map late

theorem accepted_concat (ops : List Op) (op : Op) :
    accepted (ops ++ [op]) = if ops.any isFinish then accepted ops else accepted ops ++ [op] := by
  induction ops with
  | nil => cases op <;> rfl
  | cons first ops ih =>
    cases first with
    | send m =>
      change send m :: accepted (ops ++ [op]) = if ops.any isFinish then _ else _
      rw [ih]
      split_ifs <;> rfl
    | finish outcome => rfl

theorem answers_concat (ops : List Op) (op : Op) :
    answers (ops ++ [op]) =
      answers ops ++ [if ops.any isFinish then op.late else .ok ()] := by
  induction ops with
  | nil => cases op <;> rfl
  | cons first ops ih =>
    cases first with
    | send m =>
      change _ :: answers (ops ++ [op]) = _ :: (answers ops ++ [if ops.any isFinish then _ else _])
      rw [ih]
    | finish outcome =>
      change _ :: (ops ++ [op]).map late = _ :: (ops.map late ++ [op.late])
      rw [List.map_append, List.map_singleton]

/-- Before the end every operation counts. -/
theorem accepted_append {ops : List Op} (h : ops.any isFinish = false) (more : List Op) :
    accepted (ops ++ more) = ops ++ accepted more := by
  induction ops with
  | nil => rfl
  | cons first ops ih =>
    cases first with
    | send m =>
      change send m :: accepted (ops ++ more) = send m :: (ops ++ accepted more)
      rw [ih h]
    | finish outcome => cases h

/-- After the end none does. -/
theorem accepted_append_of_finish {ops : List Op} (h : ops.any isFinish = true) (more : List Op) :
    accepted (ops ++ more) = accepted ops := by
  induction ops with
  | nil => cases h
  | cons first ops ih =>
    cases first with
    | send m =>
      change send m :: accepted (ops ++ more) = send m :: accepted ops
      rw [ih h]
    | finish outcome => rfl

theorem accepted_eq_self {ops : List Op} (h : ops.any isFinish = false) : accepted ops = ops := by
  have happend := accepted_append h []
  rwa [List.append_nil, accepted, List.append_nil] at happend

end Op

/-- One operation that is over, at the sending or the receiving end. -/
inductive Event where
  /-- An operation was answered. -/
  | put (op : Op) (answer : Except LinkError Unit)
  /-- Something was received. -/
  | got (result : Except LinkError (Option Bytes))

/-- What has been done at the sending end. -/
def done (history : List Event) : List Op :=
  history.filterMap fun
    | .put op _ => some op
    | .got _ => none

/-- How it was answered. -/
def answered (history : List Event) : List (Except LinkError Unit) :=
  history.filterMap fun
    | .put _ answer => some answer
    | .got _ => none

/-- What has been received. -/
def heard (history : List Event) : List (Except LinkError (Option Bytes)) :=
  history.filterMap fun
    | .put _ _ => none
    | .got result => some result

section Concat

variable (history : List Event) (op : Op) (answer : Except LinkError Unit)
  (result : Except LinkError (Option Bytes))

@[simp] theorem done_put : done (history ++ [.put op answer]) = done history ++ [op] :=
  List.filterMap_append

@[simp] theorem done_got : done (history ++ [.got result]) = done history :=
  List.filterMap_append.trans (List.append_nil _)

@[simp] theorem answered_put :
    answered (history ++ [.put op answer]) = answered history ++ [answer] :=
  List.filterMap_append

@[simp] theorem answered_got : answered (history ++ [.got result]) = answered history :=
  List.filterMap_append.trans (List.append_nil _)

@[simp] theorem heard_put : heard (history ++ [.put op answer]) = heard history :=
  List.filterMap_append.trans (List.append_nil _)

@[simp] theorem heard_got : heard (history ++ [.got result]) = heard history ++ [result] :=
  List.filterMap_append

end Concat

end Fifo

/-- **A queue of messages with an end.** -/
structure Fifo where
  /-- What was accepted and has not been received. -/
  queue : List Fifo.Op := []
  /-- Whether the stream was finished. -/
  ended : Bool := false

namespace Fifo

/-- Do something at the sending end. -/
def put (q : Fifo) (op : Op) : Fifo × Except LinkError Unit :=
  if q.ended then (q, op.late)
  else (⟨q.queue ++ [op], op.isFinish⟩, .ok ())

/-- Receive; with nothing in the queue and no end to the stream there is nothing to receive. -/
def take (q : Fifo) : Option (Fifo × Except LinkError (Option Bytes)) :=
  match q.queue with
  | op :: queue => some ({ q with queue }, op.seen)
  | [] => if q.ended then some (q, .ok none) else none

/-- **A record that could have been made on a queue**, and the queue as it was left. -/
inductive Explains : List Event → Fifo → Prop
  | nil : Explains [] {}
  | put {history : List Event} {q q' : Fifo} {op : Op} {answer : Except LinkError Unit}
    (h : Explains history q) (hput : q.put op = (q', answer)) :
    Explains (history ++ [.put op answer]) q'
  | got {history : List Event} {q q' : Fifo} {result : Except LinkError (Option Bytes)}
    (h : Explains history q) (htake : q.take = some (q', result)) :
    Explains (history ++ [.got result]) q'

namespace Explains

variable {history : List Event} {q : Fifo}

theorem ended_eq (h : Explains history q) : q.ended = (done history).any Op.isFinish := by
  induction h with
  | nil => rfl
  | @put history q q' op answer h hput ih =>
    rw [Fifo.put] at hput
    rw [done_put, List.any_append, ← ih]
    split_ifs at hput with hended <;> cases hput
    · rw [hended, Bool.true_or]
    · rw [Bool.eq_false_iff.mpr hended, Bool.false_or, List.any_cons, List.any_nil, Bool.or_false]
  | @got history q q' result h htake ih =>
    rw [take] at htake
    rw [done_got, ← ih]
    split at htake
    · cases htake
      rfl
    · split_ifs at htake
      cases htake
      rfl

/-- **How operations are answered** is settled by the operations. -/
theorem answered (h : Explains history q) :
    Fifo.answered history = Op.answers (done history) := by
  induction h with
  | nil => rfl
  | @put history q q' op answer h hput ih =>
    rw [Fifo.put] at hput
    rw [answered_put, done_put, Op.answers_concat, ih, ← h.ended_eq]
    split_ifs at hput with hended <;> cases hput
    · rw [hended, if_pos rfl]
    · rw [if_neg hended]
  | got h htake ih => rw [answered_got, done_got, ih]

/-- What is in the queue was accepted and has not been received, and nothing is received
beyond what was accepted unless the stream is finished. -/
theorem queue_eq (h : Explains history q) :
    q.queue = (Op.accepted (done history)).drop (heard history).length ∧
      (q.ended = false → (heard history).length ≤ (Op.accepted (done history)).length) := by
  induction h with
  | nil => exact ⟨rfl, fun _ => Nat.le_refl 0⟩
  | @put history q q' op answer h hput ih =>
    obtain ⟨hqueue, hle⟩ := ih
    rw [Fifo.put] at hput
    rw [done_put, heard_put, Op.accepted_concat, ← h.ended_eq]
    split_ifs at hput with hended <;> cases hput
    · rw [if_pos hended]
      exact ⟨hqueue, hle⟩
    · have hle := hle (Bool.eq_false_iff.mpr hended)
      rw [if_neg hended, List.drop_append_of_le_length hle, ← hqueue, List.length_append]
      exact ⟨rfl, fun _ => Nat.le_add_right_of_le hle⟩
  | @got history q q' result h htake ih =>
    obtain ⟨hqueue, hle⟩ := ih
    rw [take] at htake
    rw [done_got, heard_got, List.length_append, List.length_singleton, ← List.drop_drop, ← hqueue]
    split at htake
    · next op queue hq =>
      cases htake
      refine ⟨by rw [hq]; rfl, fun _ => ?_⟩
      have hlength := congrArg List.length (hq.symm.trans hqueue)
      rw [List.length_cons, List.length_drop] at hlength
      omega
    · next hq =>
      split_ifs at htake with hended
      cases htake
      refine ⟨by rw [hq]; rfl, fun hc => ?_⟩
      rw [hended] at hc
      cases hc

/-- **What is received is what was accepted**, in that order, and then the end of the stream
as often as it is asked for. -/
theorem heard (h : Explains history q) :
    Fifo.heard history =
      ((Op.accepted (done history)).take (Fifo.heard history).length).map Op.seen ++
        List.replicate ((Fifo.heard history).length - (Op.accepted (done history)).length)
          (.ok none) := by
  induction h with
  | nil => rfl
  | @put history q q' op answer h hput ih =>
    obtain ⟨-, hle⟩ := h.queue_eq
    rw [done_put, heard_put, Op.accepted_concat, ← h.ended_eq]
    split_ifs with hended
    · exact ih
    · -- nothing was received that had not been accepted before
      have hle := hle (Bool.eq_false_iff.mpr hended)
      have hnone : (Fifo.heard history).length - (Op.accepted (done history) ++ [op]).length = 0 :=
        Nat.sub_eq_zero_of_le (by rw [List.length_append]; omega)
      rw [Nat.sub_eq_zero_of_le hle] at ih
      rw [List.take_append_of_le_length hle, hnone]
      exact ih
  | @got history q q' result h htake ih =>
    obtain ⟨hqueue, -⟩ := h.queue_eq
    have hlength := congrArg List.length hqueue
    rw [List.length_drop] at hlength
    rw [take] at htake
    rw [done_got, heard_got, List.length_append, List.length_singleton]
    split at htake
    · next op queue hq =>
      cases htake
      rw [hq, List.length_cons] at hlength
      have hnext : (Op.accepted (done history))[(Fifo.heard history).length]? = some op := by
        rw [← List.head?_drop, ← hqueue, hq]
        rfl
      rw [Nat.sub_eq_zero_of_le (by omega), List.replicate_zero, List.append_nil] at ih ⊢
      rw [List.take_add_one, List.map_append, ← ih, hnext]
      rfl
    · next hq =>
      split_ifs at htake
      cases htake
      rw [hq, List.length_nil] at hlength
      have hall : (Op.accepted (done history)).length ≤ (Fifo.heard history).length := by omega
      rw [List.take_of_length_le hall] at ih
      rw [List.take_of_length_le (Nat.le_succ_of_le hall), Nat.succ_sub hall,
        List.replicate_succ', ← List.append_assoc, ← ih]

/-- **What is received at last** is the operation that was accepted in that place, or the end
of the stream, whatever the sending end does later. -/
theorem heard_get (h : Explains history q) (todo : List Op) {k : ℕ}
    {x : Except LinkError (Option Bytes)} (hx : (Fifo.heard history)[k]? = some x) :
    x = ((Op.accepted (done history ++ todo))[k]?.map Op.seen).getD (.ok none) := by
  obtain ⟨-, hle⟩ := h.queue_eq
  obtain ⟨hk, -⟩ := List.getElem?_eq_some_iff.mp hx
  rw [h.heard] at hx
  by_cases hin : k < (Op.accepted (done history)).length
  · -- it was accepted by then
    have hfront : (Op.accepted (done history ++ todo))[k]? = (Op.accepted (done history))[k]? := by
      cases hended : (done history).any Op.isFinish with
      | true => rw [Op.accepted_append_of_finish hended]
      | false =>
        rw [Op.accepted_eq_self hended] at hin ⊢
        rw [Op.accepted_append hended, List.getElem?_append_left hin]
    rw [List.getElem?_append_left (by rw [List.length_map, List.length_take]; omega),
      List.getElem?_map, List.getElem?_take_of_lt hk] at hx
    rw [hfront, hx]
    rfl
  · have hended : q.ended = true := by
      by_contra hc
      have := hle (Bool.eq_false_iff.mpr hc)
      omega
    rw [h.ended_eq] at hended
    have hlength : (List.map Op.seen (List.take (Fifo.heard history).length
        (Op.accepted (done history)))).length ≤ k := by
      rw [List.length_map, List.length_take]
      omega
    rw [List.getElem?_append_right hlength] at hx
    have hnone : x = .ok none := List.eq_of_mem_replicate (List.mem_of_getElem? hx)
    rw [Op.accepted_append_of_finish hended, List.getElem?_eq_none (Nat.le_of_not_lt hin), hnone]
    rfl

end Explains

end Fifo

end Vault
