import Vault.Proofs.Schedule
import Vault.Proofs.Session.Parting

/-!
# A peer that sends requests to a server

A peer on an established session sends requests without waiting for replies, and may close its
side after the last. It reads whatever comes back. A server at the other end of the link, of
queues or of pipes, serves the requests until the shutdown signal is raised, or the sender of
the signal is gone, and that may be at any of its polls (`Vault.Shutdown.step`).

What the peer does is followed here: which requests are on their way to the server
(`Vault.Shutdown.Forth`) and which frames are on their way back (`Vault.Shutdown.Back`) after a
try to send and after a try to read.
-/

open Vault.Frame (Reading)

namespace Vault

namespace Shutdown

open Fifo (Op)
open Duplex (listening)

variable {σ : Type} [Store σ]

/-! ### The machine -/

/-- A peer that sends requests and reads replies, and a server, at the two ends of a link. -/
structure Pair (σ : Type) where
  /-- What the peer has not sent yet. -/
  todo : List Op
  /-- The bytes left of a frame that has begun to leave. -/
  rest : Option Bytes
  /-- The bytes that the peer has taken of a frame that is arriving. -/
  reading : Reading
  /-- The frames that the peer has read. -/
  got : List Frame
  /-- Whether the peer has found the stream at its end. -/
  atEnd : Bool
  /-- The link. -/
  link : Link
  /-- Where the server's call has got to. -/
  stop : Server.Stop
  /-- The server's host. -/
  host : Host σ

/-- Who moves. -/
inductive Move where
  /-- The peer tries to send. -/
  | put
  /-- The peer tries to read. -/
  | take
  /-- The server is polled, at this time and with the shutdown signal like this. -/
  | serve (t : Timestamp) (s : Signal)

/-- One move: whoever moves tries once to get past its wait. A peer that cannot send any more
gives up sending, and a server whose session is over lets go of its end. -/
def step : Move → Pair σ → Pair σ
  | .put, w =>
    match w.todo with
    | [] => w
    | op :: todo =>
      match op.attempt w.link .left w.rest with
      | (link, .ready (.ok _)) => { w with link, todo, rest := none }
      | (link, .ready (.error _)) => { w with link, todo := [], rest := none }
      | (link, .waiting rest) => { w with link, rest }
  | .take, w =>
    if w.atEnd then w
    else
      match w.link.receive .left w.reading with
      | (link, .ready (.ok (some f))) => { w with link, reading := {}, got := w.got ++ [f] }
      | (link, .ready _) => { w with link, reading := {}, atEnd := true }
      | (link, .waiting reading) => { w with link, reading }
  | .serve t s, w =>
    match Server.poll t s w.stop w.link w.host with
    | (stop, link, host) => { w with link, stop, host }

/-- What a peer does with a list of requests: it sends them, and it may close its side. -/
def ops (ms : List Bytes) (closes : Bool) : List Op :=
  ms.map .send ++ if closes then [.finish (.ok ())] else []

omit [Store σ] in
/-- The two have a session, and the server listens. -/
def start (make : Make) (secret : Crypto.SharedSecret) (ms : List Bytes) (closes : Bool)
    (h : Host σ) : Pair σ where
  todo := ops ms closes
  rest := none
  reading := {}
  got := []
  atEnd := false
  link := make.link
  stop := listening secret {}
  host := h

/-- Where everything has got to. -/
def run (make : Make) (secret : Crypto.SharedSecret) (ms : List Bytes) (closes : Bool)
    (h : Host σ) (sched : ℕ → Move) (n : ℕ) : Pair σ :=
  Schedule.after step sched (start make secret ms closes h) n

/-! ### What the peer has to do -/

section Ops

variable {ms served : List Bytes} {closes : Bool} {before after : List Op} {m : Bytes}
  {outcome : Except Status Unit}

theorem ops_cons : ops (m :: ms) closes = .send m :: ops ms closes := rfl

/-- What was sent is the front of the requests. -/
theorem exists_more (h : ops ms closes = served.map .send ++ after) :
    ∃ more, ms = served ++ more := by
  induction served generalizing ms with
  | nil => exact ⟨ms, rfl⟩
  | cons m' served ih =>
    cases ms with
    | nil => cases closes <;> exact nomatch h
    | cons m ms =>
      rw [ops_cons, List.map_cons, List.cons_append] at h
      obtain ⟨hm, hms⟩ := List.cons.inj h
      obtain ⟨more, rfl⟩ := ih hms
      obtain rfl := Op.send.inj hm
      exact ⟨more, rfl⟩

/-- The peer closes its side after the last request. -/
theorem of_finish (h : ops ms closes = before ++ .finish outcome :: after) :
    before = ms.map .send ∧ after = [] ∧ closes = true ∧ outcome = .ok () := by
  induction ms generalizing before with
  | nil =>
    cases closes with
    | false => exact absurd h (by simp [ops])
    | true =>
      cases before with
      | nil =>
        obtain ⟨hop, hafter⟩ := List.cons.inj h
        exact ⟨rfl, hafter.symm, rfl, (Op.finish.inj hop).symm⟩
      | cons op before => exact absurd (congrArg List.length h) (by simp [ops])
  | cons m ms ih =>
    cases before with
    | nil => exact nomatch (List.cons.inj h).1
    | cons op before =>
      obtain ⟨rfl, hms⟩ := List.cons.inj h
      obtain ⟨rfl, hrest⟩ := ih hms
      exact ⟨rfl, hrest⟩

end Ops

/-! ### Requests on their way -/

/-- The frame that the peer has begun to send. -/
def Pair.begun (w : Pair σ) : Option (Frame × Bytes) :=
  match w.todo with
  | [] => none
  | op :: _ => w.rest.map (Prod.mk op.frame)

/-- **The requests on their way** to a server that has taken some of them and is reading the
next. -/
structure Forth (make : Make) (ms : List Bytes) (closes : Bool) (taken : List Bytes)
    (F : List Op) (ended : Bool) (reading : Reading) (w : Pair σ) : Prop where
  all : ops ms closes = taken.map .send ++ (F ++ w.todo)
  flow : Flow make .left F w.begun ended reading w.link
  said : w.link.done .left = ended
  last : ended = true → w.todo = [] ∧ .finish (.ok ()) ∈ F
  takes : ∀ op ∈ w.todo, make.Takes op.frame

/-- **The replies on their way** to a peer that has not come to the end of the stream. -/
structure Back (make : Make) (B : List Op) (begun : Option (Frame × Bytes)) (w : Pair σ) :
    Prop where
  flow : Flow make .right B begun false w.reading w.link
  unsaid : w.link.done .right = false
  reads : w.atEnd = false

section Peer

variable {make : Make} {ms taken : List Bytes} {closes : Bool} {F B : List Op} {ended : Bool}
  {reading : Reading} {begun : Option (Frame × Bytes)} {w v : Pair σ} {l : Link}

theorem step_put {op : Op} {todo : List Op} (htodo : w.todo = op :: todo)
    (hattempt : op.attempt w.link .left w.rest = (l, .ready (.ok ()))) :
    step .put w = { w with link := l, todo := todo, rest := none } := by
  simp only [step, htodo, hattempt]

theorem step_take {f : Frame} (hreads : w.atEnd = false)
    (hreceive : w.link.receive .left w.reading = (l, .ready (.ok (some f)))) :
    step .take w = { w with link := l, reading := {}, got := w.got ++ [f] } := by
  simp only [step, if_neg (Bool.eq_false_iff.mp hreads), hreceive]

theorem step_take_part {r : Reading} (hreads : w.atEnd = false)
    (hreceive : w.link.receive .left w.reading = (l, .waiting r)) :
    step .take w = { w with link := l, reading := r } := by
  simp only [step, if_neg (Bool.eq_false_iff.mp hreads), hreceive]

omit [Store σ] in
theorem Forth.alike (h : Forth make ms closes taken F ended reading w) (htodo : v.todo = w.todo)
    (hrest : v.rest = w.rest) (ha : w.link.Alike v.link .left) :
    Forth make ms closes taken F ended reading v := by
  have hbegun : v.begun = w.begun := by
    rw [Pair.begun, Pair.begun, htodo, hrest]
  refine ⟨?_, ?_, ha.2.trans h.said, ?_, ?_⟩
  · rw [htodo]
    exact h.all
  · rw [hbegun]
    exact h.flow.alike ha
  · rw [htodo]
    exact h.last
  · rw [htodo]
    exact h.takes

omit [Store σ] in
theorem Back.alike (h : Back make B begun w) (hreading : v.reading = w.reading)
    (hover : v.atEnd = w.atEnd) (ha : w.link.Alike v.link .right) : Back make B begun v := by
  refine ⟨?_, ha.2.trans h.unsaid, hover.trans h.reads⟩
  rw [hreading]
  exact h.flow.alike ha

/-- A try to send changes nothing but what is on its way to the server. -/
theorem put_frame (w : Pair σ) :
    (step .put w).stop = w.stop ∧ (step .put w).host = w.host ∧
      (step .put w).reading = w.reading ∧ (step .put w).got = w.got ∧
      (step .put w).atEnd = w.atEnd ∧ w.link.Alike (step .put w).link .right := by
  rcases htodo : w.todo with _ | ⟨op, todo⟩
  · simp only [step, htodo]
    exact ⟨trivial, trivial, trivial, trivial, trivial, rfl, rfl⟩
  · have ha : w.link.Alike (op.attempt w.link .left w.rest).1 .right := Op.alike_attempt
    simp only [step, htodo]
    generalize op.attempt w.link .left w.rest = x at ha
    rcases x with ⟨link, (e | ⟨⟩) | rest⟩ <;>
      exact ⟨rfl, rfl, rfl, rfl, rfl, ha⟩

/-- **A try to send** puts one more request on its way, or part of one. -/
theorem Forth.put (h : Forth make ms closes taken F ended reading w) :
    ∃ F' ended', Forth make ms closes taken F' ended' reading (step .put w) := by
  rcases htodo : w.todo with _ | ⟨op, todo⟩
  · have hstep : step .put w = w := by simp only [step, htodo]
    rw [hstep]
    exact ⟨F, ended, h⟩
  have hopen : ended = false := by
    refine Bool.eq_false_iff.mpr fun hended => ?_
    exact nomatch htodo.symm.trans (h.last hended).1
  have hflow := h.flow
  rw [Pair.begun, htodo, hopen] at hflow
  have htakes : make.Takes op.frame := h.takes op (by rw [htodo]; exact List.mem_cons_self)
  rcases hflow.attempt htakes (h.said.trans hopen) with
    ⟨l, hattempt, hthrough, hdone, -, -⟩ | ⟨l, rest, hattempt, hpart, hdone, -, -⟩
  · rw [step_put htodo hattempt]
    have hall : ops ms closes = taken.map .send ++ (F ++ [op] ++ todo) := by
      rw [h.all, htodo, List.append_assoc F]
      rfl
    refine ⟨F ++ [op], op.isFinish, hall, ?_, hdone, ?_, ?_⟩
    · have hbegun : Pair.begun { w with link := l, todo := todo, rest := none } = none := by
        cases todo <;> rfl
      rw [hbegun]
      exact hthrough
    · intro hfinish
      cases op with
      | send m => nomatch hfinish
      | finish outcome =>
        rw [List.append_assoc, ← List.append_assoc] at hall
        obtain ⟨-, htodo', -, rfl⟩ := of_finish hall
        exact ⟨htodo', List.mem_append_right _ List.mem_cons_self⟩
    · intro op' hop'
      exact h.takes op' (by rw [htodo]; exact List.mem_cons_of_mem op hop')
  · have hstep : step .put w = { w with link := l, rest := rest } := by
      simp only [step, htodo, hattempt]
    rw [hstep]
    refine ⟨F, false, h.all, ?_, hdone, nofun, h.takes⟩
    rw [Pair.begun, htodo]
    exact hpart

/-- A try to read changes nothing but what is on its way to the peer and what it has read. -/
theorem take_frame (w : Pair σ) :
    (step .take w).stop = w.stop ∧ (step .take w).host = w.host ∧
      (step .take w).todo = w.todo ∧ (step .take w).rest = w.rest ∧
      w.link.Alike (step .take w).link .left := by
  have ha : w.link.Alike (w.link.receive .left w.reading).1 .left := Link.alike_receive _
  simp only [step]
  split_ifs
  · exact ⟨rfl, rfl, rfl, rfl, rfl, rfl⟩
  · generalize w.link.receive .left w.reading = x at ha
    rcases x with ⟨link, (e | _ | f) | reading⟩ <;> exact ⟨rfl, rfl, rfl, rfl, ha⟩

/-- **A try to read** before the end of the stream gets the next frame, or takes what there is
of one. -/
theorem take_flow (hflow : Flow make .right B begun ended w.reading w.link)
    (hreads : w.atEnd = false) (hmore : B = [] → ended = false) :
    ∃ B', Flow make .right B' begun ended (step .take w).reading (step .take w).link ∧
      (step .take w).link.done .right = w.link.done .right ∧ (step .take w).atEnd = false ∧
      (step .take w).got ++ B'.map Op.frame = w.got ++ B.map Op.frame ∧
      (((step .take w).link.outOf .right).backlog < (w.link.outOf .right).backlog ∨
        (step .take w).link = w.link ∧ (w.link.outOf .right).backlog = 0 ∧ ended = false) := by
  cases B with
  | cons op B =>
    obtain ⟨l, hreceive, hflow', hdone, -, hless⟩ := hflow.receive
    rw [step_take hreads hreceive]
    refine ⟨B, hflow', hdone, hreads, ?_, Or.inl hless⟩
    rw [List.append_assoc, List.map_cons]
    rfl
  | nil =>
    obtain rfl := hmore rfl
    obtain ⟨l, reading, hreceive, hflow', hdone, -, hmoved⟩ := hflow.receive_nil
    rw [step_take_part hreads hreceive]
    refine ⟨[], hflow', hdone, hreads, rfl, ?_⟩
    rcases hmoved with ⟨hl, -, hempty⟩ | hless
    · exact Or.inr ⟨hl, hempty, rfl⟩
    · exact Or.inl hless

end Peer

end Shutdown

end Vault
