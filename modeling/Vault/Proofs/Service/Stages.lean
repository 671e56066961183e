import Vault.Proofs.Frame.Stream
import Vault.Proofs.Session.Lifecycle
import Vault.Service.Connection

/-!
# The stages of a connection

A connection takes a first frame and then acknowledges a ping, refuses, or runs a session.
Apart from the bytes of the frame under way, where it stands is its **stage**
(`Vault.Connection.Stage`), and it goes from one stage to the next by dealings with its
stream (`Vault.Connection.Deals`), while others change the host it runs on. What was heard
from the peer and what was said to it can be read off the dealings
(`Vault.Server.heard`, `Vault.Server.said`).

An **invariant** relates the dealings so far to the stage and the host, and is kept by every
further dealing and by what others may do to the host (`Vault.Connection.Invariant`). What
others may do is left open but for a relation that it keeps to: a record of the store's
calls, for one, is not theirs to change.
-/

namespace Vault

open Server (Call Dealing Poised)

/-! ### What was heard and what was said -/

namespace Server.Dealing

/-- The frame that was received. -/
def heard? : Dealing → Option Frame
  | receive (some (.ok f)) => f
  | _ => none

/-- The frame that was to be written, if the wait for it was not given up. It is written
unless it is too long. -/
def said? : Dealing → Option Frame
  | send m (some _) => some (.message m)
  | finish last (some _) => some (Link.closingFrame last)
  | _ => none

/-- **A stream that does not fail**: frames are written if they are not too long, and what is
received is what the peer's bytes make of a frame. -/
def Faithful : Dealing → Prop
  | receive (some x) => ∃ r : Frame.Reading, r.Exact ∧ (r.atEnd = x ∨ r.progress = .done x)
  | send m (some x) => x = (Frame.message m).outcome
  | finish last (some x) => x = (Link.closingFrame last).outcome
  | _ => True

end Server.Dealing

/-- The frames that were received. -/
def Server.heard (ds : List Dealing) : List Frame := ds.filterMap Dealing.heard?

/-- The frames that were written, and those that were too long. -/
def Server.said (ds : List Dealing) : List Frame := ds.filterMap Dealing.said?

namespace Server

variable (ds : List Dealing) {d : Dealing}

/-- A frame that is received is the last that was heard. -/
theorem heard_concat {f : Frame} (h : d.heard? = some f) : heard (ds ++ [d]) = heard ds ++ [f] := by
  simp [heard, h]

theorem heard_concat_of_none (h : d.heard? = none) : heard (ds ++ [d]) = heard ds := by
  simp [heard, h]

/-- No dealing is heard as more than one frame. -/
theorem length_heard_concat (d : Dealing) :
    (heard (ds ++ [d])).length ≤ (heard ds).length + 1 := by
  rcases h : d.heard? with _ | f
  · rw [heard_concat_of_none ds h]
    exact Nat.le_succ _
  · rw [heard_concat ds h, List.length_append]
    exact Nat.le_refl _

/-- The first frame that was heard stays the first. -/
theorem head?_heard_concat (d : Dealing) {f : Frame} (h : (heard ds).head? = some f) :
    (heard (ds ++ [d])).head? = some f := by
  rw [heard, List.filterMap_append, List.head?_append]
  exact Option.or_eq_some_iff.mpr (Or.inl h)

/-- A frame that is written is the last that was said. -/
theorem said_concat {f : Frame} (h : d.said? = some f) : said (ds ++ [d]) = said ds ++ [f] := by
  simp [said, h]

theorem said_concat_of_none (h : d.said? = none) : said (ds ++ [d]) = said ds := by
  simp [said, h]

end Server

namespace Connection

variable {σ : Type}

/-! ### Stages -/

/-- Where a connection stands, apart from the bytes of the frame under way. -/
inductive Stage where
  /-- Waiting for the first frame. -/
  | opening
  /-- Acknowledging a ping. -/
  | acknowledging
  /-- Refusing the connection. -/
  | refusing (e : ServiceError) (s : Status)
  /-- Running a session. -/
  | session (call : Call) (phase : Server.Phase) (waiting : Server.Waiting)
  /-- Over. -/
  | ended (result : Except ServiceError Unit)

/-- The stage of a connection. -/
def stage : Connection → Stage
  | .opening _ => .opening
  | .acknowledging _ => .acknowledging
  | .refusing e s _ => .refusing e s
  | .session r => .session r.call r.phase r.waiting
  | .ended result => .ended result

/-- A connection that has just come to a stage: nothing of the next frame is read or
written. -/
def Stage.entered : Stage → Connection
  | opening => .opening {}
  | acknowledging => .acknowledging none
  | refusing e s => .refusing e s none
  | session call phase waiting => .session { call, phase, waiting }
  | ended result => .ended result

@[simp] theorem stage_entered (s : Stage) : s.entered.stage = s := by
  cases s <;> rfl

/-- The stage of a session that has come to a turn. -/
def ofTurn (call : Call) (t : Server.Turn σ) : Stage :=
  match t.next with
  | .inl waiting => .session call t.phase waiting
  | .inr (.ok _) => .ended (.ok ())
  | .inr (.error e) => .ended (.error (.session e))

/-- A connection is refused for this reason. -/
def turnsAway (e : ServiceError) (h : Host σ) : Stage × Host σ :=
  (.refusing e (.invalidArgument e.message), h.recordStatus (.invalidArgument e.message))

/-- What comes of the first frame. -/
def greeted (x : Except LinkError (Option Frame)) (h : Host σ) : Stage × Host σ :=
  match x with
  | .ok (some (.open .ping)) => (.acknowledging, h)
  | .ok (some (.open .echo)) => (.session .echo .awaitingPeerKey (.receive .peerKey), h)
  | .ok (some (.open .session)) => (.session .serve .awaitingPeerKey (.receive .peerKey), h)
  | .ok (some f) => turnsAway (.protocol ("expected an open frame, got " ++ f.kindName)) h
  | .ok none => (.ended (.ok ()), h)
  | .error e => turnsAway (.link e) h

/-- What became of an acknowledgement. -/
def acknowledged : Except LinkError Unit → Except ServiceError Unit
  | .ok _ => .ok ()
  | .error e => .error (.link e)

variable [Store σ]

/-- **From one stage to the next.** -/
inductive Deals : Stage → Host σ → Dealing → Stage → Host σ → Prop
  /-- The first frame arrives, or something in its place. -/
  | opened {h : Host σ} (x : Except LinkError (Option Frame)) :
    Deals .opening h (.receive (some x)) (greeted x h).1 (greeted x h).2
  /-- A ping is acknowledged. -/
  | acknowledged {h : Host σ} (x : Except LinkError Unit) :
    Deals .acknowledging h (.finish (.ok ()) (some x)) (.ended (acknowledged x)) h
  /-- A connection is refused. -/
  | refused {h : Host σ} {e : ServiceError} {s : Status} (x : Except LinkError Unit) :
    Deals (.refusing e s) h (.finish (.error s) (some x)) (.ended (.error e)) h
  /-- A session goes on. -/
  | session {h : Host σ} {call : Call} {p : Server.Phase} {w : Server.Waiting} {d : Dealing}
    {t : Server.Turn σ} (hd : Server.Deals call ⟨p, h, .inl w⟩ d t) :
    Deals (.session call p w) h d (ofTurn call t) t.host

/-! ### Sessions within a connection -/

/-- A session on a connection serves or echoes, and waits for what it may. -/
def Stage.Sane : Stage → Prop
  | .session call p w => call.loops = true ∧ Poised p (.inl w)
  | _ => True

omit [Store σ] in
/-- Whatever comes first, no session begins but one that serves or echoes and waits for a key. -/
theorem sane_greeted (x : Except LinkError (Option Frame)) (h : Host σ) : (greeted x h).1.Sane := by
  rcases x with e | _ | f
  · exact trivial
  · exact trivial
  · rcases f with m | m | _ | s
    · cases m with
      | ping => exact trivial
      | echo => exact ⟨rfl, .key⟩
      | session => exact ⟨rfl, .key⟩
    all_goals exact trivial

omit [Store σ] in
/-- A session that waits for what it may is in order, and so is one that is over. -/
theorem sane_ofTurn {call : Call} {t : Server.Turn σ} (hc : call.loops = true)
    (ht : Poised t.phase t.next) : (ofTurn call t).Sane := by
  obtain ⟨p, h, w | e | a⟩ := t
  · exact ⟨hc, ht⟩
  · exact trivial
  · exact trivial

/-- A dealing with the stream keeps a session in order. -/
theorem Deals.sane {s s' : Stage} {h h' : Host σ} {d : Dealing} (hd : Deals s h d s' h')
    (hs : s.Sane) : s'.Sane := by
  cases hd with
  | opened x => exact sane_greeted x h
  | acknowledged x => exact trivial
  | refused x => exact trivial
  | session hd =>
    obtain ⟨hc, hp⟩ := hs
    obtain ⟨-, -, hon⟩ | ⟨-, -, h₁, result, rfl⟩ := Server.deals_cases hd hp
    · exact sane_ofTurn hc hon.poised
    · exact sane_ofTurn hc (Poised.ended Server.Phase.resting_terminated result)

/-- **What every dealing keeps**, on a stream that does not fail, and what others may do to the
host as well. -/
structure Invariant (may : Host σ → Host σ → Prop) (P : List Dealing → Stage → Host σ → Prop) :
    Prop where
  others : ∀ {ds s h h'}, P ds s h → may h h' → P ds s h'
  deals : ∀ {ds s h d s' h'}, s.Sane → P ds s h → Deals s h d s' h' → d.Faithful →
    P (ds ++ [d]) s' h'

end Connection

end Vault
