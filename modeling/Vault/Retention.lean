import Vault.Host
import Vault.Service.Error

/-!
# Forgetting old documents

A **sweep** deletes every document created before now less the greatest age. The
**sweeper** does so at an interval until the shutdown signal is raised, and reports how
often it swept, how much it deleted and how often the store failed. It looks at the
signal between sweeps, never in the middle of one.

The time is counted in nanoseconds. Timers go off on whole milliseconds. A tick that comes
more than five milliseconds late pushes the next one back to a full interval after it;
otherwise ticks keep to their grid. `Vault.Retention.due?` says when a sweeper goes on and
`Vault.Retention.step` what it does then.
-/

namespace Vault.Retention

/-- How long documents are kept and how often they are looked at. -/
structure Policy where
  /-- The greatest age. -/
  maxAge : Duration
  /-- The time from sweep to sweep. -/
  interval : Duration
  deriving DecidableEq, Repr

/-- Half an hour, looked at every minute. -/
def Policy.default : Policy :=
  ⟨.ofSecs 1800, .ofSecs 60⟩

/-- What a sweeper has done. -/
structure Report where
  /-- How often it swept. -/
  ticks : Nat := 0
  /-- How many documents it deleted. -/
  deleted : Nat := 0
  /-- How often the store failed. -/
  failures : Nat := 0
  deriving DecidableEq, Repr

variable {σ : Type}

/-! ### One sweep -/

/-- Documents created before this are too old. -/
def cutoff (maxAge : Duration) (now : Timestamp) : Timestamp :=
  now.back maxAge

/-- The record of a sweep that deleted something. -/
def removed (deleted : Nat) (cutoff : Timestamp) : LogRecord :=
  ⟨.info, "retention sweep removed expired documents",
    [("deleted", toString deleted), ("cutoff", cutoff.text)]⟩

/-- Log what a sweep deleted, if anything. -/
def recordSweep (cutoff : Timestamp) (r : Except StoreError Nat) (h : Host σ) : Host σ :=
  match r with
  | .ok (n + 1) => h.record (removed (n + 1) cutoff)
  | _ => h

/-- Delete every document that is too old; the answer is their number. -/
def sweepOnce [Store σ] (maxAge : Duration) (h : Host σ) : Except StoreError Nat × Host σ :=
  let c := cutoff maxAge h.now
  let (r, h) := h.deleteBefore c
  (r, recordSweep c r h)

/-- The report after one more sweep. -/
def Report.add (p : Report) (r : Except StoreError Nat) : Report :=
  match r with
  | .ok n => { p with ticks := p.ticks + 1, deleted := p.deleted + n }
  | .error _ => { p with ticks := p.ticks + 1, failures := p.failures + 1 }

/-- The record of a sweep that failed. -/
def failed (e : StoreError) : LogRecord :=
  ⟨.error, "retention sweep failed", [("error", e.message)]⟩

/-- Log the failure of a sweep. -/
def recordFailure (r : Except StoreError Nat) (h : Host σ) : Host σ :=
  match r with
  | .ok _ => h
  | .error e => h.record (failed e)

/-! ### The sweeper -/

/-- What a sweeper is doing. -/
inductive Stage where
  /-- Waiting for the tick that is due at this time. -/
  | idle (due : Nat)
  /-- Sweeping, until the given time or for ever. The outcome is fixed already; `due` is
  the next tick. -/
  | sweeping (due : Nat) (stop : Option Nat) (cutoff : Timestamp) (result : Except StoreError Nat)
  /-- Stopped, with its report handed over. -/
  | stopped
  /-- Gone without a report. -/
  | lost

/-- A sweeper. -/
structure Sweeper where
  /-- What it goes by. -/
  policy : Policy
  /-- What it is doing. -/
  stage : Stage
  /-- What it has done. -/
  report : Report := {}

/-- How long a deletion takes: some milliseconds, or for ever. -/
abbrev Pace := Option Nat

/-- The greatest number of seconds that an instant can hold. -/
def greatestInstant : Nat := 2 ^ 63 - 1

/-- How long after the start the first tick is due, if that is an instant at all. The start
is given in whole seconds since the machine was switched on. -/
def firstTick? (uptime : Nat) (interval : Duration) : Option Nat :=
  if greatestInstant < uptime + interval.secs.toNat then none
  else if interval.totalNanos = 0 then none
  else some interval.totalNanos

/-- The record of a sweeper that starts. -/
def started (p : Policy) : LogRecord :=
  ⟨.info, "retention sweeper started",
    [("interval_secs", toString p.interval.secs.toNat),
      ("max_age_secs", toString p.maxAge.secs.toNat)]⟩

/-- The record of a sweeper that stops. -/
def stoppedRecord (r : Report) : LogRecord :=
  ⟨.info, "retention sweeper stopped",
    [("ticks", toString r.ticks), ("deleted", toString r.deleted),
      ("failures", toString r.failures)]⟩

/-- Start a sweeper. -/
def start (p : Policy) (uptime now : Nat) (h : Host σ) : Sweeper × Host σ :=
  let stage := match firstTick? uptime p.interval with
    | some wait => .idle (now + wait)
    | none => .lost
  ({ policy := p, stage }, h.record (started p))

/-- A millisecond in nanoseconds. -/
def millisecond : Nat := 1000000

/-- When a timer that is due at this time goes off. -/
def goesOff (due : Nat) : Nat :=
  (due + (millisecond - 1)) / millisecond * millisecond

/-- When the tick after one that was due at `due` and came at `now` is due. -/
def nextDue (interval : Duration) (due now : Nat) : Nat :=
  if due + 5 * millisecond < now then now + interval.totalNanos else due + interval.totalNanos

/-- When a sweeper goes on, if it ever does: at once if it is idle and the signal is raised,
otherwise when its timer goes off, which may have been before now. -/
def due? (cancelled : Bool) (now : Nat) (s : Sweeper) : Option Nat :=
  match s.stage with
  | .idle due => some (if cancelled then now else max now (goesOff due))
  | .sweeping _ (some stop) _ _ => some (max now (goesOff stop))
  | _ => none

/-- A sweep is over. -/
def finishSweep (s : Sweeper) (due : Nat) (c : Timestamp) (r : Except StoreError Nat)
    (h : Host σ) : Sweeper × Host σ :=
  ({ s with stage := .idle due, report := s.report.add r },
    recordFailure r (recordSweep c r h))

/-- A sweeper stops. -/
def stop (s : Sweeper) (h : Host σ) : Sweeper × Host σ :=
  ({ s with stage := .stopped }, h.record (stoppedRecord s.report))

/-- A tick has come: begin a sweep, and end it if it takes no time. -/
def tick [Store σ] (s : Sweeper) (due now : Nat) (pace : Pace) (h : Host σ) :
    Sweeper × Host σ :=
  let next := nextDue s.policy.interval due now
  let c := cutoff s.policy.maxAge h.now
  let (r, h) := h.deleteBefore c
  match pace with
  | some 0 => finishSweep s next c r h
  | some ms => ({ s with stage := .sweeping next (some (now + ms * millisecond)) c r }, h)
  | none => ({ s with stage := .sweeping next none c r }, h)

/-- What a sweeper does when it goes on. -/
def step [Store σ] (pace : Pace) (now : Nat) (s : Sweeper) (h : Host σ) : Sweeper × Host σ :=
  match s.stage with
  | .idle due => if h.signal.cancelled then stop s h else tick s due now pace h
  | .sweeping due (some _) c r => finishSweep s due c r h
  | _ => (s, h)

/-- What there is to hear from a sweeper at once: its report, or that it is lost. -/
def heard? (s : Sweeper) : Option (Except RetentionError Report) :=
  match s.stage with
  | .stopped => some (.ok s.report)
  | .lost => some (.error .lost)
  | _ => none

end Vault.Retention
