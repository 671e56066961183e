import Vault.Retention

/-!
# Several sweepers in one time

The sweepers that look after one store are a **crew**. They share the time. What is due
first happens first; of sweepers that are due at once, the one that has waited longest
goes on first, and it goes on for as long as it need not wait.

Whoever started a sweeper may wait for it to stop, up to a timeout. That takes as long as
the sweeper does, and whatever else is due by then happens too.
-/

namespace Vault.Retention

/-- The sweepers of a store. -/
structure Crew where
  /-- The time. -/
  now : Nat := 0
  /-- The sweepers by number, the one that has waited longest first. -/
  sweepers : List (Nat × Sweeper) := []

namespace Crew

variable {σ : Type}

/-! ### Who goes on next -/

/-- When the first of the crew goes on. -/
def soonest? (cancelled : Bool) (c : Crew) : Option Nat :=
  (c.sweepers.filterMap fun w => due? cancelled c.now w.2).min?

/-- The first sweeper that goes on at a time, and the others. -/
def pick? (cancelled : Bool) (now t : Nat) :
    List (Nat × Sweeper) → Option ((Nat × Sweeper) × List (Nat × Sweeper))
  | [] => none
  | w :: ws =>
    if due? cancelled now w.2 = some t then some (w, ws)
    else (pick? cancelled now t ws).map fun (v, vs) => (v, w :: vs)

/-- Put a sweeper that went on back among the others: to the front if it can go on still,
to the end if it has to wait. -/
def putBack (cancelled : Bool) (t : Nat) (w : Nat × Sweeper) (others : List (Nat × Sweeper)) :
    List (Nat × Sweeper) :=
  if due? cancelled t w.2 = some t then w :: others else others ++ [w]

/-- What there is to hear from the sweeper of a number. -/
def heard? (c : Crew) (number : Nat) : Option (Except RetentionError Report) :=
  (c.sweepers.lookup number).bind Retention.heard?

/-- Up to when the time passes: to the deadline, or to the end of this instant once there is
something to hear from the sweeper that is waited for. -/
def horizon (c : Crew) (awaited : Option Nat) (deadline : Nat) : Nat :=
  match awaited.bind c.heard? with
  | some _ => min deadline (c.now + 1)
  | none => deadline

/-! ### Time -/

/-- A new sweeper of a number joins the crew. -/
def hire (c : Crew) (number : Nat) (p : Policy) (uptime : Nat) (h : Host σ) : Crew × Host σ :=
  let (w, h) := start p uptime c.now h
  ({ c with sweepers := c.sweepers ++ [(number, w)] }, h)

variable [Store σ]

/-- Do what is due before the deadline, in at most `fuel` steps. -/
def run (pace : Pace) (awaited : Option Nat) (deadline : Nat) :
    Nat → Crew → Host σ → Crew × Host σ
  | 0, c, h => (c, h)
  | fuel + 1, c, h =>
    match c.soonest? h.signal.cancelled with
    | none => (c, h)
    | some t =>
      if t < c.horizon awaited deadline then
        match pick? h.signal.cancelled c.now t c.sweepers with
        | none => (c, h)
        | some ((number, w), others) =>
          let (w, h) := step pace t w h
          let sweepers := putBack h.signal.cancelled t (number, w) others
          run pace awaited deadline fuel { now := t, sweepers } h
      else (c, h)

/-- More steps than there can be before a deadline: a tick takes its sweeper at least a
nanosecond further and has one end, and a sweeper stops once. -/
def enough (c : Crew) (deadline : Nat) : Nat :=
  c.sweepers.length * (2 * (deadline + 1) + 1)

/-- Do what is due now. -/
def settle (pace : Pace) (c : Crew) (h : Host σ) : Crew × Host σ :=
  c.run pace none (c.now + 1) (c.enough (c.now + 1)) h

/-- Let time pass up to a deadline, or until there is something to hear from the sweeper
that is waited for. -/
def passTo (pace : Pace) (awaited : Option Nat) (deadline : Nat) (c : Crew) (h : Host σ) :
    Crew × Host σ :=
  let (c, h) := c.run pace awaited deadline (c.enough deadline) h
  match awaited.bind c.heard? with
  | some _ => (c, h)
  | none => ({ c with now := max c.now deadline }, h)

/-- Let a length of time pass; what measures it is a timer too. -/
def pass (pace : Pace) (d : Duration) (c : Crew) (h : Host σ) : Crew × Host σ :=
  c.passTo pace none (goesOff (c.now + d.totalNanos)) h

/-- Wait for the sweeper of a number to stop, no longer than the timeout. -/
def wait (pace : Pace) (number : Nat) (timeout : Duration) (c : Crew) (h : Host σ) :
    Except RetentionError Report × Crew × Host σ :=
  let (c, h) := c.passTo pace (some number) (goesOff (c.now + timeout.totalNanos)) h
  ((c.heard? number).getD (.error (.shutdownTimeout timeout)), c, h)

end Crew

end Vault.Retention
