import Vault.Session.Server

/-!
# Polls of a server

A server at the right end of a link is polled now and then. Each poll finds a clock and a
shutdown signal that may say anything, and lets the server try once to get past its wait
(`Vault.Server.poll`). What comes of that depends on what the server waits for and on
nothing else in the world it is in, so there is one lemma for each thing that may happen: the
signal ends the wait, a frame is received or delivered, or it stays on its way.
-/

namespace Vault

variable {σ : Type}

/-- The host at a time, with the shutdown signal as it is then. -/
def Host.observing (h : Host σ) (t : Timestamp) (s : Signal) : Host σ :=
  { h with now := t, signal := s }

namespace Server

/-- Where a turn leaves a call. -/
def Turn.stop (call : Call) (t : Turn σ) : Stop :=
  match t.next with
  | .inl waiting => .waits { call, phase := t.phase, waiting }
  | .inr result => .ends t.phase result

variable [Store σ]

/-- **A poll**, at this time and with the shutdown signal like this. A call that waits tries once
to get past its wait, and as long as it does not nothing happens on the host. A server whose
session is over lets go of its end. -/
def poll (t : Timestamp) (s : Signal) (stop : Stop) (link : Link) (h : Host σ) :
    Stop × Link × Host σ :=
  match stop with
  | .waits r =>
    match attempt r link .right (h.observing t s) with
    | (link, .waiting r) => (.waits r, link, h)
    | (link, .ready turn) => (turn.stop r.call, link, turn.host)
  | .ends phase result =>
    match phase.name with
    | .terminated => (.ends phase result, link.dropEnd .right, h)
    | _ => (.ends phase result, link, h)

variable {t : Timestamp} {s : Signal} {link link' : Link} {h : Host σ} {call : Call}
  {phase : Phase} {reading reading' : Frame.Reading} {rest rest' : Option Bytes}

/-- A call that is over stays so. -/
theorem stop_poll_ends (t : Timestamp) (s : Signal) (phase : Phase) (result : Outcome)
    (link : Link) (h : Host σ) :
    (poll t s (.ends phase result) link h).1 = .ends phase result := by
  rw [poll]
  cases phase.name <;> rfl

theorem poll_waiting {r r' : Running}
    (hattempt : attempt r link .right (h.observing t s) = (link', .waiting r')) :
    poll t s (.waits r) link h = (.waits r', link', h) := by
  simp only [poll, hattempt]

theorem poll_ready {r : Running} {turn : Turn σ}
    (hattempt : attempt r link .right (h.observing t s) = (link', .ready turn)) :
    poll t s (.waits r) link h = (turn.stop r.call, link', turn.host) := by
  simp only [poll, hattempt]

/-- The shutdown signal ends a wait. -/
theorem poll_interrupted {r : Running} (hw : watched r.call r.waiting = true)
    (hs : s.cancelled = true) (link : Link) (h : Host σ) : poll t s (.waits r) link h =
      ((interrupted r.phase (h.observing t s)).stop r.call, link,
        (interrupted r.phase (h.observing t s)).host) := by
  have hends : (watched r.call r.waiting && (h.observing t s).signal.cancelled) = true :=
    Bool.and_eq_true_iff.mpr ⟨hw, hs⟩
  exact poll_ready (if_pos hends)

/-- While the shutdown signal is not raised, a try is nothing but the wait. -/
theorem attempt_observing (r : Running) (link : Link)
    (hs : (watched r.call r.waiting && s.cancelled) = false) :
    attempt r link .right (h.observing t s) = match r.waiting with
      | .receive what =>
        match link.receive .right r.reading with
        | (link, .ready x) => (link, .ready (received r.call r.phase (h.observing t s) what x))
        | (link, .waiting reading) => (link, .waiting { r with reading })
      | .deliver what =>
        match what.attempt link .right r.rest with
        | (link, .ready x) => (link, .ready (delivered r.call r.phase (h.observing t s) what x))
        | (link, .waiting rest) => (link, .waiting { r with rest }) := by
  have hgoes : ¬(watched r.call r.waiting && (h.observing t s).signal.cancelled) = true := by
    rw [show (h.observing t s).signal = s from rfl, hs]
    exact Bool.false_ne_true
  exact if_neg hgoes

section Receives

variable {what : Receiving}

theorem poll_received (hs : (watched call (.receive what) && s.cancelled) = false)
    {x : Except LinkError (Option Frame)}
    (hreceive : link.receive .right reading = (link', .ready x)) {turn : Turn σ}
    (hturn : received call phase (h.observing t s) what x = turn) :
    poll t s (.waits ⟨call, phase, .receive what, reading, rest⟩) link h =
      (turn.stop call, link', turn.host) := by
  refine poll_ready ?_
  simp only [attempt_observing ⟨call, phase, .receive what, reading, rest⟩ link hs, hreceive, hturn]

theorem poll_receiving (hs : (watched call (.receive what) && s.cancelled) = false)
    (hreceive : link.receive .right reading = (link', .waiting reading')) :
    poll t s (.waits ⟨call, phase, .receive what, reading, rest⟩) link h =
      (.waits ⟨call, phase, .receive what, reading', rest⟩, link', h) := by
  refine poll_waiting ?_
  simp only [attempt_observing ⟨call, phase, .receive what, reading, rest⟩ link hs, hreceive]

end Receives

section Delivers

variable {d : Delivering}

theorem poll_delivered (hs : (watched call (.deliver d) && s.cancelled) = false)
    {x : Except LinkError Unit} (hattempt : d.attempt link .right rest = (link', .ready x))
    {turn : Turn σ} (hturn : delivered call phase (h.observing t s) d x = turn) :
    poll t s (.waits ⟨call, phase, .deliver d, reading, rest⟩) link h =
      (turn.stop call, link', turn.host) := by
  refine poll_ready ?_
  simp only [attempt_observing ⟨call, phase, .deliver d, reading, rest⟩ link hs, hattempt, hturn]

theorem poll_delivering (hs : (watched call (.deliver d) && s.cancelled) = false)
    (hattempt : d.attempt link .right rest = (link', .waiting rest')) :
    poll t s (.waits ⟨call, phase, .deliver d, reading, rest⟩) link h =
      (.waits ⟨call, phase, .deliver d, reading, rest'⟩, link', h) := by
  refine poll_waiting ?_
  simp only [attempt_observing ⟨call, phase, .deliver d, reading, rest⟩ link hs, hattempt]

end Delivers

end Server

end Vault
