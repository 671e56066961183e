import Vault.Proofs.Session.Gate.Judging

/-!
# Who gets past the handshake

The statement is about every course that a handshake can take (`Vault.Gate.only_keys_pass`): as
long as the call goes on the peer has heard nothing and there is no secret; when it is over there
is a secret and the peer has heard, or will hear, the server's key and nothing else, or there is
none and what it hears is no message.
-/

namespace Vault

open Crypto (SharedSecret)
open Meeting (saying)
open Server (Dealing Delivering Phase Stop Outcome)

variable {σ : Type} [Store σ]

namespace Gate

/-! ### What the call comes to -/

/-- **What a call comes to** whose first event was `x`, when the server had the random bytes `e`. -/
structure Judged (w : Gate σ) (x : Event) (e : Entropy) (phase : Phase) (result : Outcome) :
    Prop where
  /-- It succeeds exactly when the event is a key that is let in, and the server's own could be
  sent. -/
  succeeds : result = .ok .done ↔
    Admitted x e ∧ .send (ownKey e).bytes (some (.ok ())) ∈ w.dealings
  /-- Then that is all that was sent, the session has its secret, and the server's key is what the
  peer has heard, or hears when it listens. -/
  entered : result = .ok .done →
    w.dealings = [.receive (some x), .send (ownKey e).bytes (some (.ok ()))] ∧
    (∃ peer secret, x = .ok (some (.message peer)) ∧ phase = .established secret ∧
      secret.bytes = Crypto.Curve25519.multiply (scalar e) peer) ∧
    (w.heard = [] ∨ w.heard = [.message (ownKey e).bytes]) ∧
    (w.gone = false → (step .listen w).heard = [.message (ownKey e).bytes])
  /-- Otherwise the session is over, and the last frame is all that the peer can have heard. It
  says that the vault has failed, if only the key could not be sent because the peer had left. If
  the event was no key, it says what `Blames` asks for, and it is sent unless the peer has left
  or it is too long. -/
  refused : result ≠ .ok .done → phase = .terminated ∧ (∃ err, result = .error err) ∧
    ∃ s y, (w.heard = [] ∨ w.heard = [.abort s]) ∧
      (Admitted x e → s.kind = .internal ∧ w.gone = true ∧ ∃ err, w.dealings =
        [.receive (some x), .send (ownKey e).bytes (some (.error err)),
          .finish (.error s) (some y)]) ∧
      (¬Admitted x e → Blames x s ∧ w.dealings = [.receive (some x), .finish (.error s) (some y)] ∧
        (y = .ok () ∨ w.gone = true ∨ ¬(Frame.abort s).Fits))

section Outcomes

variable {x : Event} {e : Entropy} {w : Gate σ} {phase : Phase} {result : Outcome}

theorem judged_entered {peer : Bytes} {secret : SharedSecret} {forth back : Lane} {h : Host σ}
    {reading : Frame.Reading} {heard : List Frame} {gone : Bool}
    (hx : x = .ok (some (.message peer))) (hsize : peer.size = 32)
    (hne : Crypto.Curve25519.multiply (scalar e) peer ≠ Bytes.replicate 32 0)
    (hsecret : secret.bytes = Crypto.Curve25519.multiply (scalar e) peer)
    (hout : Outlet (keyFrame e) none back reading heard gone)
    (hw : w = ⟨.ends (.established secret) (.ok .done), ⟨forth, back, false, false⟩, h, reading,
      heard, gone, [.receive (some x), .send (ownKey e).bytes (some (.ok ()))], some (x, e)⟩) :
    Judged w x e (.established secret) (.ok .done) := by
  subst hw
  refine ⟨iff_of_true rfl ⟨⟨peer, hx, hsize, hne⟩, ?_⟩, fun _ => ?_, fun hnot => absurd rfl hnot⟩
  · exact List.mem_cons_of_mem _ List.mem_cons_self
  refine ⟨rfl, ⟨peer, secret, hx, rfl, hsecret⟩, hout.heard_cases, ?_⟩
  rintro rfl
  rcases hout.heard_of_fits (fits_keyFrame e) with ⟨lane, r', hreceive, hheard⟩ |
    ⟨lane, y, hreceive, hheard⟩
  · rw [listen_waits hreceive]
    exact hheard
  · rw [listen_hears hreceive]
    exact hheard

/-- **Once the call is over it is what the first event makes it.** -/
theorem Judging.judged (hw : Judging x e w) (hstop : w.stop = .ends phase result) :
    Judged w x e phase result := by
  cases hw with
  | saying hv hout => cases hstop
  | failed hx herr hback => cases hstop
  | entered hx hsize hne hsecret hout =>
    cases hstop
    exact judged_entered hx hsize hne hsecret hout rfl
  | @broken err err' forth back said h reading hx herr =>
    cases hstop
    refine ⟨iff_of_false nofun ?_, nofun, fun _ => ⟨rfl, ⟨_, rfl⟩, _, .error err', Or.inl rfl,
      fun _ => ⟨herr, rfl, err, rfl⟩, fun hnot => absurd hx hnot⟩⟩
    rintro ⟨-, hsent⟩
    simp [unsent, Delivering.dealing] at hsent
  | @refused err y forth back said h reading heard gone hnot hblames hy hout =>
    cases hstop
    exact ⟨iff_of_false nofun fun hsent => hnot hsent.1, nofun, fun _ => ⟨rfl, ⟨_, rfl⟩,
      err.toStatus, y, hout.heard_cases, fun hx => absurd hx hnot,
      fun _ => ⟨hblames, rfl, hy⟩⟩⟩

omit [Store σ] in
theorem Judging.first_eq (hw : Judging x e w) : w.first = some (x, e) := by
  cases hw <;> rfl

omit [Store σ] in
/-- **As long as the call goes on** the peer has heard nothing, and there is no secret. -/
theorem Judging.waits (hw : Judging x e w) {r : Server.Running} (hstop : w.stop = .waits r) :
    w.heard = [] ∧ r.phase.shared = none := by
  cases hw with
  | saying hv hout =>
    cases hstop
    refine ⟨hout.unheard, ?_⟩
    cases hv <;> rfl
  | failed hx herr hback =>
    cases hstop
    exact ⟨rfl, rfl⟩
  | _ => cases hstop

/-- A peer is gone once it has left. -/
theorem gone_step (m : Move σ) (w : Gate σ) :
    (step m w).gone = true ↔ w.gone = true ∨ m = .leave := by
  have hnote (w : Gate σ) (d : Dealing) : (w.note d).gone = w.gone := by
    unfold note
    split <;> rfl
  cases m with
  | leave => exact iff_of_true rfl (Or.inr rfl)
  | arrive act => simp [step]
  | others act => simp [step]
  | fault err =>
    simp only [step]
    split <;> simp [hnote]
  | listen =>
    simp only [step]
    split_ifs
    · simp
    · split <;> simp
  | poll =>
    simp only [step]
    split
    · simp
    · cases Server.Running.dealing _ w.link .right <;> simp [hnote]

end Outcomes

/-! ### Runs -/

/-- Where the server stands. -/
def standing (w : Gate σ) : Stop × Link × Host σ := (w.stop, w.link, w.host)

theorem standing_poll {w : Gate σ} {r r' : Server.Running} {link : Link} (hstop : w.stop = .waits r)
    (hattempt : Server.attempt r w.link .right w.host = (link, .waiting r')) :
    standing (step .poll w) = (.waits r', link, w.host) := by
  simp only [standing, step, hstop,
    Server.poll_waiting (t := w.host.now) (s := w.host.signal) hattempt]

theorem standing_poll_ready {w : Gate σ} {r : Server.Running} {link : Link} {t : Server.Turn σ}
    (hstop : w.stop = .waits r)
    (hattempt : Server.attempt r w.link .right w.host = (link, .ready t)) :
    standing (step .poll w) = (t.stop r.call, link, t.host) := by
  simp only [standing, step, hstop,
    Server.poll_ready (t := w.host.now) (s := w.host.signal) hattempt]

/-- **A run is a series of polls**, with nothing in between. -/
theorem runTurn_eq_polls (call : Server.Call) (fuel : ℕ) (t : Server.Turn σ) (link : Link)
    (w : Gate σ) (hw : standing w = (t.stop call, link, t.host)) :
    ∃ k, Server.runTurn call .right fuel t link = standing ((step .poll)^[k] w) := by
  induction fuel generalizing t link w with
  | zero =>
    obtain ⟨phase, h, waiting | result⟩ := t
    · exact ⟨0, hw.symm⟩
    · exact ⟨0, hw.symm⟩
  | succ fuel ih =>
    obtain ⟨phase, h, waiting | result⟩ := t
    · have hstop : w.stop = .waits { call, phase, waiting } := congrArg Prod.fst hw
      have hlink : w.link = link := congrArg (fun v => v.2.1) hw
      have hhost : w.host = h := congrArg (fun v => v.2.2) hw
      rw [Server.runTurn]
      dsimp only
      rcases hattempt : Server.attempt { call, phase, waiting } link .right h with ⟨link', t' | r'⟩
      · rw [← hlink, ← hhost] at hattempt
        obtain ⟨k, hk⟩ := ih t' link' (step .poll w) (standing_poll_ready hstop hattempt)
        exact ⟨k + 1, hk⟩
      · refine ⟨1, ?_⟩
        rw [← hlink, ← hhost] at hattempt
        rw [Function.iterate_one, standing_poll hstop hattempt, hhost]
    · exact ⟨0, hw.symm⟩

/-- A run of the whole call. -/
theorem run_eq_polls (link : Link) (h : Host σ) :
    ∃ k, Server.run .accept .right .awaitingPeerKey link h =
      standing ((step .poll)^[k] (fresh link h)) :=
  runTurn_eq_polls .accept _ _ link (fresh link h) rfl

/-! ### Only keys pass -/

section Passing

variable {forth back : Lane} {sched : ℕ → Move σ}

theorem gate_cases (hback : back.Fresh) (h : Host σ) (n : ℕ) :
    Waiting (gate forth back h sched n) ∨ ∃ x e, Judging x e (gate forth back h sched n) := by
  induction n with
  | zero => exact Or.inl (.mk (Or.inl ⟨rfl, hback⟩))
  | succ n ih =>
    rcases ih with hwaiting | ⟨x, e, hjudging⟩
    · exact hwaiting.step (sched n)
    · exact Or.inr ⟨x, e, (hjudging.step (sched n)).1⟩

theorem gone_gate (forth back : Lane) (h : Host σ) (sched : ℕ → Move σ) (n : ℕ) :
    (gate forth back h sched n).gone = true ↔ ∃ i < n, sched i = .leave := by
  induction n with
  | zero => exact iff_of_false Bool.false_ne_true nofun
  | succ n ih =>
    rw [gate, Schedule.after_succ, gone_step]
    refine (or_congr_left ih).trans ⟨?_, ?_⟩
    · rintro (⟨i, hi, hleave⟩ | hleave)
      · exact ⟨i, by omega, hleave⟩
      · exact ⟨n, by omega, hleave⟩
    · rintro ⟨i, hi, hleave⟩
      rcases Nat.lt_or_eq_of_le (Nat.le_of_lt_succ hi) with hlt | rfl
      · exact Or.inl ⟨i, hlt, hleave⟩
      · exact Or.inr hleave

end Passing

/-- **Only keys pass.** A server accepts on a link of any make, on which nothing has been sent to
the peer yet; whatever there is on the way to the server, whatever the peer does, whatever becomes
of the host meanwhile, and in whatever order.

As long as the call goes on, the peer has heard nothing and there is no secret; and before the
first event the server has not done anything on its link. A call that is over is what the first
event makes it, and the random bytes that the server had then. Once the first event is there the
call comes to an end, if the server is polled and the peer listens again and again, as far as it
has not left.

A run of the call, until it waits, is such a series of polls. -/
theorem only_keys_pass (forth back : Lane) (hback : back.Fresh) (h : Host σ)
    (sched : ℕ → Move σ) :
    (∀ n r, (gate forth back h sched n).stop = .waits r →
      (gate forth back h sched n).heard = [] ∧ r.phase.shared = none ∧
      ((gate forth back h sched n).first = none →
        r.phase = .awaitingPeerKey ∧ (gate forth back h sched n).dealings = [])) ∧
    (∀ n phase result, (gate forth back h sched n).stop = .ends phase result →
      ∃ x e, (gate forth back h sched n).first = some (x, e) ∧
        Judged (gate forth back h sched n) x e phase result) ∧
    (∀ n, (gate forth back h sched n).gone = true ↔ ∃ i < n, sched i = .leave) ∧
    (Schedule.Again sched (· = .poll) → Schedule.Again sched (· = .listen) →
      ∀ n x e, (gate forth back h sched n).first = some (x, e) →
      ∃ k phase result, n ≤ k ∧ (gate forth back h sched k).first = some (x, e) ∧
        (gate forth back h sched k).stop = .ends phase result) ∧
    ∀ link, ∃ k, Server.run .accept .right .awaitingPeerKey link h =
      standing ((step .poll)^[k] (fresh link h)) := by
  refine ⟨fun n r hstop => ?_, fun n phase result hstop => ?_, gone_gate forth back h sched,
    fun hpoll hlisten n x e hfirst => ?_, fun link => run_eq_polls link h⟩
  · rcases gate_cases hback h n with hw | ⟨x, e, hw⟩
    · generalize gate forth back h sched n = w at hw hstop
      cases hw
      cases hstop
      exact ⟨rfl, rfl, fun _ => ⟨rfl, rfl⟩⟩
    · obtain ⟨hheard, hsecret⟩ := hw.waits hstop
      exact ⟨hheard, hsecret, fun hnone => absurd (hw.first_eq.symm.trans hnone) nofun⟩
  · rcases gate_cases hback h n with hw | ⟨x, e, hw⟩
    · generalize gate forth back h sched n = w at hw hstop
      cases hw
      cases hstop
    · exact ⟨x, e, hw.first_eq, hw.judged hstop⟩
  · rcases gate_cases hback h n with hw | ⟨x', e', hw⟩
    · generalize gate forth back h sched n = w at hw hfirst
      cases hw
      cases hfirst
    · cases hw.first_eq.symm.trans hfirst
      obtain ⟨k, phase, result, hstop⟩ := hw.ends (hpoll.shift n) (hlisten.shift n)
      refine ⟨n + k, phase, result, Nat.le_add_right n k, ?_, ?_⟩
      · rw [gate, Schedule.after_add]
        exact (hw.after k).first_eq
      · rw [gate, Schedule.after_add]
        exact hstop

/-- A peer has sent its key, and listens; the lane back to it holds one byte. -/
def knocking (n : ℕ) : Gate Memory :=
  gate (.queue { frames := [keyFrame ⟨fun _ => 1, 0⟩] }) (.pipe { capacity := 1 }) Duplex.emptyHost
    (Schedule.roundRobin .poll [.listen]) n

/-- It gets past, and hears the server's key byte by byte. -/
theorem only_keys_pass_byte_by_byte :
    ∃ n secret, (knocking n).stop = .ends (.established secret) (.ok .done) ∧
      (step .listen (knocking n)).heard = [keyFrame Duplex.emptyHost.entropy] := by
  have hback : (Lane.pipe { capacity := 1 }).Fresh := ⟨⟨rfl, rfl⟩, Nat.zero_lt_one⟩
  obtain ⟨-, hover, hgone, hends, -⟩ := only_keys_pass
    (.queue { frames := [keyFrame ⟨fun _ => 1, 0⟩] }) (.pipe { capacity := 1 }) hback
    Duplex.emptyHost (Schedule.roundRobin .poll [.listen])
  obtain ⟨n, phase, result, -, hfirst, hstop⟩ := hends (Schedule.again_roundRobin (by simp))
    (Schedule.again_roundRobin (by simp)) 1 (.ok (some (keyFrame ⟨fun _ => 1, 0⟩)))
    Duplex.emptyHost.entropy rfl
  obtain ⟨x, e, hsame, hjudged⟩ := hover n phase result hstop
  cases hfirst.symm.trans hsame
  have hadmitted : Admitted (.ok (some (keyFrame ⟨fun _ => 1, 0⟩))) Duplex.emptyHost.entropy :=
    ⟨_, rfl, (ownKey _).size_eq, by decide +kernel⟩
  have hstays : (knocking n).gone = false := by
    rw [Bool.eq_false_iff]
    intro hleft
    obtain ⟨i, -, hi⟩ := (hgone n).mp hleft
    have hmem : Schedule.roundRobin (.poll : Move Memory) [.listen] i ∈ [.poll, .listen] :=
      List.get_mem _ _
    rw [hi] at hmem
    simp at hmem
  have hok : result = .ok .done := by
    by_contra hnot
    obtain ⟨-, -, s, y, -, hunsent, -⟩ := hjudged.refused hnot
    exact absurd (hstays.symm.trans (hunsent hadmitted).2.1) Bool.false_ne_true
  obtain ⟨-, ⟨peer, secret, -, rfl, -⟩, -, hheard⟩ := hjudged.entered hok
  exact ⟨n, secret, hok ▸ hstop, hheard hstays⟩

end Gate

end Vault
