import Vault.Proofs.Session.Gate.Machine

/-!
# How far a handshake can have come

The server waits for the first frame, says what it makes of it, or is done
(`Vault.Gate.Judging`). What it says is one frame to a peer that may leave (`Vault.Outlet`). If
that is the server's key and the peer leaves before all of it is sent, there is one more frame to
say, to nobody. Every move keeps to this, whatever the peer and chance do.

The call comes to its end if the server is polled often enough and the peer listens or leaves.
-/

namespace Vault

open Crypto (SharedSecret)
open Duplex (frameOf pending)
open Meeting (listening saying)
open Server (Dealing Delivering Phase)

variable {σ : Type} [Store σ]

namespace Gate

/-! ### How far it can have come -/

/-- **Nothing has arrived yet.** -/
inductive Waiting : Gate σ → Prop
  | mk {r : Frame.Reading} {forth back : Lane} {h : Host σ} {gone : Bool}
    (hback : back.Vacant gone) :
    Waiting ⟨listening r, ⟨forth, back, false, false⟩, h, {}, [], gone, [], none⟩

/-- The frame with the server's key. -/
def keyFrame (e : Entropy) : Frame := .message (ownKey e).bytes

theorem fits_keyFrame (e : Entropy) : (keyFrame e).Fits := by
  have hsize : (ownKey e).bytes.size = 32 := (ownKey e).size_eq
  rw [keyFrame, Frame.Fits, Frame.size_message, hsize]
  decide

/-- What the server sends when its key could not be sent, and why. -/
def unsent (err : LinkError) : Delivering :=
  .closing (.error (SessionError.link err).toStatus) (.error (.link err)) false

/-- **The first event has arrived**, when the server had these random bytes. -/
inductive Judging (x : Event) (e : Entropy) : Gate σ → Prop
  /-- The server says what it makes of it. -/
  | saying {phase : Phase} {d : Delivering} {rest : Option Bytes} {forth back : Lane} {h : Host σ}
    {reading : Frame.Reading} {heard : List Frame} {gone : Bool} (hv : Verdict x e phase d)
    (hout : Outlet (frameOf d) (some rest) back reading heard gone) :
    Judging x e ⟨saying phase d rest, ⟨forth, back, false, false⟩, h, reading, heard, gone,
      [.receive (some x)], some (x, e)⟩
  /-- Its key could not be sent. -/
  | failed {err : LinkError} {forth back : Lane} {h : Host σ} {reading : Frame.Reading}
    (hx : Admitted x e) (herr : err.IsOwn) (hback : back.Shut) :
    Judging x e ⟨saying .terminated (unsent err) none, ⟨forth, back, false, false⟩, h, reading, [],
      true, [.receive (some x), .send (ownKey e).bytes (some (.error err))], some (x, e)⟩
  /-- Its key was sent. -/
  | entered {peer : Bytes} {secret : SharedSecret} {forth back : Lane} {h : Host σ}
    {reading : Frame.Reading} {heard : List Frame} {gone : Bool}
    (hx : x = .ok (some (.message peer))) (hsize : peer.size = 32)
    (hne : Crypto.Curve25519.multiply (scalar e) peer ≠ Bytes.replicate 32 0)
    (hsecret : secret.bytes = Crypto.Curve25519.multiply (scalar e) peer)
    (hout : Outlet (keyFrame e) none back reading heard gone) :
    Judging x e ⟨.ends (.established secret) (.ok .done), ⟨forth, back, false, false⟩, h, reading,
      heard, gone, [.receive (some x), .send (ownKey e).bytes (some (.ok ()))], some (x, e)⟩
  /-- Its key could not be sent, and it has said so, to nobody. -/
  | broken {err err' : LinkError} {forth back : Lane} {said : Bool} {h : Host σ}
    {reading : Frame.Reading} (hx : Admitted x e) (herr : err.IsOwn) :
    Judging x e ⟨.ends .terminated (.error (.link err)), ⟨forth, back, false, said⟩, h, reading, [],
      true, [.receive (some x), .send (ownKey e).bytes (some (.error err)),
        (unsent err).dealing (some (.error err'))], some (x, e)⟩
  /-- It has said what is wrong. -/
  | refused {err : SessionError} {y : Except LinkError Unit} {forth back : Lane} {said : Bool}
    {h : Host σ} {reading : Frame.Reading} {heard : List Frame} {gone : Bool}
    (hnot : ¬Admitted x e) (hblames : Blames x err.toStatus)
    (hy : y = .ok () ∨ gone = true ∨ ¬(Frame.abort err.toStatus).Fits)
    (hout : Outlet (.abort err.toStatus) none back reading heard gone) :
    Judging x e ⟨.ends .terminated (.error err), ⟨forth, back, false, said⟩, h, reading, heard,
      gone, [.receive (some x), .finish (.error err.toStatus) (some y)], some (x, e)⟩

/-- How many polls it takes to deliver something to nobody, and what follows from it. -/
def trailing : Delivering → ℕ
  | .closing _ _ _ => 1
  | _ => 2

theorem trailing_le (d : Delivering) : trailing d ≤ 2 := by
  cases d with
  | closing last result watched => exact Nat.le_succ 1
  | _ => exact Nat.le_refl 2

/-- What is left to do before the call is over. A peer that is gone leaves little to do. -/
def load (w : Gate σ) : ℕ :=
  match w.stop with
  | .waits ⟨_, _, .deliver d, _, rest⟩ =>
    if w.gone then trailing d else 3 + 2 * pending (frameOf d) rest + w.link.back.backlog
  | _ => 0

/-- Two states in which the server has said as much, and the peer has heard as much. -/
structure Same (w v : Gate σ) : Prop where
  stop : w.stop = v.stop
  back : w.link.back = v.link.back
  reading : w.reading = v.reading
  gone : w.gone = v.gone

/-- **A move brings the end nearer, or leaves it where it is.** -/
def Nearer (m : Move σ) (w : Gate σ) : Prop :=
  load (step m w) = 0 ∨ load (step m w) < load w ∨ Same (step m w) w

section Judging

variable {x : Event} {e : Entropy} {w v : Gate σ} {phase : Phase} {d : Delivering}
  {rest : Option Bytes} {link : Link} {h : Host σ} {reading : Frame.Reading} {heard : List Frame}
  {ds : List Dealing} {first : Option (Event × Entropy)}

omit [Store σ] in
theorem load_saying : load ⟨saying phase d rest, link, h, reading, heard, false, ds, first⟩ =
    3 + 2 * pending (frameOf d) rest + link.back.backlog := rfl

omit [Store σ] in
theorem load_saying_lt {rest' : Option Bytes} {forth back lane : Lane} {said : Bool}
    (hless : lane.backlog + 2 * pending (frameOf d) rest' <
      back.backlog + 2 * pending (frameOf d) rest) :
    load ⟨saying phase d rest', ⟨forth, lane, false, said⟩, h, reading, heard, false, ds, first⟩ <
      load ⟨saying phase d rest, ⟨forth, back, false, said⟩, h, reading, heard, false, ds,
        first⟩ := by
  rw [load_saying, load_saying]
  dsimp only
  omega

omit [Store σ] in
theorem Same.load_eq (hsame : Same w v) : load w = load v := by
  rw [load, load, hsame.stop, hsame.back, hsame.gone]

omit [Store σ] in
/-- What happens on the way to the server, and to the host, is of no consequence any more. -/
theorem Judging.elsewhere (hw : Judging x e w) (lane : Lane) (h : Host σ) :
    Judging x e { w with link := { w.link with forth := lane }, host := h } := by
  cases hw with
  | saying hv hout => exact .saying hv hout
  | failed hx herr hback => exact .failed hx herr hback
  | entered hx hsize hne hsecret hout => exact .entered hx hsize hne hsecret hout
  | broken hx herr => exact .broken hx herr
  | refused hnot hblames hy hout => exact .refused hnot hblames hy hout

theorem Judging.fault (hw : Judging x e w) (err : LinkError) : step (.fault err) w = w := by
  cases hw <;> rfl

/-- **The peer leaves.** -/
theorem Judging.leave (hw : Judging x e w) :
    Judging x e (step .leave w) ∧ Nearer .leave w := by
  cases hw with
  | @saying phase d rest forth back h reading heard gone hv hout =>
    refine ⟨.saying hv hout.leave, ?_⟩
    cases gone with
    | false =>
      have hfew := trailing_le d
      refine Or.inr (Or.inl ?_)
      change trailing d < 3 + _ + _
      omega
    | true =>
      -- whoever is gone does not leave again
      cases hout with
      | left hshut hrest hheard => exact Or.inr (Or.inr ⟨rfl, hshut.dropReceiver, rfl, rfl⟩)
  | failed hx herr hback =>
    exact ⟨.failed hx herr (Lane.shut_dropReceiver _),
      Or.inr (Or.inr ⟨rfl, hback.dropReceiver, rfl, rfl⟩)⟩
  | entered hx hsize hne hsecret hout =>
    exact ⟨.entered hx hsize hne hsecret hout.leave, Or.inl rfl⟩
  | broken hx herr => exact ⟨.broken hx herr, Or.inl rfl⟩
  | refused hnot hblames hy hout =>
    exact ⟨.refused hnot hblames (Or.inr (Or.inl rfl)) hout.leave, Or.inl rfl⟩

/-- **The peer listens.** It takes something, or there is nothing for it yet. -/
theorem Judging.listen (hw : Judging x e w) : Judging x e (step .listen w) ∧
    (load (step .listen w) = 0 ∨ load (step .listen w) < load w ∨ Same (step .listen w) w ∧
      (w.gone = false → w.link.back.receive w.reading = (w.link.back, .waiting w.reading))) := by
  cases hw with
  | @saying phase d rest forth back h reading heard gone hv hout =>
    cases gone with
    | true => exact ⟨.saying hv hout, Or.inr (Or.inr ⟨⟨rfl, rfl, rfl, rfl⟩, nofun⟩)⟩
    | false =>
      rcases hout.listen with ⟨lane, r', hreceive, hout', hsame | hless⟩ |
        ⟨lane, y, hreceive, hnone, -⟩
      · obtain ⟨rfl, rfl⟩ := hsame
        rw [listen_waits hreceive]
        exact ⟨.saying hv hout', Or.inr (Or.inr ⟨⟨rfl, rfl, rfl, rfl⟩, fun _ => hreceive⟩)⟩
      · rw [listen_waits hreceive, load_saying, load_saying]
        exact ⟨.saying hv hout', Or.inr (Or.inl (Nat.add_lt_add_left hless _))⟩
      · cases hnone
  | failed hx herr hback =>
    exact ⟨.failed hx herr hback, Or.inr (Or.inr ⟨⟨rfl, rfl, rfl, rfl⟩, nofun⟩)⟩
  | @entered peer secret forth back h reading heard gone hx hsize hne hsecret hout =>
    cases gone with
    | true => exact ⟨.entered hx hsize hne hsecret hout, Or.inl rfl⟩
    | false =>
      rcases hout.listen with ⟨lane, r', hreceive, hout', -⟩ | ⟨lane, y, hreceive, -, hout'⟩
      · rw [listen_waits hreceive]
        exact ⟨.entered hx hsize hne hsecret hout', Or.inl rfl⟩
      · rw [listen_hears hreceive]
        exact ⟨.entered hx hsize hne hsecret hout', Or.inl rfl⟩
  | broken hx herr => exact ⟨.broken hx herr, Or.inl rfl⟩
  | @refused err y forth back said h reading heard gone hnot hblames hy hout =>
    cases gone with
    | true => exact ⟨.refused hnot hblames hy hout, Or.inl rfl⟩
    | false =>
      rcases hout.listen with ⟨lane, r', hreceive, hout', -⟩ | ⟨lane, z, hreceive, -, hout'⟩
      · rw [listen_waits hreceive]
        exact ⟨.refused hnot hblames hy hout', Or.inl rfl⟩
      · rw [listen_hears hreceive]
        exact ⟨.refused hnot hblames hy hout', Or.inl rfl⟩

/-- The server cannot get on with what it says. -/
def Stuck (w : Gate σ) : Prop :=
  ∃ phase d rest, w.stop = saying phase d rest ∧
    w.link.back.send (frameOf d) rest = (w.link.back, .waiting rest)

/-- **The server is polled while it sends its key.** -/
theorem poll_admitted {peer : Bytes} {secret : SharedSecret} {forth back : Lane} {gone : Bool}
    (hx : x = .ok (some (.message peer))) (hsize : peer.size = 32)
    (hne : Crypto.Curve25519.multiply (scalar e) peer ≠ Bytes.replicate 32 0)
    (hsecret : secret.bytes = Crypto.Curve25519.multiply (scalar e) peer)
    (hout : Outlet (keyFrame e) (some rest) back reading heard gone)
    (hw : w = ⟨saying .handshaking (.key (ownKey e) secret) rest, ⟨forth, back, false, false⟩, h,
      reading, heard, gone, [.receive (some x)], some (x, e)⟩) :
    Judging x e (step .poll w) ∧ (load (step .poll w) = 0 ∨ load (step .poll w) < load w ∨
      Same (step .poll w) w ∧ Stuck w) := by
  subst hw
  have hattempt {lane : Lane} {p : Poll (Option Bytes) (Except LinkError Unit)}
      (hsend : back.send (keyFrame e) rest = (lane, p)) :
      (Delivering.key (ownKey e) secret).attempt ⟨forth, back, false, false⟩ .right rest =
        (⟨forth, lane, false, false⟩, p) := Link.send_right_lane hsend
  rcases hout.send with ⟨lane, hsend, hout'⟩ | ⟨lane, rest', hsend, rfl, hout', hless⟩ |
    ⟨err, hsend, herr, -, hwhy⟩
  · rw [poll_delivers (hattempt hsend) rfl]
    exact ⟨.entered hx hsize hne hsecret hout', Or.inl rfl⟩
  · rw [poll_delivers_part (hattempt hsend) rfl]
    refine ⟨.saying (.admitted hx hsize hne hsecret) hout', Or.inr ?_⟩
    rcases hless with ⟨rfl, rfl⟩ | hless
    · exact Or.inr ⟨⟨rfl, rfl, rfl, rfl⟩, _, _, _, rfl, hsend⟩
    · exact Or.inl (load_saying_lt hless)
  · -- a key is not too long, so it is the peer that is gone
    obtain ⟨rfl, hshut⟩ : gone = true ∧ back.Shut :=
      hwhy.resolve_right (not_not_intro (fits_keyFrame e))
    rw [poll_delivers (hattempt hsend) rfl, hout.unheard]
    exact ⟨.failed ⟨peer, hx, hsize, hne⟩ herr hshut, Or.inr (Or.inl Nat.one_lt_two)⟩

/-- **The server is polled while it says what is wrong.** -/
theorem poll_refused {err : SessionError} {forth back : Lane} {gone : Bool}
    (hnot : ¬Admitted x e) (hblames : Blames x err.toStatus)
    (hout : Outlet (.abort err.toStatus) (some rest) back reading heard gone)
    (hw : w = ⟨saying .terminated (.closing (.error err.toStatus) (.error err) false) rest,
      ⟨forth, back, false, false⟩, h, reading, heard, gone, [.receive (some x)], some (x, e)⟩) :
    Judging x e (step .poll w) ∧ (load (step .poll w) = 0 ∨ load (step .poll w) < load w ∨
      Same (step .poll w) w ∧ Stuck w) := by
  subst hw
  rcases hout.send with ⟨lane, hsend, hout'⟩ | ⟨lane, rest', hsend, rfl, hout', hless⟩ |
    ⟨err', hsend, -, hout', hwhy⟩
  · rw [poll_delivers (attempt_closing hsend) rfl]
    exact ⟨.refused hnot hblames (Or.inl rfl) hout'.dropSender, Or.inl rfl⟩
  · rw [poll_delivers_part (attempt_closing_part hsend) rfl]
    refine ⟨.saying (.refused hnot hblames) hout', Or.inr ?_⟩
    rcases hless with ⟨rfl, rfl⟩ | hless
    · exact Or.inr ⟨⟨rfl, rfl, rfl, rfl⟩, _, _, _, rfl, hsend⟩
    · exact Or.inl (load_saying_lt hless)
  · obtain ⟨lane, said, hlane, hattempt⟩ := attempt_closing_failed hsend
    rw [poll_delivers hattempt rfl]
    refine ⟨.refused hnot hblames (Or.inr (hwhy.imp And.left id)) ?_, Or.inl rfl⟩
    rcases hlane with rfl | rfl
    · exact hout'
    · exact hout'.dropSender

/-- **The server is polled.** The end gets nearer, or what it says is stuck. -/
theorem Judging.poll (hw : Judging x e w) : Judging x e (step .poll w) ∧
    (load (step .poll w) = 0 ∨ load (step .poll w) < load w ∨ Same (step .poll w) w ∧ Stuck w) := by
  cases hw with
  | saying hv hout =>
    cases hv with
    | admitted hx hsize hne hsecret => exact poll_admitted hx hsize hne hsecret hout rfl
    | refused hnot hblames => exact poll_refused hnot hblames hout rfl
  | @failed err forth back h reading hx herr hback =>
    -- the frame that says why has nobody to go to either
    obtain ⟨err', hsend, -⟩ := hback.send (.abort (SessionError.link err).toStatus)
      Frame.unfinished_none
    obtain ⟨lane, said, -, hattempt⟩ : ∃ lane said, (lane = back ∨ lane = back.dropSender) ∧
        (unsent err).attempt ⟨forth, back, false, false⟩ .right none =
          (⟨forth, lane, false, said⟩, .ready (.error err')) := attempt_closing_failed hsend
    rw [poll_delivers hattempt rfl]
    exact ⟨.broken hx herr, Or.inl rfl⟩
  | entered hx hsize hne hsecret hout =>
    exact ⟨.entered hx hsize hne hsecret hout, Or.inl rfl⟩
  | broken hx herr => exact ⟨.broken hx herr, Or.inl rfl⟩
  | refused hnot hblames hy hout => exact ⟨.refused hnot hblames hy hout, Or.inl rfl⟩

/-- **What was decided stays decided**, and no move puts the end off. -/
theorem Judging.step (hw : Judging x e w) (m : Move σ) :
    Judging x e (step m w) ∧ Nearer m w := by
  cases m with
  | arrive act => exact ⟨hw.elsewhere _ w.host, Or.inr (Or.inr ⟨rfl, rfl, rfl, rfl⟩)⟩
  | fault err =>
    rw [Nearer, hw.fault err]
    exact ⟨hw, Or.inr (Or.inr ⟨rfl, rfl, rfl, rfl⟩)⟩
  | others act => exact ⟨hw.elsewhere w.link.forth _, Or.inr (Or.inr ⟨rfl, rfl, rfl, rfl⟩)⟩
  | listen => exact ⟨hw.listen.1, hw.listen.2.imp_right (Or.imp_right And.left)⟩
  | leave => exact hw.leave
  | poll => exact ⟨hw.poll.1, hw.poll.2.imp_right (Or.imp_right And.left)⟩

/-- **Nothing has arrived, or the first event has.** -/
theorem Waiting.step (hw : Waiting w) (m : Move σ) :
    Waiting (step m w) ∨ ∃ x e, Judging x e (step m w) := by
  obtain @⟨r, forth, back, h, gone, hback⟩ := hw
  cases m with
  | arrive act => exact Or.inl (.mk hback)
  | fault err =>
    obtain ⟨phase, d, h', hturn, hv⟩ := received_verdict h (.error err)
    rw [fault_reads hturn]
    exact Or.inr ⟨_, _, .saying hv (.start _ hback)⟩
  | others act => exact Or.inl (.mk hback)
  | listen =>
    obtain ⟨rfl, hfresh⟩ | ⟨rfl, hshut⟩ := hback
    · rw [listen_waits hfresh.receive]
      exact Or.inl (.mk (Or.inl ⟨rfl, hfresh⟩))
    · exact Or.inl (.mk (Or.inr ⟨rfl, hshut⟩))
  | leave => exact Or.inl (.mk (Or.inr ⟨rfl, back.shut_dropReceiver⟩))
  | poll =>
    rcases hreceive : forth.receive r with ⟨lane, x | r'⟩
    · obtain ⟨phase, d, h', hturn, hv⟩ := received_verdict h x
      rw [poll_reads hreceive hturn]
      exact Or.inr ⟨_, _, .saying hv (.start _ hback)⟩
    · rw [poll_reads_part hreceive]
      exact Or.inl (.mk hback)

end Judging

/-! ### The end of the call -/

section Ends

variable {x : Event} {e : Entropy} {w v : Gate σ} {sched : ℕ → Move σ}

/-- Whose move brings the end nearer. -/
def Helps (w : Gate σ) (m : Move σ) : Prop :=
  load w ≠ 0 ∧ (m = .poll ∧ ¬Stuck w ∨ m = .listen ∧ w.gone = false ∧
    w.link.back.receive w.reading ≠ (w.link.back, .waiting w.reading))

omit [Store σ] in
theorem Same.helps (hsame : Same v w) {m : Move σ} (hhelps : Helps w m) : Helps v m := by
  rw [Helps, Stuck] at hhelps ⊢
  rw [hsame.load_eq, hsame.stop, hsame.back, hsame.reading, hsame.gone]
  exact hhelps

theorem Judging.load_lt (hw : Judging x e w) {m : Move σ} (hhelps : Helps w m) :
    load (Gate.step m w) < load w := by
  obtain ⟨hload, ⟨rfl, hfree⟩ | ⟨rfl, hgone, htakes⟩⟩ := hhelps
  · rcases hw.poll.2 with hzero | hless | ⟨-, hstuck⟩
    · omega
    · exact hless
    · exact absurd hstuck hfree
  · rcases hw.listen.2 with hzero | hless | ⟨-, hnothing⟩
    · omega
    · exact hless
    · exact absurd (hnothing hgone) htakes

omit [Store σ] in
/-- **Where the server is stuck, the peer has something to take.** -/
theorem Judging.unstuck (hw : Judging x e w) (hstuck : Stuck w) : w.gone = false ∧
    w.link.back.receive w.reading ≠ (w.link.back, .waiting w.reading) := by
  obtain ⟨phase, d, rest, hstop, hsend⟩ := hstuck
  cases hw with
  | saying hv hout =>
    cases hstop
    by_contra hnot
    refine hout.moves (fun hgone => ?_) hsend
    by_contra hreceive
    exact hnot ⟨hgone, hreceive⟩
  | failed hx herr hback =>
    cases hstop
    obtain ⟨err', hfails, -⟩ := hback.send (frameOf (unsent _)) Frame.unfinished_none
    cases congrArg Prod.snd (hfails.symm.trans hsend)
  | entered hx hsize hne hsecret hout => cases hstop
  | broken hx herr => cases hstop
  | refused hnot hblames hy hout => cases hstop

omit [Store σ] in
theorem Judging.ends_of_load (hw : Judging x e w) (hload : load w = 0) :
    ∃ phase result, w.stop = .ends phase result := by
  cases hw with
  | @saying phase d rest forth back h reading heard gone hv hout =>
    cases gone with
    | false =>
      rw [load_saying] at hload
      omega
    | true => cases d <;> cases hload
  | failed hx herr hback => cases hload
  | _ => exact ⟨_, _, rfl⟩

theorem Judging.after (hw : Judging x e w) (n : ℕ) :
    Judging x e (Schedule.after Gate.step sched w n) := by
  induction n with
  | zero => exact hw
  | succ n ih => exact (ih.step (sched n)).1

/-- **The call comes to an end** once the first event has arrived, if the server is polled and the
peer listens again and again. -/
theorem Judging.ends (hw : Judging x e w) (hpoll : Schedule.Again sched (· = .poll))
    (hlisten : Schedule.Again sched (· = .listen)) :
    ∃ k phase result, (Schedule.after Gate.step sched w k).stop = .ends phase result := by
  have hagain (v : Gate σ) (hv : Judging x e v) (hpos : 0 < load v) :
      Schedule.Again sched (Helps v) := by
    intro n
    -- a server that is stuck waits for the peer, and one that is not for its own poll
    by_cases hstuck : Stuck v
    · obtain ⟨k, hk, hmove⟩ := hlisten n
      exact ⟨k, hk, by omega, Or.inr ⟨hmove, hv.unstuck hstuck⟩⟩
    · obtain ⟨k, hk, hmove⟩ := hpoll n
      exact ⟨k, hk, by omega, Or.inl ⟨hmove, hstuck⟩⟩
  obtain ⟨k, -, hk⟩ := Schedule.reaches_rank_zero (n := 0) (Judging x e) load Helps
    (fun m v hv => (hv.step m).1)
    (fun m v hv => by
      rcases (hv.step m).2 with hzero | hless | hsame
      · omega
      · exact Nat.le_of_lt hless
      · exact Nat.le_of_eq hsame.load_eq)
    (fun m v hv hload m' hhelps => by
      rcases (hv.step m).2 with hzero | hless | hsame
      · exact absurd (hload.symm.trans hzero) hhelps.1
      · omega
      · exact hsame.helps hhelps)
    (fun m v hv hhelps => hv.load_lt hhelps) hagain hw
  obtain ⟨phase, result, hstop⟩ := (hw.after k).ends_of_load hk
  exact ⟨k, phase, result, hstop⟩

end Ends

end Gate

end Vault
