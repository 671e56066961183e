import Vault.Proofs.Session.Lifecycle
import Vault.Proofs.Session.Meeting
import Vault.Proofs.Session.Outlet

/-!
# A server that accepts, and anyone at the other end

A server accepts, and at the other end of its link there may be anyone. The first thing that
arrives decides (`Vault.Gate.Verdict`): a message of 32 bytes that, multiplied by the scalar that
the server then draws, does not give zero is a key, and the server sends its own; anything else,
be it another frame, half a frame, the end of the stream or a failure to read it, is refused with
a last frame that says why.

What can happen meanwhile is up to the peer and to chance (`Vault.Gate.Move`). The bytes under
way may change in any way, reading may fail, the peer listens or leaves, others use the host. The
server is polled in between.
-/

namespace Vault

open Crypto (PublicKey SharedSecret)
open Meeting (listening saying)
open Server (Dealing Delivering Phase Stop Outcome)

variable {σ : Type}

/-- What a wait for a frame comes to. -/
abbrev Event := Except LinkError (Option Frame)

/-- What a call does with its link when it is polled, if it gets past its wait. -/
def Server.Running.dealing (r : Server.Running) (link : Link) (side : Side) : Option Dealing :=
  match r.waiting with
  | .receive _ =>
    match (link.receive side r.reading).2 with
    | .ready x => some (.receive (some x))
    | .waiting _ => none
  | .deliver d =>
    match (d.attempt link side r.rest).2 with
    | .ready y => some (d.dealing (some y))
    | .waiting _ => none

/-- **A server that accepts, and whoever is at the other end.** -/
structure Gate (σ : Type) where
  /-- Where the call has got to. -/
  stop : Stop
  /-- The link. -/
  link : Link
  /-- The host of the server. -/
  host : Host σ
  /-- What the peer has taken of a frame that is arriving. -/
  reading : Frame.Reading := {}
  /-- The frames that the peer has heard. -/
  heard : List Frame := []
  /-- Whether the peer is gone. -/
  gone : Bool := false
  /-- What the server did with its link. -/
  dealings : List Dealing := []
  /-- The first event, and the random bytes that the server had then. -/
  first : Option (Event × Entropy) := none

namespace Gate

/-! ### What is made of the first event -/

/-- The scalar that the server draws. -/
def scalar (e : Entropy) : Bytes := (e.draw Crypto.scalarBytes).1

/-- The public key of that scalar. -/
def ownKey (e : Entropy) : PublicKey := Crypto.publicOf (scalar e)

/-- **A key that is let in**: a message of 32 bytes that does not make the secret zero. -/
def Admitted (x : Event) (e : Entropy) : Prop :=
  ∃ peer, x = .ok (some (.message peer)) ∧ peer.size = 32 ∧
    Crypto.Curve25519.multiply (scalar e) peer ≠ Bytes.replicate 32 0

/-- The peer aborts with a status. -/
def Aborts (x : Event) (s : Status) : Prop := Link.inbound x = .error (.remote s)

/-- **What a peer is told that is not let in**: its own status, if it has aborted, and otherwise
that it is to blame. -/
def Blames (x : Event) (s : Status) : Prop :=
  (∀ s', Aborts x s' → s = s') ∧ ((∀ s', ¬Aborts x s') → s.kind = .invalidArgument)

/-- **What the server makes of the first event**: where the session stands, and what it has to
deliver. -/
inductive Verdict (x : Event) (e : Entropy) : Phase → Delivering → Prop
  /-- The key is let in. -/
  | admitted {peer : Bytes} {secret : SharedSecret} (hx : x = .ok (some (.message peer)))
    (hsize : peer.size = 32)
    (hne : Crypto.Curve25519.multiply (scalar e) peer ≠ Bytes.replicate 32 0)
    (hsecret : secret.bytes = Crypto.Curve25519.multiply (scalar e) peer) :
    Verdict x e .handshaking (.key (ownKey e) secret)
  /-- The event is no key, or a bad one. -/
  | refused {err : SessionError} (hnot : ¬Admitted x e) (hblames : Blames x err.toStatus) :
    Verdict x e .terminated (.closing (.error err.toStatus) (.error err) false)

theorem not_admitted {x : Event} {e : Entropy} (hx : ∀ peer, x ≠ .ok (some (.message peer))) :
    ¬Admitted x e := by
  rintro ⟨peer, hpeer, -⟩
  exact hx peer hpeer

theorem blames_caller {x : Event} {s : Status} (hx : ∀ s', ¬Aborts x s')
    (hs : s.kind = .invalidArgument) : Blames x s :=
  ⟨fun s' hs' => absurd hs' (hx s'), fun _ => hs⟩

theorem blames_of_aborts {x : Event} {s : Status} (hx : Aborts x s) : Blames x s := by
  refine ⟨fun s' hs' => ?_, fun hnot => absurd hx (hnot s)⟩
  have hsame := hx.symm.trans hs'
  injection hsame with hsame
  injection hsame

theorem handshake_verdict (h : Host σ) (peer : Bytes) :
    ∃ phase d h', Server.handshake .awaitingPeerKey h peer = ⟨phase, h', .inl (.deliver d)⟩ ∧
      Verdict (.ok (some (.message peer))) h.entropy phase d := by
  have hcaller (s' : Status) : ¬Aborts (.ok (some (.message peer))) s' := nofun
  rw [Server.handshake]
  by_cases hsize : peer.size = 32
  · have hkey : PublicKey.ofBytes peer = .ok ⟨peer, hsize⟩ := dif_pos hsize
    rw [hkey]
    rcases Crypto.KeyPair.agree_cases (Crypto.KeyPair.generate h.entropy).1 ⟨peer, hsize⟩ with
      ⟨hne, hagree⟩ | ⟨hzero, hagree⟩
    · dsimp only
      rw [hagree]
      exact ⟨_, _, _, rfl, .admitted rfl hsize hne rfl⟩
    · dsimp only
      rw [hagree]
      refine ⟨_, _, _, rfl, .refused ?_ (blames_caller hcaller rfl)⟩
      rintro ⟨peer', hx, -, hne⟩
      cases hx
      exact hne hzero
  · have hkey : PublicKey.ofBytes peer = .error (.invalidPublicKey peer.size) := dif_neg hsize
    rw [hkey]
    refine ⟨_, _, _, rfl, .refused ?_ (blames_caller hcaller rfl)⟩
    rintro ⟨peer', hx, hsize', -⟩
    cases hx
    exact hsize hsize'

/-- **Every first event has its verdict.** -/
theorem received_verdict [Store σ] (h : Host σ) (x : Event) :
    ∃ phase d h', Server.received .accept .awaitingPeerKey h .peerKey x =
      ⟨phase, h', .inl (.deliver d)⟩ ∧ Verdict x h.entropy phase d := by
  rcases x with e | _ | f
  · cases e with
    | remote s => exact ⟨_, _, _, rfl, .refused (not_admitted nofun) (blames_of_aborts rfl)⟩
    | _ => exact ⟨_, _, _, rfl, .refused (not_admitted nofun) (blames_caller nofun rfl)⟩
  · exact ⟨_, _, _, rfl, .refused (not_admitted nofun) (blames_caller nofun rfl)⟩
  · cases f with
    | message peer => exact handshake_verdict h peer
    | abort s => exact ⟨_, _, _, rfl, .refused (not_admitted nofun) (blames_of_aborts rfl)⟩
    | «end» => exact ⟨_, _, _, rfl, .refused (not_admitted nofun) (blames_caller nofun rfl)⟩
    | «open» m => exact ⟨_, _, _, rfl, .refused (not_admitted nofun) (blames_caller nofun rfl)⟩

/-! ### The machine -/

/-- What can happen. -/
inductive Move (σ : Type) where
  /-- Something happens to the lane that leads to the server: bytes arrive, whole frames or parts
  of them or no frames at all, or nothing more will. -/
  | arrive (act : Lane → Lane)
  /-- Reading fails, if that is what the server waits for. -/
  | fault (e : LinkError)
  /-- Others use the host. -/
  | others (act : Host σ → Host σ)
  /-- The peer listens, unless it is gone. -/
  | listen
  /-- The peer leaves. -/
  | leave
  /-- The server is polled. -/
  | poll

/-- Write down what the server did with its link. -/
def note (w : Gate σ) : Dealing → Gate σ
  | .receive (some x) => { w with
      dealings := w.dealings ++ [.receive (some x)]
      first := some (w.first.getD (x, w.host.entropy)) }
  | d => { w with dealings := w.dealings ++ [d] }

variable [Store σ]

/-- One move. -/
def step : Move σ → Gate σ → Gate σ
  | .arrive act, w => { w with link := { w.link with forth := act w.link.forth } }
  | .fault e, w =>
    match w.stop with
    | .waits ⟨call, phase, .receive what, _, _⟩ =>
      let t := Server.received call phase w.host what (.error e)
      { w.note (.receive (some (.error e))) with stop := t.stop call, host := t.host }
    | _ => w
  | .others act, w => { w with host := act w.host }
  | .listen, w =>
    if w.gone then w
    else
      match w.link.receive .left w.reading with
      | (link, .waiting reading) => { w with link, reading }
      | (link, .ready x) => { w with link, reading := {}, heard := w.heard ++ framesIn x }
  | .leave, w => { w with link := w.link.dropEnd .left, gone := true }
  | .poll, w =>
    match w.stop with
    | .ends _ _ => w
    | .waits r =>
      match Server.poll w.host.now w.host.signal w.stop w.link w.host with
      | (stop, link, host) =>
        { (r.dealing w.link .right).elim w w.note with link, stop, host }

/-- A server begins to accept. -/
def fresh (link : Link) (h : Host σ) : Gate σ where
  stop := (Server.start .accept .awaitingPeerKey h).stop .accept
  link := link
  host := h

/-- How far it has come. -/
def gate (forth back : Lane) (h : Host σ) (sched : ℕ → Move σ) (n : ℕ) : Gate σ :=
  Schedule.after step sched (fresh ⟨forth, back, false, false⟩ h) n

/-! ### Polls -/

section Polls

variable {forth back lane : Lane} {said : Bool} {h h' : Host σ} {reading r r' : Frame.Reading}
  {heard : List Frame} {gone : Bool} {ds : List Dealing} {first : Option (Event × Entropy)}
  {x : Event} {phase : Phase} {d : Delivering} {rest rest' : Option Bytes} {link link' : Link}

/-- A poll of a call that waits, from what it does with the link and what becomes of it. -/
theorem step_poll {r : Server.Running} {stop : Stop} {o : Option Dealing}
    (hdealing : r.dealing link .right = o)
    (hpoll : Server.poll h.now h.signal (.waits r) link h = (stop, link', h')) :
    step .poll ⟨.waits r, link, h, reading, heard, gone, ds, first⟩ =
      { o.elim ⟨.waits r, link, h, reading, heard, gone, ds, first⟩
          (note ⟨.waits r, link, h, reading, heard, gone, ds, first⟩) with
        stop, link := link', host := h' } := by
  simp only [step, hpoll, hdealing]

theorem poll_reads_part (hreceive : forth.receive r = (lane, .waiting r')) :
    step .poll ⟨listening r, ⟨forth, back, false, said⟩, h, reading, heard, gone, ds, first⟩ =
      ⟨listening r', ⟨lane, back, false, said⟩, h, reading, heard, gone, ds, first⟩ := by
  have hlink : (⟨forth, back, false, said⟩ : Link).receive .right r =
      (⟨lane, back, false, said⟩, .waiting r') := Link.receive_right_lane hreceive
  refine step_poll (o := none) ?_ (Server.poll_receiving rfl hlink)
  simp only [Server.Running.dealing, hlink]

theorem poll_reads (hreceive : forth.receive r = (lane, .ready x))
    (hturn : Server.received .accept .awaitingPeerKey h .peerKey x =
      ⟨phase, h', .inl (.deliver d)⟩) :
    step .poll ⟨listening r, ⟨forth, back, false, said⟩, h, reading, heard, gone, [], none⟩ =
      ⟨saying phase d none, ⟨lane, back, false, said⟩, h', reading, heard, gone,
        [.receive (some x)], some (x, h.entropy)⟩ := by
  have hlink : (⟨forth, back, false, said⟩ : Link).receive .right r =
      (⟨lane, back, false, said⟩, .ready x) := Link.receive_right_lane hreceive
  refine step_poll (o := some (.receive (some x))) ?_ (Server.poll_received rfl hlink hturn)
  simp only [Server.Running.dealing, hlink]

theorem fault_reads {e : LinkError}
    (hturn : Server.received .accept .awaitingPeerKey h .peerKey (.error e) =
      ⟨phase, h', .inl (.deliver d)⟩) :
    step (.fault e) ⟨listening r, link, h, reading, heard, gone, [], none⟩ =
      ⟨saying phase d none, link, h', reading, heard, gone,
        [.receive (some (.error e))], some (.error e, h.entropy)⟩ := by
  simp only [step, listening, hturn]
  rfl

/-- The shutdown signal does not end a delivery. -/
def Unwatched (d : Delivering) : Prop := Server.watched .accept (.deliver d) = false

theorem poll_delivers_part (hattempt : d.attempt link .right rest = (link', .waiting rest'))
    (hd : Unwatched d) :
    step .poll ⟨saying phase d rest, link, h, reading, heard, gone, ds, first⟩ =
      ⟨saying phase d rest', link', h, reading, heard, gone, ds, first⟩ := by
  rw [Unwatched] at hd
  refine step_poll (o := none) ?_
    (Server.poll_delivering (by rw [hd, Bool.false_and]) hattempt)
  simp only [Server.Running.dealing, hattempt]

theorem poll_delivers {y : Except LinkError Unit}
    (hattempt : d.attempt link .right rest = (link', .ready y)) (hd : Unwatched d) :
    step .poll ⟨saying phase d rest, link, h, reading, heard, gone, ds, first⟩ =
      ⟨(Server.delivered .accept phase h d y).stop .accept, link',
        (Server.delivered .accept phase h d y).host, reading, heard, gone,
        ds ++ [d.dealing (some y)], first⟩ := by
  rw [Unwatched] at hd
  have hdealing : (Server.Running.mk .accept phase (.deliver d) {} rest).dealing link .right =
      some (d.dealing (some y)) := by
    simp only [Server.Running.dealing, hattempt]
  rw [saying, step_poll hdealing
    (Server.poll_delivered (by rw [hd, Bool.false_and]) hattempt rfl)]
  cases d <;> rfl

theorem listen_waits (hreceive : back.receive reading = (lane, .waiting r')) {stop : Stop} :
    step .listen ⟨stop, ⟨forth, back, false, said⟩, h, reading, heard, false, ds, first⟩ =
      ⟨stop, ⟨forth, lane, false, said⟩, h, r', heard, false, ds, first⟩ := by
  simp only [step, Link.receive_left_lane hreceive]
  rfl

theorem listen_hears (hreceive : back.receive reading = (lane, .ready x)) {stop : Stop} :
    step .listen ⟨stop, ⟨forth, back, false, said⟩, h, reading, heard, false, ds, first⟩ =
      ⟨stop, ⟨forth, lane, false, said⟩, h, {}, heard ++ framesIn x, false, ds, first⟩ := by
  simp only [step, Link.receive_left_lane hreceive]
  rfl

end Polls

/-! ### Deliveries -/

section Deliveries

variable {forth back lane : Lane} {rest rest' : Option Bytes} {s : Status} {result : Outcome}

/-- The last frame has left, and its lane is closed behind it. -/
theorem attempt_closing (hsend : back.send (.abort s) rest = (lane, .ready (.ok ()))) :
    (Delivering.closing (.error s) result false).attempt ⟨forth, back, false, false⟩ .right rest =
      (⟨forth, lane.dropSender, false, true⟩, .ready (.ok ())) := by
  have hlink : Link.send ⟨forth, back, false, false⟩ .right (.abort s) rest = _ :=
    Link.send_right_lane hsend
  simp only [Delivering.attempt, Link.finish, Link.closingFrame, hlink]
  rfl

theorem attempt_closing_part (hsend : back.send (.abort s) rest = (lane, .waiting rest')) :
    (Delivering.closing (.error s) result false).attempt ⟨forth, back, false, false⟩ .right rest =
      (⟨forth, lane, false, false⟩, .waiting rest') := by
  have hlink : Link.send ⟨forth, back, false, false⟩ .right (.abort s) rest = _ :=
    Link.send_right_lane hsend
  simp only [Delivering.attempt, Link.finish, Link.closingFrame, hlink]
  rfl

/-- The last frame cannot be sent. A queue is closed nevertheless. -/
theorem attempt_closing_failed {err : LinkError}
    (hsend : back.send (.abort s) rest = (back, .ready (.error err))) :
    ∃ lane said, (lane = back ∨ lane = back.dropSender) ∧
      (Delivering.closing (.error s) result false).attempt ⟨forth, back, false, false⟩ .right rest =
        (⟨forth, lane, false, said⟩, .ready (.error err)) := by
  have hlink : Link.send ⟨forth, back, false, false⟩ .right (.abort s) rest = _ :=
    Link.send_right_lane hsend
  simp only [Delivering.attempt, Link.finish, Link.closingFrame, hlink]
  cases back with
  | queue q => exact ⟨_, true, Or.inr rfl, rfl⟩
  | pipe p => exact ⟨_, false, Or.inl rfl, rfl⟩

end Deliveries

end Gate

end Vault
