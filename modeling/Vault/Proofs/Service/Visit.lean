import Vault.Proofs.Service.Traffic
import Vault.Proofs.Session.Addition

/-!
# A visit, frame by frame

What a connection does with bytes of any kind is one thing; what it does with a visitor who keeps
to the rules can be followed step by step. The visitor's frames arrive whole, one by one, and
the connection runs after each of them (`Vault.Traffic.oneByOne`). The first opens the
connection (`Vault.Connection.advance_open`), the keys are exchanged
(`Vault.Connection.advance_key`), and a request that can be answered is
(`Vault.Connection.advance_reply`). Nobody takes away what is written, so that there has to be
room for it.

Nothing is computed here with keys and envelopes: a message seals, and opens again.
-/

namespace Vault

open Server (Call)

variable {σ : Type}

/-! ### Frames that arrive whole -/

namespace Frame

/-- A frame that is not too long finds room in an empty pipe. -/
theorem size_onWire_le_window {f : Frame} (hf : f.Fits) : f.onWire.size ≤ Exchange.window := by
  have hmax : maxLength = 4194304 := rfl
  have hlength : lengthBytes = 4 := rfl
  rw [Fits] at hf
  rw [size_onWire, Exchange.window]
  omega

/-- **What a frame can carry seals**, opens again, and fits. -/
theorem exists_sealed_of_carries (s : Crypto.SharedSecret) {plain : Bytes}
    (hplain : Carries plain.size) (e : Entropy) :
    ∃ envelope e', Crypto.Envelope.sealFresh s plain e = (.ok envelope, e') ∧
      Crypto.Envelope.reveal s envelope = .ok plain ∧ (message envelope).Fits := by
  have hshort : ¬Crypto.Envelope.tooLong plain.size = true := by
    intro hlong
    exact not_carries_of_unsealed (Crypto.Envelope.sealFresh_of_tooLong s hlong e) hplain
  obtain ⟨envelope, hseal, hopens, -⟩ := Crypto.Envelope.sealFresh_of_not_tooLong s hshort e
  refine ⟨envelope, _, hseal, hopens, ?_⟩
  rw [Fits, size_message_of_sealed hseal]
  exact hplain

end Frame

namespace Pipe

theorem read_empty {p : Pipe} (hp : p.buffered = ByteArray.empty) (hopen : p.closed = false) :
    p.read {} = (p, .waiting {}) := by
  rw [read, readOn, hp, hopen]
  rfl

theorem read_frame {f : Frame} (hf : f.Fits) (p : Pipe) :
    (p.holding f.onWire).read {} = (p.holding ByteArray.empty, .ready (.ok (some f))) :=
  read_whole hf (ByteArray.empty_append.trans ByteArray.append_empty.symm) f.size_onWire_pos

end Pipe

namespace Connection

variable [Store σ] {p q : Pipe} {h : Host σ}

/-- A session that waits for a frame goes on waiting. -/
theorem runTurn_idle (call : Call) (phase : Server.Phase) (what : Server.Receiving)
    (hopen : p.closed = false) (hsignal : h.signal.cancelled = false) (fuel : ℕ) :
    Server.runTurn call .right (fuel + 1) ⟨phase, h, .inl (.receive what)⟩
        (.pipes (p.holding ByteArray.empty) q false) =
      (.waits { call, phase, waiting := .receive what },
        .pipes (p.holding ByteArray.empty) q false, h) := by
  have hreceive : (Link.pipes (p.holding ByteArray.empty) q false).receive .right {} = _ :=
    Link.receive_right_pipes (Pipe.read_empty rfl hopen)
  rw [Server.runTurn]
  dsimp only
  rw [Server.attempt]
  simp only [hsignal, Bool.and_false, Bool.false_eq_true, if_false, hreceive]

/-- A session that waits for a frame takes it. -/
theorem resume_frame (call : Call) (phase : Server.Phase) (what : Server.Receiving) {f : Frame}
    (hf : f.Fits) (hsignal : h.signal.cancelled = false) :
    Server.resume { call, phase, waiting := .receive what } .right
        (.pipes (p.holding f.onWire) q false) h =
      Server.runTurn call .right
        (Server.patience (.pipes (p.holding ByteArray.empty) q false) .right)
        (Server.received call phase h what (.ok (some f)))
        (.pipes (p.holding ByteArray.empty) q false) := by
  have hreceive : (Link.pipes (p.holding f.onWire) q false).receive .right {} = _ :=
    Link.receive_right_pipes (Pipe.read_frame hf p)
  rw [Server.resume, Server.attempt]
  simp only [hsignal, Bool.and_false, Bool.false_eq_true, if_false, hreceive]

/-- A delivery that nothing ends but the link. -/
theorem runTurn_deliver (call : Call) (phase : Server.Phase) {d : Server.Delivering} {link' : Link}
    {x : Except LinkError Unit} (hd : d.attempt (.pipes p q false) .right none = (link', .ready x))
    (hsignal : h.signal.cancelled = false) (fuel : ℕ) :
    Server.runTurn call .right (fuel + 1) ⟨phase, h, .inl (.deliver d)⟩ (.pipes p q false) =
      Server.runTurn call .right fuel (Server.delivered call phase h d x) link' := by
  rw [Server.runTurn]
  dsimp only
  rw [Server.attempt]
  simp only [hsignal, Bool.and_false, Bool.false_eq_true, if_false, hd]

/-- A delivery after which a session waits for the next request. -/
theorem runTurn_saying {phase : Server.Phase} {secret : Crypto.SharedSecret} {d : Server.Delivering}
    {q' : Pipe} (hd : d.attempt (.pipes (p.holding ByteArray.empty) q false) .right none =
      (.pipes (p.holding ByteArray.empty) q' false, .ready (.ok ())))
    (hnext : Server.delivered .serve phase h d (.ok ()) =
      Server.nextInbound (.established secret) h)
    (hopen : p.closed = false) (hsignal : h.signal.cancelled = false) (fuel : ℕ) :
    Server.runTurn .serve .right (fuel + 1 + 1) ⟨phase, h, .inl (.deliver d)⟩
        (.pipes (p.holding ByteArray.empty) q false) =
      (.waits { call := .serve, phase := .established secret, waiting := .receive .request },
        .pipes (p.holding ByteArray.empty) q' false, h) := by
  have hwaits : Server.nextInbound (.established secret) h =
      ⟨.established secret, h, .inl (.receive .request)⟩ := by
    rw [Server.nextInbound, if_neg (by rw [hsignal]; exact Bool.false_ne_true)]
  rw [runTurn_deliver _ _ hd hsignal, hnext, hwaits]
  exact runTurn_idle .serve (.established secret) .request hopen hsignal fuel

/-! ### The first frame, the keys and a request -/

/-- A connection is opened for a session. -/
theorem advance_open (hopen : p.closed = false) (hsignal : h.signal.cancelled = false) :
    Connection.fresh.advance .right (.pipes (p.holding (Frame.open .session).onWire) q false) h =
      ((Stage.session .serve .awaitingPeerKey (.receive .peerKey)).entered,
        .pipes (p.holding ByteArray.empty) q false, h) := by
  have hfits : (Frame.open .session).Fits := by decide
  have hreceive : (Link.pipes (p.holding (Frame.open .session).onWire) q false).receive .right {} =
      _ :=
    Link.receive_right_pipes (Pipe.read_frame hfits p)
  rw [Connection.fresh, advance, hreceive]
  exact congrArg ofRun (runTurn_idle .serve .awaitingPeerKey .peerKey hopen hsignal _)

/-- **The keys are exchanged.** -/
theorem advance_key {key : Crypto.PublicKey} {secret : Crypto.SharedSecret}
    (hagree : (Crypto.KeyPair.generate h.entropy).1.agree key = .ok secret)
    (hopen : p.closed = false) (hsignal : h.signal.cancelled = false)
    {q' : Pipe} (hwrite : q.write
      (Frame.message (Crypto.KeyPair.generate h.entropy).1.publicKey.bytes).onWire =
        (q', .ready (.ok ()))) :
    (Stage.session .serve .awaitingPeerKey (.receive .peerKey)).entered.advance .right
        (.pipes (p.holding (Frame.message key.bytes).onWire) q false) h =
      ((Stage.session .serve (.established secret) (.receive .request)).entered,
        .pipes (p.holding ByteArray.empty) q' false,
        { h with entropy := (Crypto.KeyPair.generate h.entropy).2 }) := by
  have hturn : Server.received .serve .awaitingPeerKey h .peerKey
      (.ok (some (.message key.bytes))) = ⟨.handshaking,
        { h with entropy := (Crypto.KeyPair.generate h.entropy).2 },
        .inl (.deliver (.key (Crypto.KeyPair.generate h.entropy).1.publicKey secret))⟩ := by
    change Server.handshake .awaitingPeerKey h key.bytes = _
    rw [Server.handshake, Crypto.PublicKey.ofBytes_bytes]
    dsimp only
    rw [hagree]
  have hattempt : (Server.Delivering.key (Crypto.KeyPair.generate h.entropy).1.publicKey
      secret).attempt (.pipes (p.holding ByteArray.empty) q false) .right none = _ :=
    Duplex.attempt_writes (Or.inr ⟨rfl, Frame.fits_key _, rfl⟩) hwrite
  rw [Stage.entered, advance, resume_frame _ _ _ (Frame.fits_key key) hsignal, hturn]
  exact congrArg ofRun (runTurn_saying (h := { h with
    entropy := (Crypto.KeyPair.generate h.entropy).2 }) hattempt rfl hopen hsignal _)

/-- **A request is answered.** -/
theorem advance_reply {secret : Crypto.SharedSecret} {m plain envelope : Bytes}
    {response : Response} {h' : Host σ} {entropy : Entropy} {q' : Pipe}
    (hm : (Frame.message m).Fits) (hopens : Crypto.Envelope.reveal secret m = .ok plain)
    (hdispatch : Dispatch.dispatch plain h = (.ok response, h'))
    (hseal : Crypto.Envelope.sealFresh secret (Wire.encodeResponse response) h'.entropy =
      (.ok envelope, entropy))
    (hfits : (Frame.message envelope).Fits)
    (hwrite : q.write (Frame.message envelope).onWire = (q', .ready (.ok ())))
    (hopen : p.closed = false) (hsignal : h.signal.cancelled = false)
    (hsignal' : h'.signal.cancelled = false) :
    (Stage.session .serve (.established secret) (.receive .request)).entered.advance .right
        (.pipes (p.holding (Frame.message m).onWire) q false) h =
      ((Stage.session .serve (.established secret) (.receive .request)).entered,
        .pipes (p.holding ByteArray.empty) q' false, { h' with entropy }) := by
  have hturn : Server.received .serve (.established secret) h .request
      (.ok (some (.message m))) =
        ⟨.established secret, { h' with entropy }, .inl (.deliver (.reply envelope))⟩ := by
    change Server.receivedRequest .serve (.established secret) h (.ok (some m)) = _
    rw [Server.receivedRequest]
    dsimp only
    rw [hopens]
    dsimp only
    rw [Server.opened, hdispatch]
    dsimp only
    rw [Server.reply_established, hseal]
  have hattempt : (Server.Delivering.reply envelope).attempt
      (.pipes (p.holding ByteArray.empty) q false) .right none = _ :=
    Duplex.attempt_writes (Or.inr ⟨rfl, hfits, rfl⟩) hwrite
  rw [Stage.entered, advance, resume_frame _ _ _ hm hsignal, hturn]
  exact congrArg ofRun (runTurn_saying (h := { h' with entropy }) hattempt rfl hopen hsignal' _)

end Connection

namespace Traffic

/-- Frames arrive one by one, and the connection runs after each of them. -/
def oneByOne (fs : List Frame) (n : ℕ) : Move σ :=
  if n % 2 = 0 then .arrive (fs.getD (n / 2) .end).onWire else .run

variable [Store σ]

theorem after_oneByOne (fs : List Frame) (w : Traffic σ) (n : ℕ) :
    Schedule.after step (oneByOne fs) w (2 * (n + 1)) =
      step .run (step (.arrive (fs.getD n .end).onWire)
        (Schedule.after step (oneByOne fs) w (2 * n))) := by
  have hodd : (oneByOne fs (2 * n + 1) : Move σ) = .run := if_neg (by omega)
  have heven : (oneByOne fs (2 * n) : Move σ) = .arrive (fs.getD n .end).onWire := by
    rw [oneByOne, if_pos (by omega), Nat.mul_div_cancel_left n (by decide)]
  rw [Nat.mul_succ, Schedule.after_succ, Schedule.after_succ, hodd, heven]

/-- A frame arrives, and the connection runs. -/
theorem step_frame {w : Traffic σ} {h h' : Host σ} {p q q' : Pipe} {c c' : Connection} {f : Frame}
    (hw : w.exchange = ⟨h, .pipes (p.holding ByteArray.empty) q false, c⟩)
    (hopen : p.closed = false) (hroom : f.onWire.size ≤ p.capacity)
    (hadvance : c.advance .right (.pipes (p.holding f.onWire) q false) h =
      (c', .pipes (p.holding ByteArray.empty) q' false, h')) :
    (step .run (step (.arrive f.onWire) w)).exchange =
        ⟨h', .pipes (p.holding ByteArray.empty) q' false, c'⟩ ∧
      (step .run (step (.arrive f.onWire) w)).arrived = w.arrived ++ f.onWire ∧
      (step .run (step (.arrive f.onWire) w)).taken = w.taken := by
  obtain ⟨exchange, arrived, taken⟩ := w
  obtain rfl : exchange = _ := hw
  have hwrite := Pipe.write_whole (p := p.holding ByteArray.empty)
    (Nat.ne_of_gt f.size_onWire_pos) hopen ((Nat.zero_add _).trans_le hroom)
  rw [Pipe.buffered_holding, ByteArray.empty_append] at hwrite
  have harrive : Exchange.arrive ⟨h, .pipes (p.holding ByteArray.empty) q false, c⟩ f.onWire =
      ⟨h, .pipes (p.holding f.onWire) q false, c⟩ := by
    simp only [Exchange.arrive, Link.pipes, hwrite]
    rfl
  have haccepts : (p.holding ByteArray.empty).accepts f.onWire = f.onWire := by
    have hbuffered := congrArg (fun x => x.1.buffered) hwrite
    dsimp only at hbuffered
    rw [Pipe.write_fst, Pipe.buffered_holding, Pipe.buffered_holding,
      ByteArray.empty_append] at hbuffered
    exact hbuffered
  simp only [step, harrive, hadvance, true_and, and_true]
  exact congrArg (arrived ++ ·) haccepts

/-! ### A visitor -/

/-- A visitor is being served: the keys are exchanged, all that arrived is taken, and so much is
written. -/
def serving (secret : Crypto.SharedSecret) (h : Host σ) (b : Bytes) : Exchange σ :=
  ⟨h, .pipes ({ capacity := Exchange.window } : Pipe) { capacity := Exchange.window, buffered := b }
    false, (Connection.Stage.session .serve (.established secret) (.receive .request)).entered⟩

theorem write_serving {f : Frame} {b : Bytes} (hroom : b.size + f.onWire.size ≤ Exchange.window) :
    ({ capacity := Exchange.window, buffered := b } : Pipe).write f.onWire =
      ({ capacity := Exchange.window, buffered := b ++ f.onWire }, .ready (.ok ())) :=
  Pipe.write_whole (p := { capacity := Exchange.window, buffered := b })
    (Nat.ne_of_gt f.size_onWire_pos) rfl hroom

omit [Store σ] in
/-- Where all that arrived is taken, so are all the frames. -/
theorem heard_serving {w : Traffic σ} {secret : Crypto.SharedSecret} {h : Host σ} {b : Bytes}
    (hw : w.exchange = serving secret h b) : w.heard = w.frames := by
  have hconsumed : w.consumed = w.arrived := by
    rw [consumed, hw]
    apply Bytes.ext_octets
    exact (Bytes.octets_take _ _).trans (List.take_of_length_le (Bytes.length_octets _).le)
  rw [heard, hconsumed, frames]

/-- **The first two frames of a visitor** open the connection and exchange the keys. -/
theorem after_keys {h : Host σ} (hsignal : h.signal.cancelled = false) {key : Crypto.PublicKey}
    {secret : Crypto.SharedSecret}
    (hagree : (Crypto.KeyPair.generate h.entropy).1.agree key = .ok secret) (fs : List Frame) :
    let w := Schedule.after step (oneByOne (.open .session :: .message key.bytes :: fs))
      (start Exchange.window h) (2 * 2)
    w.exchange = serving secret { h with entropy := (Crypto.KeyPair.generate h.entropy).2 }
        (Frame.message (Crypto.KeyPair.generate h.entropy).1.publicKey.bytes).onWire ∧
      w.arrived = (Frame.open .session).onWire ++ (Frame.message key.bytes).onWire ∧
      w.taken = ByteArray.empty := by
  have hwrite := write_serving (b := ByteArray.empty)
    (f := .message (Crypto.KeyPair.generate h.entropy).1.publicKey.bytes)
    ((Nat.zero_add _).trans_le (Frame.size_onWire_le_window (Frame.fits_key _)))
  rw [ByteArray.empty_append] at hwrite
  obtain ⟨hopen, harrived, htaken⟩ := step_frame (w := start Exchange.window h)
    (p := { capacity := Exchange.window }) rfl rfl (Frame.size_onWire_le_window (by decide))
    (Connection.advance_open rfl hsignal)
  obtain ⟨hkey, harrived', htaken'⟩ := step_frame hopen rfl
    (Frame.size_onWire_le_window (Frame.fits_key key))
    (Connection.advance_key hagree rfl hsignal hwrite)
  rw [harrived] at harrived'
  rw [after_oneByOne _ _ 1, after_oneByOne _ _ 0]
  simp only [List.getD_cons_succ, List.getD_cons_zero, Schedule.after]
  exact ⟨hkey, harrived'.trans (congrArg (· ++ _) ByteArray.empty_append), htaken'.trans htaken⟩

/-- **A request of a visitor** is answered, if the response fits and there is room for it. -/
theorem step_request {w : Traffic σ} {secret : Crypto.SharedSecret} {h h' : Host σ} {b : Bytes}
    (hw : w.exchange = serving secret h b) {m plain : Bytes} (hm : (Frame.message m).Fits)
    (hopens : Crypto.Envelope.reveal secret m = .ok plain) {response : Response}
    (hdispatch : Dispatch.dispatch plain h = (.ok response, h'))
    (hcarries : Frame.Carries (Wire.encodeResponse response).size)
    (hsignal : h.signal.cancelled = false) (hsignal' : h'.signal.cancelled = false)
    (hroom : b.size + (Frame.lengthBytes + Frame.maxLength) ≤ Exchange.window) :
    ∃ envelope entropy, (Frame.message envelope).Fits ∧
      (step .run (step (.arrive (Frame.message m).onWire) w)).exchange =
        serving secret { h' with entropy } (b ++ (Frame.message envelope).onWire) ∧
      (step .run (step (.arrive (Frame.message m).onWire) w)).arrived =
        w.arrived ++ (Frame.message m).onWire := by
  obtain ⟨envelope, entropy, hseal, -, hfits⟩ :=
    Frame.exists_sealed_of_carries secret hcarries h'.entropy
  have hwrite := write_serving (b := b) (f := .message envelope) (by
    rw [Frame.size_onWire]
    rw [Frame.Fits] at hfits
    omega)
  obtain ⟨hexchange, harrived, -⟩ := step_frame (p := { capacity := Exchange.window }) hw rfl
    (Frame.size_onWire_le_window hm)
    (Connection.advance_reply hm hopens hdispatch hseal hfits hwrite rfl hsignal hsignal')
  exact ⟨envelope, entropy, hfits, hexchange, harrived⟩

/-- The key of a visitor. -/
def visitorKey : Crypto.PublicKey := (Crypto.KeyPair.generate ⟨fun _ => 1, 0⟩).1.publicKey

/-- The key of the host. -/
def hostKey : Crypto.PublicKey :=
  (Crypto.KeyPair.generate Duplex.emptyHost.entropy).1.publicKey

end Traffic

end Vault
