import Vault.Proofs.Crypto.Agreement
import Vault.Proofs.Session.Addition
import Vault.Proofs.Session.Crossing

/-!
# The two ends of a session meet

A client that connects and a server that accepts sit at the two ends of a link, of queues or
of pipes, and are polled in any order (`Vault.Duplex.step`). The client sends its public key.
The server draws its own key pair, and what it makes of the two keys settles everything
(`Vault.Meeting.Verdict`): it sends its public key, or a last frame that says what is wrong
with the client's. The client hears that and nothing else, since the server says only one
thing; and it comes to the same secret because multiplying by one scalar and then by the other
is the same either way round.

So there is no meeting after which one end has a session and the other has none
(`Vault.Meeting.endpoints_agree`). The server is through first: whenever the client has an
outcome, the server's call is over, and the outcomes are those of one verdict.
-/

namespace Vault

open Crypto (KeyPair PublicKey SharedSecret)
open Duplex (Move goesOn pending frameOf step step_serve)

/-! ### Key pairs as blobs -/

namespace Crypto

theorem KeyPair.ofBlob_blob (p : KeyPair) : KeyPair.ofBlob p.blob = .ok p := by
  obtain ⟨scalar, hscalar, publicKey, rfl⟩ := p
  have hsize : (scalar ++ (publicOf scalar).bytes).size = KeyPair.blobBytes := by
    rw [ByteArray.size_append, hscalar, (publicOf scalar).size_eq]
    rfl
  have htake : Bytes.take (scalar ++ (publicOf scalar).bytes) scalarBytes = scalar := by
    apply Bytes.ext_octets
    rw [Bytes.octets_take, Bytes.octets_append]
    exact List.take_left' (by rw [Bytes.length_octets, hscalar])
  have hdrop : Bytes.drop (scalar ++ (publicOf scalar).bytes) scalarBytes =
      (publicOf scalar).bytes := by
    apply Bytes.ext_octets
    rw [Bytes.octets_drop, Bytes.octets_append]
    exact List.drop_left' (by rw [Bytes.length_octets, hscalar])
  rw [KeyPair.ofBlob, KeyPair.blob, dif_pos hsize]
  simp only [htake, hdrop, KeyPair.ofScalar, if_true]

/-- Whoever keeps its key pair as a blob comes to the same secret. -/
theorem agreeFromBlob_blob (p : KeyPair) (peer : PublicKey) :
    agreeFromBlob p.blob peer.bytes = p.agree peer := by
  have hsize : p.blob.size = KeyPair.blobBytes := by
    rw [KeyPair.blob, ByteArray.size_append, p.size_eq, p.publicKey.size_eq]
    rfl
  rw [agreeFromBlob, if_pos hsize, PublicKey.ofBytes_bytes, KeyPair.ofBlob_blob]

/-- A secret is not agreed on exactly when it would be zero. -/
theorem KeyPair.agree_cases (p : KeyPair) (peer : PublicKey) :
    (Curve25519.multiply p.scalar peer.bytes ≠ Bytes.replicate 32 0 ∧
      p.agree peer = .ok ⟨_, Curve25519.size_multiply p.scalar peer.bytes⟩) ∨
    (Curve25519.multiply p.scalar peer.bytes = Bytes.replicate 32 0 ∧
      p.agree peer = .error .nonContributory) := by
  by_cases hzero : Curve25519.multiply p.scalar peer.bytes = Bytes.replicate 32 0
  · refine Or.inr ⟨hzero, ?_⟩
    rw [agree, if_pos hzero]
  · exact Or.inl ⟨hzero, KeyPair.agree_eq hzero⟩

end Crypto

namespace Meeting

variable {σ : Type} [Store σ]

/-! ### What a meeting can come to -/

/-- What is wrong with a key that forces the shared secret to zero. -/
def weakKey : SessionError := .invalidPeerKey .nonContributory

/-- **What the server makes of the client's key**: where its session stands and what it
delivers, and once that is delivered, where its session stands, what its call comes to, and
what the client's call comes to. -/
inductive Verdict (client server : KeyPair) :
    Server.Phase → Server.Delivering → Server.Phase → Server.Outcome → Client.Outcome → Prop
  /-- The two agree on a secret. -/
  | agreed {secret : SharedSecret} (hserver : server.agree client.publicKey = .ok secret) :
    Verdict client server .handshaking (.key server.publicKey secret) (.established secret)
      (.ok .done) (.ok (.connected ⟨secret, server.publicKey⟩))
  /-- The secret would be zero. -/
  | refused (hserver : server.agree client.publicKey = .error .nonContributory) :
    Verdict client server .terminated
      (.closing (.error weakKey.toStatus) (.error weakKey) false) .terminated (.error weakKey)
      (.error (.link (.remote weakKey.toStatus)))

section Verdict

variable {client server : KeyPair} {phase after : Server.Phase} {d : Server.Delivering}
  {result : Server.Outcome} {o : Client.Outcome}

omit [Store σ] in
theorem Verdict.delivered (hv : Verdict client server phase d after result o) (h : Host σ) :
    Server.delivered .accept phase h d (.ok ()) = ⟨after, h, .inr result⟩ := by
  cases hv <;> rfl

/-- The client comes to the same secret as the server. -/
theorem Verdict.received (hv : Verdict client server phase d after result o) :
    Client.received (.serverKey client) (.ok (some (frameOf d))) = .inr o := by
  cases hv with
  | agreed hserver =>
    have hclient := (KeyPair.agree_comm client server).trans hserver
    simp only [Client.received, frameOf, Link.inbound, Client.connected,
      PublicKey.ofBytes_bytes, hclient]
    rfl
  | refused hserver => rfl

theorem Verdict.fits (hv : Verdict client server phase d after result o) : (frameOf d).Fits := by
  cases hv with
  | agreed hserver =>
    have hsize : server.publicKey.bytes.size = 32 := server.publicKey.size_eq
    rw [frameOf, Frame.Fits, Frame.size_message, hsize]
    decide
  | refused hserver =>
    change (Frame.abort weakKey.toStatus).Fits
    decide

/-- The shutdown signal does not end the exchange of keys. -/
theorem Verdict.unwatched (hv : Verdict client server phase d after result o) (s : Signal) :
    (Server.watched .accept (.deliver d) && s.cancelled) = false := by
  cases hv <;> rfl

end Verdict

omit [Store σ] in
/-- **What the server does with a key** that has arrived. -/
theorem handshake_key (h : Host σ) (key : PublicKey) :
    (∃ secret h', (KeyPair.generate h.entropy).1.agree key = .ok secret ∧
      Server.handshake .awaitingPeerKey h key.bytes = ⟨.handshaking, h',
        .inl (.deliver (.key (KeyPair.generate h.entropy).1.publicKey secret))⟩) ∨
    ∃ h', (KeyPair.generate h.entropy).1.agree key = .error .nonContributory ∧
      Server.handshake .awaitingPeerKey h key.bytes = ⟨.terminated, h',
        .inl (.deliver (.closing (.error weakKey.toStatus) (.error weakKey) false))⟩ := by
  rcases KeyPair.agree_cases (KeyPair.generate h.entropy).1 key with ⟨-, hagree⟩ | ⟨-, hagree⟩
  · refine Or.inl ⟨_, { h with entropy := (KeyPair.generate h.entropy).2 }, hagree, ?_⟩
    simp only [Server.handshake, PublicKey.ofBytes_bytes, hagree]
  · refine Or.inr ⟨{ h with entropy := (KeyPair.generate h.entropy).2 }.recordStatus
      weakKey.toStatus, hagree, ?_⟩
    simp only [Server.handshake, PublicKey.ofBytes_bytes, hagree]
    rfl

omit [Store σ] in
theorem exists_verdict (client : KeyPair) (h : Host σ) :
    ∃ phase d after result o h',
      Server.handshake .awaitingPeerKey h client.publicKey.bytes = ⟨phase, h', .inl (.deliver d)⟩ ∧
      Verdict client (KeyPair.generate h.entropy).1 phase d after result o := by
  rcases handshake_key h client.publicKey with ⟨secret, h', hagree, hturn⟩ | ⟨h', hagree, hturn⟩
  · exact ⟨_, _, _, _, _, h', hturn, .agreed hagree⟩
  · exact ⟨_, _, _, _, _, h', hturn, .refused hagree⟩

/-! ### The machine -/

/-- A client connects and a server accepts. -/
def start (link : Link) (e : Entropy) (h : Host σ) : Duplex σ where
  caller := goesOn (Client.start .connect e).1
  link := link
  stop := (Server.start .accept .awaitingPeerKey h).stop .accept
  host := h

/-- Where a meeting has got to. -/
def meeting (link : Link) (e : Entropy) (h : Host σ) (sched : ℕ → Move) (n : ℕ) : Duplex σ :=
  Schedule.after step sched (start link e h) n

/-- A client that sends its key. -/
def greeting (client : KeyPair) (rest : Option Bytes) : Client.Running ⊕ Client.Outcome :=
  .inl ⟨.deliver (.key client), {}, rest⟩

/-- A client that waits for the server's key. -/
def awaiting (client : KeyPair) (r : Frame.Reading) : Client.Running ⊕ Client.Outcome :=
  .inl ⟨.receive (.serverKey client), r, none⟩

/-- A server that waits for the client's key. -/
def listening (r : Frame.Reading) : Server.Stop :=
  .waits ⟨.accept, .awaitingPeerKey, .receive .peerKey, r, none⟩

/-- A server that says what it makes of the client's key. -/
def saying (phase : Server.Phase) (d : Server.Delivering) (rest : Option Bytes) : Server.Stop :=
  .waits ⟨.accept, phase, .deliver d, {}, rest⟩

/-- The frame with the client's key. -/
def keyFrame (client : KeyPair) : Frame := .message client.publicKey.bytes

theorem fits_keyFrame (client : KeyPair) : (keyFrame client).Fits := by
  have hsize : client.publicKey.bytes.size = 32 := client.publicKey.size_eq
  rw [keyFrame, Frame.Fits, Frame.size_message, hsize]
  decide

/-! ### Polls -/

section Polls

variable {client server : KeyPair} {forth back lane : Lane} {said : Bool} {stop : Server.Stop}
  {rest rest' : Option Bytes} {r r' : Frame.Reading} {h : Host σ} {t : Timestamp} {s : Signal}
  {c : Client.Running ⊕ Client.Outcome} {phase after : Server.Phase} {d : Server.Delivering}
  {result : Server.Outcome} {o : Client.Outcome}

theorem call_sends (back : Lane) (said : Bool) (stop : Server.Stop) (h : Host σ)
    (hsend : forth.send (keyFrame client) rest = (lane, .ready (.ok ()))) :
    step .call ⟨greeting client rest, ⟨forth, back, false, said⟩, stop, h⟩ =
      ⟨awaiting client {}, ⟨lane, back, false, said⟩, stop, h⟩ := by
  have hlink : Client.Delivering.attempt (.key client) ⟨forth, back, false, said⟩ .left rest = _ :=
    Link.send_left_lane hsend
  simp only [step, greeting, Client.attempt, hlink]
  rfl

theorem call_sends_part (back : Lane) (said : Bool) (stop : Server.Stop) (h : Host σ)
    (hsend : forth.send (keyFrame client) rest = (lane, .waiting rest')) :
    step .call ⟨greeting client rest, ⟨forth, back, false, said⟩, stop, h⟩ =
      ⟨greeting client rest', ⟨lane, back, false, said⟩, stop, h⟩ := by
  have hlink : Client.Delivering.attempt (.key client) ⟨forth, back, false, said⟩ .left rest = _ :=
    Link.send_left_lane hsend
  simp only [step, greeting, Client.attempt, hlink]

theorem call_hears (forth : Lane) (said : Bool) (stop : Server.Stop) (h : Host σ)
    (hv : Verdict client server phase d after result o)
    (hreceive : back.receive r = (lane, .ready (.ok (some (frameOf d))))) :
    step .call ⟨awaiting client r, ⟨forth, back, false, said⟩, stop, h⟩ =
      ⟨.inr o, ⟨forth, lane, false, said⟩, stop, h⟩ := by
  simp only [step, awaiting, Client.attempt, Link.receive_left_lane hreceive,
    hv.received]
  rfl

theorem call_hears_part (client : KeyPair) (forth : Lane) (said : Bool) (stop : Server.Stop)
    (h : Host σ) (hreceive : back.receive r = (lane, .waiting r')) :
    step .call ⟨awaiting client r, ⟨forth, back, false, said⟩, stop, h⟩ =
      ⟨awaiting client r', ⟨forth, lane, false, said⟩, stop, h⟩ := by
  simp only [step, awaiting, Client.attempt, Link.receive_left_lane hreceive]

theorem serve_reads (back : Lane) (said : Bool) (c : Client.Running ⊕ Client.Outcome)
    {h' : Host σ}
    (hreceive : forth.receive r = (lane, .ready (.ok (some (keyFrame client)))))
    (hturn : Server.handshake .awaitingPeerKey (h.observing t s) client.publicKey.bytes =
      ⟨phase, h', .inl (.deliver d)⟩) :
    step (.serve t s) ⟨c, ⟨forth, back, false, said⟩, listening r, h⟩ =
      ⟨c, ⟨lane, back, false, said⟩, saying phase d none, h'⟩ := by
  have hreceived : Server.received .accept .awaitingPeerKey (h.observing t s) .peerKey
      (.ok (some (keyFrame client))) = ⟨phase, h', .inl (.deliver d)⟩ := hturn
  exact step_serve (Server.poll_received rfl (Link.receive_right_lane hreceive) hreceived)

theorem serve_reads_part (back : Lane) (said : Bool) (c : Client.Running ⊕ Client.Outcome)
    (h : Host σ) (t : Timestamp) (s : Signal) (hreceive : forth.receive r = (lane, .waiting r')) :
    step (.serve t s) ⟨c, ⟨forth, back, false, said⟩, listening r, h⟩ =
      ⟨c, ⟨lane, back, false, said⟩, listening r', h⟩ :=
  step_serve (Server.poll_receiving rfl (Link.receive_right_lane hreceive))

/-- A last frame closes its lane. -/
theorem Verdict.attempt (hv : Verdict client server phase d after result o) (forth : Lane)
    (hsend : back.send (frameOf d) rest = (lane, .ready (.ok ()))) :
    d.attempt ⟨forth, back, false, false⟩ .right rest =
        (⟨forth, lane, false, false⟩, .ready (.ok ())) ∨
      d.attempt ⟨forth, back, false, false⟩ .right rest =
        (⟨forth, lane.dropSender, false, true⟩, .ready (.ok ())) := by
  have hlink : Link.send ⟨forth, back, false, false⟩ .right (frameOf d) rest = _ :=
    Link.send_right_lane hsend
  cases hv with
  | agreed hserver => exact Or.inl hlink
  | refused hserver =>
    refine Or.inr ?_
    simp only [frameOf] at hlink
    simp only [Server.Delivering.attempt, Link.finish, hlink]
    rfl

theorem Verdict.attempt_part (hv : Verdict client server phase d after result o)
    (hsend : back.send (frameOf d) rest = (lane, .waiting rest')) :
    d.attempt ⟨forth, back, false, false⟩ .right rest =
      (⟨forth, lane, false, false⟩, .waiting rest') := by
  have hlink : Link.send ⟨forth, back, false, false⟩ .right (frameOf d) rest = _ :=
    Link.send_right_lane hsend
  cases hv with
  | agreed hserver => exact hlink
  | refused hserver =>
    simp only [frameOf] at hlink
    simp only [Server.Delivering.attempt, Link.finish, hlink]
    rfl

theorem serve_says (forth : Lane) (c : Client.Running ⊕ Client.Outcome) (h : Host σ)
    (t : Timestamp) (s : Signal) (hv : Verdict client server phase d after result o)
    (hsend : back.send (frameOf d) rest = (lane, .ready (.ok ()))) :
    ∃ lane' said', (lane' = lane ∨ lane' = lane.dropSender) ∧
      step (.serve t s) ⟨c, ⟨forth, back, false, false⟩, saying phase d rest, h⟩ =
        ⟨c, ⟨forth, lane', false, said'⟩, .ends after result, h.observing t s⟩ := by
  have hstep {link : Link}
      (hattempt : d.attempt ⟨forth, back, false, false⟩ .right rest = (link, .ready (.ok ()))) :
      step (.serve t s) ⟨c, ⟨forth, back, false, false⟩, saying phase d rest, h⟩ =
        ⟨c, link, .ends after result, h.observing t s⟩ :=
    step_serve (Server.poll_delivered (hv.unwatched s) hattempt (hv.delivered _))
  rcases hv.attempt forth hsend with hattempt | hattempt
  · exact ⟨lane, false, Or.inl rfl, hstep hattempt⟩
  · exact ⟨lane.dropSender, true, Or.inr rfl, hstep hattempt⟩

theorem serve_says_part (forth : Lane) (c : Client.Running ⊕ Client.Outcome) (h : Host σ)
    (t : Timestamp) (s : Signal) (hv : Verdict client server phase d after result o)
    (hsend : back.send (frameOf d) rest = (lane, .waiting rest')) :
    step (.serve t s) ⟨c, ⟨forth, back, false, false⟩, saying phase d rest, h⟩ =
      ⟨c, ⟨forth, lane, false, false⟩, saying phase d rest', h⟩ :=
  step_serve (Server.poll_delivering (hv.unwatched s) (hv.attempt_part hsend))

end Polls

/-! ### The states in between -/

/-- **Where a meeting can be**, of a client with a server that has not drawn its key pair yet
from the random bytes of a host. -/
inductive Standing (client : KeyPair) (h : Host σ) : Duplex σ → Prop
  /-- The client sends its key. -/
  | calling {rest : Option Bytes} {r : Frame.Reading} {forth back : Lane}
    (hforth : Crossing (keyFrame client) (some rest) forth r) (hback : back.Fresh) :
    Standing client h ⟨greeting client rest, ⟨forth, back, false, false⟩, listening r, h⟩
  /-- The key has left. -/
  | called {r : Frame.Reading} {forth back : Lane}
    (hforth : Crossing (keyFrame client) none forth r) (hback : back.Fresh) :
    Standing client h ⟨awaiting client {}, ⟨forth, back, false, false⟩, listening r, h⟩
  /-- The server says what it makes of the key. -/
  | answering {phase after : Server.Phase} {d : Server.Delivering} {result : Server.Outcome}
    {o : Client.Outcome} {rest : Option Bytes} {r : Frame.Reading} {forth back : Lane} {h' : Host σ}
    (hv : Verdict client (KeyPair.generate h.entropy).1 phase d after result o)
    (hback : Crossing (frameOf d) (some rest) back r) :
    Standing client h
      ⟨awaiting client r, ⟨forth, back, false, false⟩, saying phase d rest, h'⟩
  /-- The server has said it. -/
  | answered {phase after : Server.Phase} {d : Server.Delivering} {result : Server.Outcome}
    {o : Client.Outcome} {r : Frame.Reading} {forth back : Lane} {said : Bool} {h' : Host σ}
    (hv : Verdict client (KeyPair.generate h.entropy).1 phase d after result o)
    (hback : Crossing (frameOf d) none back r) :
    Standing client h
      ⟨awaiting client r, ⟨forth, back, false, said⟩, .ends after result, h'⟩
  /-- The client has heard it. -/
  | met {phase after : Server.Phase} {d : Server.Delivering} {result : Server.Outcome}
    {o : Client.Outcome} {link : Link} {h' : Host σ}
    (hv : Verdict client (KeyPair.generate h.entropy).1 phase d after result o) :
    Standing client h ⟨.inr o, link, .ends after result, h'⟩

/-- What the client has to write. -/
def callerLoad : Client.Running → ℕ
  | ⟨.deliver (.key client), _, rest⟩ => 2 * pending (keyFrame client) rest + 1
  | _ => 0

/-- What the server has to write, or will have to. -/
def serverLoad : Server.Stop → ℕ
  | .waits ⟨_, _, .deliver d, _, rest⟩ => 2 * pending (frameOf d) rest
  | .waits ⟨_, _, .receive _, _, _⟩ => Duplex.allowance
  | .ends .. => 0

omit [Store σ] in
/-- How much is left to do before the client has its outcome. What is to be written counts
twice until it is on a lane. -/
def rank (w : Duplex σ) : ℕ :=
  match w.caller with
  | .inr _ => 0
  | .inl c => 1 + callerLoad c + w.link.forth.backlog + serverLoad w.stop + w.link.back.backlog

section Standing

variable {client : KeyPair} {h h' : Host σ} {w : Duplex σ} {t : Timestamp} {s : Signal}
  {forth back : Lane} {said : Bool} {stop : Server.Stop} {r : Frame.Reading} {rest : Option Bytes}

omit [Store σ] in
theorem rank_greeting : rank ⟨greeting client rest, ⟨forth, back, false, said⟩, stop, h⟩ =
    1 + (2 * pending (keyFrame client) rest + 1) + forth.backlog + serverLoad stop +
      back.backlog := rfl

omit [Store σ] in
theorem rank_awaiting : rank ⟨awaiting client r, ⟨forth, back, false, said⟩, stop, h⟩ =
    1 + forth.backlog + serverLoad stop + back.backlog := rfl

theorem serverLoad_saying (phase : Server.Phase) (d : Server.Delivering) (rest : Option Bytes) :
    serverLoad (saying phase d rest) = 2 * pending (frameOf d) rest := rfl

/-- A move keeps a meeting where it can be, and it changes nothing or brings the end nearer, as
long as the server's call is not over. -/
def Advances (client : KeyPair) (h : Host σ) (move : Move) (w : Duplex σ) : Prop :=
  Standing client h (step move w) ∧ rank (step move w) ≤ rank w ∧
    ((∃ running, w.stop = .waits running) → step move w = w ∨ rank (step move w) < rank w)

theorem advances_of_eq {move : Move} (hw : Standing client h w) (hsame : step move w = w) :
    Advances client h move w := by
  rw [Advances, hsame]
  exact ⟨hw, Nat.le_refl _, fun _ => Or.inl rfl⟩

theorem advances_of_lt {move : Move} (hw : Standing client h (step move w))
    (hlt : rank (step move w) < rank w) : Advances client h move w :=
  ⟨hw, Nat.le_of_lt hlt, fun _ => Or.inr hlt⟩

theorem advances_of_ends {move : Move} {phase : Server.Phase} {result : Server.Outcome}
    (hstop : w.stop = .ends phase result) (hw : Standing client h (step move w))
    (hle : rank (step move w) ≤ rank w) : Advances client h move w := by
  refine ⟨hw, hle, ?_⟩
  rintro ⟨running, hwaits⟩
  rw [hstop] at hwaits
  cases hwaits

/-- A client to whom everything was said hears it. -/
theorem call_answered (forth : Lane) (said : Bool) (stop : Server.Stop) (h : Host σ)
    {phase after : Server.Phase} {d : Server.Delivering} {result : Server.Outcome}
    {o : Client.Outcome} {server : KeyPair}
    (hv : Verdict client server phase d after result o) (hback : Crossing (frameOf d) none back r) :
    ∃ link, step .call ⟨awaiting client r, ⟨forth, back, false, said⟩, stop, h⟩ =
      ⟨.inr o, link, stop, h⟩ := by
  obtain ⟨lane, hreceive, -⟩ := hback.receive hv.fits
  exact ⟨_, call_hears forth said stop h hv hreceive⟩

/-- **What a poll of the client leads to.** -/
theorem advances_call (hw : Standing client h w) : Advances client h .call w := by
  cases hw with
  | @calling rest r forth back hforth hback =>
    rcases hforth.send with ⟨lane, hsend, hleft, hlt⟩ | ⟨lane, rest', hsend, hleft, hsame | hlt⟩
    · have hstep := call_sends back false (listening r) h hsend
      refine advances_of_lt ?_ ?_
      · rw [hstep]
        exact .called hleft hback
      · rw [hstep, rank_awaiting, rank_greeting]
        omega
    · obtain ⟨rfl, rfl⟩ := hsame
      exact advances_of_eq (.calling hforth hback) (call_sends_part _ _ _ _ hsend)
    · have hstep := call_sends_part back false (listening r) h hsend
      refine advances_of_lt ?_ ?_
      · rw [hstep]
        exact .calling hleft hback
      · rw [hstep, rank_greeting, rank_greeting]
        omega
  | called hforth hback =>
    exact advances_of_eq (.called hforth hback) (call_hears_part _ _ _ _ _ hback.receive)
  | @answering phase after d result o rest r forth back h' hv hback =>
    obtain ⟨lane, r', hreceive, hleft, hsame | hlt⟩ := hback.receive_part hv.fits
    · obtain ⟨rfl, rfl⟩ := hsame
      exact advances_of_eq (.answering hv hback) (call_hears_part _ _ _ _ _ hreceive)
    · have hstep := call_hears_part client forth false (saying phase d rest) h' hreceive
      refine advances_of_lt ?_ ?_
      · rw [hstep]
        exact .answering hv hleft
      · rw [hstep, rank_awaiting, rank_awaiting]
        omega
  | @answered phase after d result o r forth back said h' hv hback =>
    obtain ⟨link, hstep⟩ := call_answered forth said (.ends after result) h' hv hback
    refine advances_of_lt ?_ ?_
    · rw [hstep]
      exact .met hv
    · rw [hstep, rank_awaiting]
      exact Nat.lt_of_lt_of_le Nat.zero_lt_one (by omega)
  | met hv => exact advances_of_eq (.met hv) rfl

omit [Store σ] in
theorem rank_dropEnd (c : Client.Running ⊕ Client.Outcome) :
    rank ⟨c, Link.dropEnd ⟨forth, back, false, said⟩ .right, stop, h⟩ =
      rank ⟨c, ⟨forth, back, false, said⟩, stop, h⟩ := by
  cases forth <;> cases back <;> rfl

/-- **What a poll of the server leads to.** -/
theorem advances_serve (hw : Standing client h w) : Advances client h (.serve t s) w := by
  cases hw with
  | @calling rest r forth back hforth hback =>
    obtain ⟨lane, r', hreceive, hleft, hsame | hlt⟩ := hforth.receive_part (fits_keyFrame client)
    · obtain ⟨rfl, rfl⟩ := hsame
      exact advances_of_eq (.calling hforth hback) (serve_reads_part _ _ _ _ _ _ hreceive)
    · have hstep := serve_reads_part back false (greeting client rest) h t s hreceive
      refine advances_of_lt ?_ ?_
      · rw [hstep]
        exact .calling hleft hback
      · rw [hstep, rank_greeting, rank_greeting]
        change _ + Duplex.allowance + _ < _ + Duplex.allowance + _
        omega
  | @called r forth back hforth hback =>
    obtain ⟨lane, hreceive, hle⟩ := hforth.receive (fits_keyFrame client)
    -- the server decides with the clock and the signal of this poll
    obtain ⟨phase, d, after, result, o, h', hturn, hv⟩ := exists_verdict client (h.observing t s)
    have hstep := serve_reads back false (awaiting client {}) hreceive hturn
    have hload := Duplex.pending_none_le (frameOf d)
    refine advances_of_lt ?_ ?_
    · rw [hstep]
      exact .answering hv (.start hv.fits hback)
    · rw [hstep, rank_awaiting, rank_awaiting, serverLoad_saying]
      change _ < _ + Duplex.allowance + _
      rw [Duplex.allowance]
      omega
  | @answering phase after d result o rest r forth back h' hv hback =>
    rcases hback.send with ⟨lane, hsend, hleft, hlt⟩ | ⟨lane, rest', hsend, hleft, hsame | hlt⟩
    · obtain ⟨lane', said', hlane, hstep⟩ := serve_says forth (awaiting client r) h' t s hv hsend
      have hlane' : Crossing (frameOf d) none lane' r ∧ lane'.backlog = lane.backlog := by
        rcases hlane with rfl | rfl
        · exact ⟨hleft, rfl⟩
        · exact ⟨hleft.dropSender, by cases lane <;> rfl⟩
      refine advances_of_lt ?_ ?_
      · rw [hstep]
        exact .answered hv hlane'.1
      · rw [hstep, rank_awaiting, rank_awaiting, serverLoad_saying, hlane'.2, serverLoad]
        omega
    · obtain ⟨rfl, rfl⟩ := hsame
      exact advances_of_eq (.answering hv hback) (serve_says_part _ _ _ _ _ hv hsend)
    · have hstep := serve_says_part forth (awaiting client r) h' t s hv hsend
      refine advances_of_lt ?_ ?_
      · rw [hstep]
        exact .answering hv hleft
      · rw [hstep, rank_awaiting, rank_awaiting, serverLoad_saying, serverLoad_saying]
        omega
  | @answered phase after d result o r forth back said h' hv hback =>
    -- the frame has left, and the server may let go of its end
    cases hv with
    | agreed hserver =>
      exact advances_of_ends rfl (.answered (.agreed hserver) hback) (Nat.le_refl _)
    | refused hserver =>
      exact advances_of_ends rfl (.answered (.refused hserver) hback.dropSender)
        (Nat.le_of_eq (rank_dropEnd _))
  | met hv =>
    cases hv with
    | agreed hserver =>
      exact advances_of_ends rfl (.met (.agreed hserver)) (Nat.le_refl _)
    | refused hserver =>
      exact advances_of_ends rfl (.met (.refused hserver)) (Nat.le_refl _)

theorem advances (move : Move) (hw : Standing client h w) : Advances client h move w := by
  cases move with
  | call => exact advances_call hw
  | serve t s => exact advances_serve hw

/-- **Where the client cannot move, the server can**, as long as its call is not over. -/
theorem serve_ne_of_call_eq (hw : Standing client h w) {running : Server.Running}
    (hwaits : w.stop = .waits running) (hcall : step .call w = w) : step (.serve t s) w ≠ w := by
  intro hserve
  -- if neither poll changes anything, the frame under way is stuck at both ends of its lane
  cases hw with
  | @calling rest r forth back hforth hback =>
    rcases hforth.send with ⟨lane, hsend, -, -⟩ | ⟨lane, rest', hsend, -, -⟩
    · cases congrArg Duplex.caller ((call_sends _ _ _ _ hsend).symm.trans hcall)
    · obtain ⟨lane', r', hreceive, -, -⟩ := hforth.receive_part (fits_keyFrame client)
      have hsent := (call_sends_part _ _ _ _ hsend).symm.trans hcall
      have hread := (serve_reads_part _ _ _ _ _ _ hreceive).symm.trans hserve
      obtain rfl : lane = forth := congrArg (fun w => w.link.forth) hsent
      obtain rfl : lane' = lane := congrArg (fun w => w.link.forth) hread
      obtain rfl : rest' = rest := by
        injection congrArg Duplex.caller hsent with hrunning
        exact congrArg Client.Running.rest hrunning
      obtain rfl : r' = r := by
        injection congrArg Duplex.stop hread with hrunning
        exact congrArg Server.Running.reading hrunning
      exact hforth.moves (fits_keyFrame client) hreceive hsend
  | @called r forth back hforth hback =>
    obtain ⟨lane, hreceive, -⟩ := hforth.receive (fits_keyFrame client)
    obtain ⟨phase, d, after, result, o, h', hturn, -⟩ := exists_verdict client (h.observing t s)
    cases congrArg Duplex.stop ((serve_reads _ _ _ hreceive hturn).symm.trans hserve)
  | @answering phase after d result o rest r forth back h' hv hback =>
    rcases hback.send with ⟨lane, hsend, -, -⟩ | ⟨lane, rest', hsend, -, -⟩
    · obtain ⟨lane', said', -, hstep⟩ := serve_says forth (awaiting client r) h' t s hv hsend
      cases congrArg Duplex.stop (hstep.symm.trans hserve)
    · obtain ⟨lane', r', hreceive, -, -⟩ := hback.receive_part hv.fits
      have hsent := (serve_says_part _ _ _ _ _ hv hsend).symm.trans hserve
      have hread := (call_hears_part _ _ _ _ _ hreceive).symm.trans hcall
      obtain rfl : lane = back := congrArg (fun w => w.link.back) hsent
      obtain rfl : lane' = lane := congrArg (fun w => w.link.back) hread
      obtain rfl : rest' = rest := by
        injection congrArg Duplex.stop hsent with hrunning
        exact congrArg Server.Running.rest hrunning
      obtain rfl : r' = r := by
        injection congrArg Duplex.caller hread with hrunning
        exact congrArg Client.Running.reading hrunning
      exact hback.moves hv.fits hreceive hsend
  | answered hv hback => cases hwaits
  | met hv => cases hwaits

/-- A server whose call is over has nothing more to do with it. -/
theorem stop_step {phase : Server.Phase} {result : Server.Outcome} (move : Move)
    (hstop : w.stop = .ends phase result) : (step move w).stop = .ends phase result := by
  obtain ⟨caller, link, stop, host⟩ := w
  obtain rfl : stop = .ends phase result := hstop
  cases move with
  | call =>
    rcases caller with running | o
    · simp only [step]
      split <;> rfl
    · rfl
  | serve t s => exact Server.stop_poll_ends t s phase result link host

end Standing

/-! ### The end of a meeting -/

section Ends

variable {client : KeyPair} {h : Host σ} {w : Duplex σ} {sched : ℕ → Move}

omit [Store σ] in
theorem rank_eq_zero_iff : rank w = 0 ↔ ∃ o, w.caller = .inr o := by
  rcases w with ⟨running | o, link, stop, host⟩
  · constructor
    · intro hzero
      simp only [rank] at hzero
      omega
    · rintro ⟨o, ho⟩
      cases ho
  · exact iff_of_true rfl ⟨o, rfl⟩

/-- Whose poll brings the end nearer: the client's, if the server is through, and that of
whoever can move, if it is not. -/
def Helps (w : Duplex σ) (move : Move) : Prop :=
  rank w ≠ 0 ∧ match w.stop with
    | .ends .. => move = .call
    | .waits _ => step move w ≠ w

theorem rank_lt_of_helps {move : Move} (hw : Standing client h w) (hhelps : Helps w move) :
    rank (step move w) < rank w := by
  obtain ⟨hpos, hmove⟩ := hhelps
  rcases hstop : w.stop with running | ⟨phase, result⟩ <;> rw [hstop] at hmove
  · exact ((advances move hw).2.2 ⟨running, hstop⟩).resolve_left hmove
  · obtain rfl : move = .call := hmove
    cases hw with
    | @answered _ after _ result _ _ forth _ said h' hv hback =>
      obtain ⟨link, hstep⟩ := call_answered forth said (.ends after result) h' hv hback
      rw [hstep]
      exact Nat.pos_of_ne_zero hpos
    | met hv => exact absurd rfl hpos
    | _ => cases hstop

theorem helps_step {move move' : Move} (hw : Standing client h w)
    (hrank : rank (step move w) = rank w) (hhelps : Helps w move') :
    Helps (step move w) move' := by
  rcases hstop : w.stop with running | ⟨phase, result⟩
  · rcases (advances move hw).2.2 ⟨running, hstop⟩ with hsame | hlt
    · rwa [hsame]
    · omega
  · -- letting go of the link changes the state but not whose turn it is
    have hstop' := stop_step move hstop
    rw [Helps, hstop] at hhelps
    rw [Helps, hstop', hrank]
    exact hhelps

/-- Every move keeps a meeting where it can be. -/
theorem standing_after (hw : Standing client h w) (n : ℕ) :
    Standing client h (Schedule.after step sched w n) := by
  induction n with
  | zero => exact hw
  | succ n ih => exact (advances (sched n) ih).1

omit [Store σ] in
/-- The server is through before the client. -/
theorem ends_of_over (hw : Standing client h w) {o : Client.Outcome} (ho : w.caller = .inr o) :
    ∃ phase result, w.stop = .ends phase result := by
  cases hw with
  | met hv => exact ⟨_, _, rfl⟩
  | _ => cases ho

/-- **A meeting comes to an end** if both ends are polled again and again. -/
theorem met_after (hw : Standing client h w) (hcall : Schedule.Again sched (· = .call))
    (hserve : Schedule.Again sched fun move => ∃ t s, move = .serve t s) :
    ∃ n o phase result, ∀ k, n ≤ k → (Schedule.after step sched w k).caller = .inr o ∧
      (Schedule.after step sched w k).stop = .ends phase result := by
  have hstanding (k : ℕ) : Standing client h (Schedule.after step sched w k) :=
    standing_after hw k
  have hagain (v : Duplex σ) (hv : Standing client h v) (hpos : 0 < rank v) :
      Schedule.Again sched (Helps v) := by
    intro n
    rcases hstop : v.stop with running | ⟨phase, result⟩
    · -- the client can move, or else every poll of the server helps
      by_cases hcalls : step .call v = v
      · obtain ⟨k, hk, t, s, hmove⟩ := hserve n
        refine ⟨k, hk, by omega, ?_⟩
        rw [hstop, hmove]
        exact serve_ne_of_call_eq hv hstop hcalls
      · obtain ⟨k, hk, hmove⟩ := hcall n
        refine ⟨k, hk, by omega, ?_⟩
        rw [hstop, hmove]
        exact hcalls
    · obtain ⟨k, hk, hmove⟩ := hcall n
      refine ⟨k, hk, by omega, ?_⟩
      rw [hstop]
      exact hmove
  obtain ⟨n, -, hn⟩ := Schedule.reaches_rank_zero (Standing client h) rank Helps
    (fun move v hv => (advances move hv).1) (fun move v hv => (advances move hv).2.1)
    (fun move v hv hrank move' hhelps => helps_step hv hrank hhelps)
    (fun move v hv hhelps => rank_lt_of_helps hv hhelps) hagain (hstanding 0)
  obtain ⟨o, ho⟩ := rank_eq_zero_iff.mp hn
  obtain ⟨phase, result, hstop⟩ := ends_of_over (hstanding n) ho
  exact ⟨n, o, phase, result, fun k hk => Schedule.after_keeps
    (fun v : Duplex σ => v.caller = .inr o ∧ v.stop = .ends phase result)
    (fun move v hv => ⟨Duplex.caller_step move hv.1, stop_step move hv.2⟩) ⟨ho, hstop⟩ hk⟩

end Ends

/-! ### Both ends have a session, or neither -/

section Agreement

variable {client server : KeyPair} {phase after : Server.Phase} {d : Server.Delivering}
  {result : Server.Outcome} {o : Client.Outcome}

/-- Whatever one end seals with a secret, the other end opens with its own. -/
def Understands (mine yours : SharedSecret) : Prop :=
  ∀ nonce plain, nonce.size = Crypto.Envelope.nonceBytes →
    Crypto.Envelope.tooLong plain.size = false →
    ∃ envelope, Crypto.Envelope.sealWith mine nonce plain = .ok envelope ∧
      Crypto.Envelope.reveal yours envelope = .ok plain

theorem understands_self (secret : SharedSecret) : Understands secret secret := by
  intro nonce plain hnonce hshort
  have hseal : ∃ envelope, Crypto.Envelope.sealWith secret nonce plain = .ok envelope := by
    rw [Crypto.Envelope.sealWith, hshort]
    exact ⟨_, rfl⟩
  obtain ⟨envelope, henvelope⟩ := hseal
  exact ⟨envelope, henvelope, Crypto.Envelope.reveal_sealWith hnonce henvelope⟩

/-- **What the two calls of a meeting come to.** -/
structure Concluded (client server : KeyPair) (o : Client.Outcome) (phase : Server.Phase)
    (result : Server.Outcome) : Prop where
  /-- One call succeeds exactly when the other does. -/
  both : (∃ answer, o = .ok answer) ↔ ∃ answer, result = .ok answer
  /-- If what they agree on is not zero, both have it as their secret, the client knows the
  server's key, and each opens what the other seals. -/
  session : Crypto.Curve25519.multiply client.scalar server.publicKey.bytes ≠
      Bytes.replicate 32 0 →
    ∃ mine yours, o = .ok (.connected ⟨mine, server.publicKey⟩) ∧ phase = .established yours ∧
      result = .ok .done ∧ mine = yours ∧
      mine.bytes = Crypto.Curve25519.multiply client.scalar server.publicKey.bytes ∧
      Crypto.agreeFromBlob client.blob server.publicKey.bytes = .ok mine ∧
      Crypto.agreeFromBlob server.blob client.publicKey.bytes = .ok yours ∧
      Understands mine yours ∧ Understands yours mine
  /-- If it is zero, the server's session is over, and the client gets a last frame that says
  that its key was no good. -/
  failure : Crypto.Curve25519.multiply client.scalar server.publicKey.bytes =
      Bytes.replicate 32 0 →
    phase = .terminated ∧ (∃ err, result = .error err) ∧
      ∃ s, s.kind = .invalidArgument ∧ o = .error (.link (.remote s))

theorem Verdict.concluded (hv : Verdict client server phase d after result o) :
    Concluded client server o after result := by
  have hblobs : Crypto.agreeFromBlob client.blob server.publicKey.bytes =
      server.agree client.publicKey ∧
      Crypto.agreeFromBlob server.blob client.publicKey.bytes = server.agree client.publicKey :=
    ⟨(Crypto.agreeFromBlob_blob client _).trans (KeyPair.agree_comm client server),
      Crypto.agreeFromBlob_blob server _⟩
  -- what the client would agree on decides what the server has agreed on
  have hcases := KeyPair.agree_cases client server.publicKey
  rw [KeyPair.agree_comm client server] at hcases
  cases hv with
  | @agreed secret hserver =>
    rw [hserver] at hblobs hcases
    rcases hcases with ⟨hne, hagree⟩ | ⟨-, hagree⟩
    · have hsecret := congrArg SharedSecret.bytes (Except.ok.inj hagree)
      refine ⟨iff_of_true ⟨_, rfl⟩ ⟨_, rfl⟩, fun _ => ?_, fun hc => absurd hc hne⟩
      exact ⟨secret, secret, rfl, rfl, rfl, rfl, hsecret, hblobs.1, hblobs.2,
        understands_self secret, understands_self secret⟩
    · cases hagree
  | refused hserver =>
    rw [hserver] at hcases
    rcases hcases with ⟨-, hagree⟩ | ⟨hzero, -⟩
    · exact absurd hagree (by simp)
    · have hnone {ε α : Type} (err : ε) : ¬∃ a : α, (.error err : Except ε α) = .ok a := by
        rintro ⟨a, ha⟩
        cases ha
      exact ⟨iff_of_false (hnone _) (hnone _), fun hc => absurd hzero hc,
        fun _ => ⟨rfl, ⟨weakKey, rfl⟩, weakKey.toStatus, rfl, rfl⟩⟩

omit [Store σ] in
/-- Once the server is through, its outcome and the client's are those of one verdict. -/
theorem concluded_of_standing {h : Host σ} {w : Duplex σ} (hw : Standing client h w)
    (hstop : w.stop = .ends phase result) :
    ∃ o, Concluded client (KeyPair.generate h.entropy).1 o phase result ∧
      ∀ o', w.caller = .inr o' → o' = o := by
  cases hw with
  | answered hv hback =>
    obtain ⟨rfl, rfl⟩ := Server.Stop.ends.inj hstop
    exact ⟨_, hv.concluded, by simp [awaiting]⟩
  | met hv =>
    obtain ⟨rfl, rfl⟩ := Server.Stop.ends.inj hstop
    exact ⟨_, hv.concluded, fun o' ho' => (Sum.inr.inj ho').symm⟩
  | _ => cases hstop

end Agreement

variable {link : Link} {sched : ℕ → Move}

omit [Store σ] in
theorem standing_start (hlink : link = .inMemory ∨ ∃ capacity, 0 < capacity ∧
      link = .framed capacity) (e : Entropy) (h : Host σ) :
    Standing (KeyPair.generate e).1 h (start link e h) := by
  have hfits := fits_keyFrame (KeyPair.generate e).1
  rcases hlink with rfl | ⟨capacity, hcapacity, rfl⟩
  · have hfresh : (Lane.queue {}).Fresh := rfl
    exact .calling (.start hfits hfresh) hfresh
  · have hfresh : (Lane.pipe { capacity }).Fresh := ⟨⟨rfl, rfl⟩, hcapacity⟩
    exact .calling (.start hfits hfresh) hfresh

/-- **Both ends of a session come to the same**, whatever key pairs they draw, over queues and
over pipes of any capacity, in whatever order they are polled and whatever the clock and the
shutdown signal say. Whenever the client has its outcome the server has its own, and the two go
together; if both are polled again and again, there comes a time when both have theirs.

And whoever else sends a key that would force the secret to zero has it refused in the same
way: by the server with a last frame, by the client with a failure. -/
theorem endpoints_agree (link : Link) (hlink : link = .inMemory ∨ ∃ capacity, 0 < capacity ∧
      link = .framed capacity) (e : Entropy) (h : Host σ) (sched : ℕ → Move) :
    (∀ n o, (meeting link e h sched n).caller = .inr o →
      ∃ phase result, (meeting link e h sched n).stop = .ends phase result ∧
        Concluded (KeyPair.generate e).1 (KeyPair.generate h.entropy).1 o phase result) ∧
    (∀ n phase result, (meeting link e h sched n).stop = .ends phase result →
      ∃ o, Concluded (KeyPair.generate e).1 (KeyPair.generate h.entropy).1 o phase result ∧
        ∀ o', (meeting link e h sched n).caller = .inr o' → o' = o) ∧
    (Schedule.Again sched (· = .call) →
      (Schedule.Again sched fun move => ∃ t s, move = .serve t s) →
      ∃ n o phase result, ∀ k, n ≤ k → (meeting link e h sched k).caller = .inr o ∧
        (meeting link e h sched k).stop = .ends phase result) ∧
    (∀ key : PublicKey, Crypto.Curve25519.multiply (KeyPair.generate h.entropy).1.scalar key.bytes =
        Bytes.replicate 32 0 →
      ∃ h' s, s.kind = .invalidArgument ∧
        Server.received .accept .awaitingPeerKey h .peerKey (.ok (some (.message key.bytes))) =
          ⟨.terminated, h', .inl (.deliver (.closing (.error s) (.error weakKey) false))⟩) ∧
    (∀ key : PublicKey, Crypto.Curve25519.multiply (KeyPair.generate e).1.scalar key.bytes =
        Bytes.replicate 32 0 →
      Client.received (.serverKey (KeyPair.generate e).1) (.ok (some (.message key.bytes))) =
        .inr (.error weakKey)) := by
  have hstart := standing_start hlink e h
  have hstanding (n : ℕ) : Standing (KeyPair.generate e).1 h (meeting link e h sched n) :=
    standing_after hstart n
  refine ⟨fun n o ho => ?_, fun n phase result hstop => concluded_of_standing (hstanding n) hstop,
    met_after hstart, fun key hzero => ?_, fun key hzero => ?_⟩
  · obtain ⟨phase, result, hstop⟩ := ends_of_over (hstanding n) ho
    obtain ⟨o', hconcluded, hsame⟩ := concluded_of_standing (hstanding n) hstop
    exact ⟨phase, result, hstop, hsame o ho ▸ hconcluded⟩
  · rcases handshake_key h key with ⟨secret, h', hagree, -⟩ | ⟨h', -, hturn⟩
    · rw [KeyPair.agree, if_pos hzero] at hagree
      cases hagree
    · exact ⟨h', weakKey.toStatus, rfl, hturn⟩
  · have hagree : (KeyPair.generate e).1.agree key = .error .nonContributory := by
      rw [KeyPair.agree, if_pos hzero]
    simp only [Client.received, Link.inbound, Client.connected, PublicKey.ofBytes_bytes, hagree]
    rfl

/-- Two key pairs over pipes that hold one byte each: both ends have the same secret. -/
theorem endpoints_agree_byte_by_byte :
    ∃ n secret, (meeting (.framed 1) ⟨fun _ => 1, 0⟩ Duplex.emptyHost Duplex.turns n).caller =
        .inr (.ok (.connected
          ⟨secret, (KeyPair.generate Duplex.emptyHost.entropy).1.publicKey⟩)) ∧
      (meeting (.framed 1) ⟨fun _ => 1, 0⟩ Duplex.emptyHost Duplex.turns n).stop =
        .ends (.established secret) (.ok .done) := by
  obtain ⟨hover, -, hends, -, -⟩ := endpoints_agree (.framed 1)
    (Or.inr ⟨1, Nat.zero_lt_one, rfl⟩) ⟨fun _ => 1, 0⟩ Duplex.emptyHost Duplex.turns
  obtain ⟨n, o, phase, result, hn⟩ := hends Duplex.again_call_turns Duplex.again_serve_turns
  obtain ⟨ho, hstop⟩ := hn n (Nat.le_refl n)
  obtain ⟨phase', result', hstop', hconcluded⟩ := hover n o ho
  have hne : Crypto.Curve25519.multiply (KeyPair.generate ⟨fun _ => 1, 0⟩).1.scalar
      (KeyPair.generate Duplex.emptyHost.entropy).1.publicKey.bytes ≠ Bytes.replicate 32 0 := by
    decide +kernel
  obtain ⟨mine, yours, rfl, rfl, rfl, rfl, -⟩ := hconcluded.session hne
  exact ⟨n, mine, ho, hstop'⟩

/-- A key of zero bytes is one that is refused. -/
example : (KeyPair.generate Duplex.emptyHost.entropy).1.agree
    ⟨Bytes.replicate 32 0, by decide⟩ = .error .nonContributory := by
  decide +kernel

end Meeting

end Vault
