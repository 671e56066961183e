import Vault.Proofs.Crypto.Envelope
import Vault.Proofs.Session.Poll

/-!
# A server at its post

A server that serves requests sits at the right end of a link of queues and is polled:
each poll tries once to get past what the server waits for, at whatever time it then is
(`Vault.Server.Post.poll`). Of all the states that a call can be in, a serving one gets
into few: it waits for the peer's key, hands over its own, listens, replies, says its last
frame, or has said it. These are its **stations** (`Vault.Server.Station`), and for each of
them one lemma says where a poll leads.

Time matters only where a request is carried out. The clock is a list of readings, one
for each frame that the server takes off the link, and any two hosts that differ in
nothing but the time are told apart by nothing else that happens here.
-/

namespace Vault

/-! ### A link of queues -/

namespace Link

/-- A link of queues with frames on its two lanes. The right end may have said its last
frame, and it may be gone. -/
def queues (F B : List Frame) (said gone : Bool) : Link :=
  ⟨.queue { frames := F, receiverGone := gone }, .queue { frames := B, senderGone := said },
    false, said⟩

variable {F B : List Frame} {said gone : Bool}

theorem receive_right (f : Frame) (r : Frame.Reading) :
    (queues (f :: F) B said gone).receive .right r =
      (queues F B said gone, .ready (.ok (some f))) := rfl

theorem receive_right_nil (r : Frame.Reading) :
    (queues [] B said gone).receive .right r = (queues [] B said gone, .waiting r) := rfl

theorem receive_left (f : Frame) (r : Frame.Reading) :
    (queues F (f :: B) said gone).receive .left r =
      (queues F B said gone, .ready (.ok (some f))) := rfl

theorem receive_left_nil (r : Frame.Reading) :
    (queues F [] false gone).receive .left r = (queues F [] false gone, .waiting r) := rfl

theorem receive_left_said (r : Frame.Reading) :
    (queues F [] true gone).receive .left r = (queues F [] true gone, .ready (.ok none)) := rfl

theorem send_right (h : B.length < Queue.capacity) (f : Frame) (rest : Option Bytes) :
    (queues F B false gone).send .right f rest =
      (queues F (B ++ [f]) false gone, .ready (.ok ())) := by
  simp [send, done, outOf, setOut, Lane.send, Queue.offer, queues, h]

theorem send_right_full (h : ¬B.length < Queue.capacity) (f : Frame) (rest : Option Bytes) :
    (queues F B false gone).send .right f rest = (queues F B false gone, .waiting none) := by
  simp [send, done, outOf, setOut, Lane.send, Queue.offer, queues, h]

theorem send_left (h : F.length < Queue.capacity) (f : Frame) (rest : Option Bytes) :
    (queues F B said false).send .left f rest =
      (queues (F ++ [f]) B said false, .ready (.ok ())) := by
  simp [send, done, outOf, setOut, Lane.send, Queue.offer, queues, h]

theorem send_left_full (h : ¬F.length < Queue.capacity) (f : Frame) (rest : Option Bytes) :
    (queues F B said false).send .left f rest = (queues F B said false, .waiting none) := by
  simp [send, done, outOf, setOut, Lane.send, Queue.offer, queues, h]

theorem send_left_gone (f : Frame) (rest : Option Bytes) :
    (queues F B said true).send .left f rest =
      (queues F B said true, .ready (.error .closed)) := by
  simp [send, done, outOf, setOut, Lane.send, Queue.offer, queues]

theorem finish_right (h : B.length < Queue.capacity) (last : Except Status Unit)
    (rest : Option Bytes) : (queues F B false gone).finish .right last rest =
      (queues F (B ++ [closingFrame last]) true gone, .ready (.ok ())) := by
  rw [finish, send_right h]
  rfl

theorem finish_right_full (h : ¬B.length < Queue.capacity) (last : Except Status Unit)
    (rest : Option Bytes) : (queues F B false gone).finish .right last rest =
      (queues F B false gone, .waiting none) := by
  rw [finish, send_right_full h]
  rfl

end Link

/-! ### The time on a host -/

namespace Host

variable {σ : Type}

/-- The host at a time. -/
def atTime (h : Host σ) (t : Timestamp) : Host σ := { h with now := t }

@[simp] theorem atTime_atTime (h : Host σ) (s t : Timestamp) : (h.atTime s).atTime t = h.atTime t :=
  rfl

/-- The host after some random bytes were drawn by others. -/
def skip (h : Host σ) (n : ℕ) : Host σ := { h with entropy := (h.entropy.draw n).2 }

end Host

theorem Crypto.PublicKey.ofBytes_bytes (key : PublicKey) : ofBytes key.bytes = .ok key :=
  dif_pos key.size_eq

theorem Crypto.KeyPair.agree_eq {p : KeyPair} {peer : PublicKey}
    (h : Curve25519.multiply p.scalar peer.bytes ≠ Bytes.replicate 32 0) :
    p.agree peer = .ok ⟨_, Curve25519.size_multiply p.scalar peer.bytes⟩ := by
  rw [agree, if_neg h]

namespace Dispatch

variable {σ : Type}

theorem signal_answer {α : Type} {f : α → Host σ → Response × Host σ}
    (hf : ∀ a h, (f a h).2.signal = h.signal) (r : Except StoreError α × Host σ) :
    (answer f r).2.signal = r.2.signal := by
  rcases r with ⟨e | a, h⟩
  · cases e <;> rfl
  · exact hf a h

theorem signal_trim (ds : List Document) (h : Host σ) : (trim ds h).2.signal = h.signal := by
  rw [trim]
  split_ifs <;> rfl

variable [Store σ]

theorem signal_perform (r : Request) (h : Host σ) : (perform r h).2.signal = h.signal := by
  cases r with
  | add owner content name => exact signal_answer (fun _ _ => rfl) _
  | get id => exact signal_answer (fun _ _ => rfl) _
  | list owner => exact signal_answer (fun ds h => signal_trim ds h) _

theorem signal_handle (r : Request) (h : Host σ) : (handle r h).2.signal = h.signal := by
  rw [handle]
  rcases r.validate with s | _
  · rfl
  · exact signal_perform r h

/-- Carrying out a request leaves the shutdown signal alone. -/
theorem signal_of_dispatch {b : Bytes} {h h' : Host σ} {r : Except Status Response}
    (hd : dispatch b h = (r, h')) : h'.signal = h.signal := by
  rw [show h' = (dispatch b h).2 by rw [hd], dispatch]
  rcases Wire.decodeRequest b with e | request
  · rfl
  · have hhandle := signal_handle request h
    rcases hr : handle request h with ⟨s | response, h'⟩ <;> rw [hr] at hhandle
    · simp only [hr]
      split_ifs <;> exact hhandle
    · simpa only [hr] using hhandle

end Dispatch

/-! ### Polls -/

namespace Server

variable {σ : Type}

/-- A server at the right end of a link. -/
structure Post (σ : Type) where
  /-- The link. -/
  link : Link
  /-- Where the call has got to. -/
  stop : Stop
  /-- The host. -/
  host : Host σ
  /-- How many frames were taken off the link. -/
  taken : ℕ

/-- Poll a server: it tries once to get past its wait, at the time that the clock says. The
shutdown signal is what it is on the host. -/
def Post.poll [Store σ] (clock : ℕ → Timestamp) (p : Post σ) : Post σ :=
  match Server.poll (clock p.taken) p.host.signal p.stop p.link p.host with
  | (stop, link, host) =>
    ⟨link, stop, host, p.taken + ((p.link.into .right).backlog - (link.into .right).backlog)⟩

/-- A server that was asked to serve, with nothing on the link. -/
def Post.start [Store σ] (h : Host σ) : Post σ :=
  let (stop, link, host) :=
    runTurn .serve .right 0 (Server.start .serve .awaitingPeerKey h) .inMemory
  ⟨link, stop, host, 0⟩

/-- Where a call that serves requests can be. -/
inductive Station where
  /-- It waits for the peer's key. -/
  | awaitingKey
  /-- It hands over its own key. -/
  | greeting (key : Crypto.PublicKey) (secret : Crypto.SharedSecret)
  /-- It waits for an envelope. -/
  | listening (secret : Crypto.SharedSecret)
  /-- It sends the envelope of a reply. -/
  | replying (secret : Crypto.SharedSecret) (envelope : Bytes)
  /-- It says its last frame. -/
  | closing (last : Except Status Unit) (result : Outcome) (watched : Bool)
  /-- It has said its last frame. -/
  | closed (result : Outcome)

namespace Station

/-- Where the session stands. -/
def phase : Station → Phase
  | awaitingKey => .awaitingPeerKey
  | greeting .. => .handshaking
  | listening secret => .established secret
  | replying secret _ => .established secret
  | closing .. => .terminated
  | closed _ => .terminated

/-- What the call waits for, or what it came to. -/
def next : Station → Waiting ⊕ Outcome
  | awaitingKey => .inl (.receive .peerKey)
  | greeting key secret => .inl (.deliver (.key key secret))
  | listening _ => .inl (.receive .request)
  | replying _ envelope => .inl (.deliver (.reply envelope))
  | closing last result watched => .inl (.deliver (.closing last result watched))
  | closed result => .inr result

/-- The turn that leads to a station. -/
def turn (st : Station) (h : Host σ) : Turn σ := ⟨st.phase, h, st.next⟩

/-- The state of the call at a station. -/
def stop (st : Station) : Stop :=
  match st.next with
  | .inl waiting => .waits { call := .serve, phase := st.phase, waiting }
  | .inr result => .ends st.phase result

/-- Whether the last frame is said. -/
def said : Station → Bool
  | closed _ => true
  | _ => false

/-- A server at a station, with the frames on the two lanes of its link. -/
def post (st : Station) (F B : List Frame) (gone : Bool) (h : Host σ) (n : ℕ) : Post σ :=
  ⟨.queues F B st.said gone, st.stop, h, n⟩

theorem post_start [Store σ] (h : Host σ) : Post.start h = awaitingKey.post [] [] false h 0 := rfl

theorem said_of_waiting {st : Station} {waiting : Waiting} (h : st.next = .inl waiting) :
    st.said = false := by
  cases st with
  | closed result => nomatch h
  | _ => rfl

theorem stop_of_waiting {st : Station} {waiting : Waiting} (h : st.next = .inl waiting) :
    st.stop = .waits { call := .serve, phase := st.phase, waiting } := by
  rw [stop, h]

end Station

open Station

/-! ### The end of a session -/

/-- The host once a failure is logged; the statuses of requests were logged before. -/
def blamed (h : Host σ) (e : SessionError) : Host σ :=
  match e with
  | .status _ => h
  | e => h.recordStatus e.toStatus

theorem signal_blamed (h : Host σ) (e : SessionError) : (blamed h e).signal = h.signal := by
  cases e <;> rfl

theorem terminate_eq {phase : Phase} (hphase : phase.name ≠ .terminated) (h : Host σ)
    (e : SessionError) (watched : Bool) : terminate phase h e watched =
      (closing (.error e.toStatus) (.error e) watched).turn (blamed h e) := by
  cases e <;> exact close_of_open hphase ..

section Polls

variable [Store σ] {clock : ℕ → Timestamp} {F B B' : List Frame} {gone : Bool} {h h' : Host σ}
  {n : ℕ} {st st' : Station}

/-- A poll of a server at a station, from what becomes of its call. -/
theorem poll_post {n' : ℕ} {F' : List Frame}
    (hpoll : Server.poll (clock n) h.signal st.stop (.queues F B st.said gone) h =
      (st'.stop, .queues F' B' st'.said gone, h')) (hn : n' = n + (F.length - F'.length)) :
    (st.post F B gone h n).poll clock = st'.post F' B' gone h' n' := by
  subst hn
  simp only [Post.poll, post, hpoll]
  rfl

/-- A wait for a frame takes the next one. -/
theorem poll_receive {what : Receiving} {f : Frame} (hsig : h.signal.cancelled = false)
    (hst : st.next = .inl (.receive what)) (hsaid : st'.said = false)
    (hturn : received .serve st.phase (h.atTime (clock n)) what (.ok (some f)) = st'.turn h') :
    (st.post (f :: F) B gone h n).poll clock = st'.post F B gone h' (n + 1) := by
  refine poll_post ?_ (by rw [List.length_cons]; omega)
  rw [stop_of_waiting hst, said_of_waiting hst, hsaid]
  exact poll_received (by rw [hsig, Bool.and_false]) (Link.receive_right f {}) hturn

/-- A frame that makes something go wrong ends the session with the status of that. -/
theorem poll_terminates {what : Receiving} {f : Frame} {phase : Phase} {e : SessionError}
    {watched : Bool} (hsig : h.signal.cancelled = false) (hst : st.next = .inl (.receive what))
    (hturn : received .serve st.phase (h.atTime (clock n)) what (.ok (some f)) =
      terminate phase h' e watched) (hphase : phase.name ≠ .terminated) :
    (st.post (f :: F) B gone h n).poll clock =
      (closing (.error e.toStatus) (.error e) watched).post F B gone (blamed h' e) (n + 1) :=
  poll_receive hsig hst rfl (hturn.trans (terminate_eq hphase h' e watched))

/-- With no frame there it goes on waiting. -/
theorem poll_receive_nil {what : Receiving} (hsig : h.signal.cancelled = false)
    (hst : st.next = .inl (.receive what)) :
    (st.post [] B gone h n).poll clock = st.post [] B gone h n := by
  refine poll_post ?_ rfl
  rw [stop_of_waiting hst, said_of_waiting hst]
  exact poll_receiving (by rw [hsig, Bool.and_false]) (Link.receive_right_nil {})

/-- A delivery goes on as soon as its frame is on the link. -/
theorem poll_deliver {what : Delivering} (hsig : h.signal.cancelled = false)
    (hst : st.next = .inl (.deliver what))
    (hlink : what.attempt (.queues F B false gone) .right none =
      (.queues F B' st'.said gone, .ready (.ok ())))
    (hturn : delivered .serve st.phase (h.atTime (clock n)) what (.ok ()) = st'.turn h') :
    (st.post F B gone h n).poll clock = st'.post F B' gone h' n := by
  refine poll_post ?_ (by omega)
  rw [stop_of_waiting hst, said_of_waiting hst]
  exact poll_delivered (by rw [hsig, Bool.and_false]) hlink hturn

/-- With no room for it there it goes on waiting. -/
theorem poll_deliver_full {what : Delivering} (hsig : h.signal.cancelled = false)
    (hst : st.next = .inl (.deliver what))
    (hlink : what.attempt (.queues F B false gone) .right none =
      (.queues F B false gone, .waiting none)) :
    (st.post F B gone h n).poll clock = st.post F B gone h n := by
  refine poll_post ?_ (by omega)
  rw [stop_of_waiting hst, said_of_waiting hst]
  exact poll_delivering (by rw [hsig, Bool.and_false]) hlink

/-! ### The handshake -/

/-- The peer's key leads to a secret. -/
structure Accepts (h : Host σ) (peer : Bytes) (key : Crypto.PublicKey)
    (secret : Crypto.SharedSecret) (h' : Host σ) : Prop where
  /-- The server draws a key of its own. -/
  key_eq : key = (Crypto.KeyPair.generate h.entropy).1.publicKey
  /-- The two keys agree on the secret. -/
  agree : ∃ k, Crypto.PublicKey.ofBytes peer = .ok k ∧
    (Crypto.KeyPair.generate h.entropy).1.agree k = .ok secret
  /-- Nothing on the host has changed but the random bytes. -/
  host_eq : h' = { h with entropy := (Crypto.KeyPair.generate h.entropy).2 }

/-- The first frame leads to no secret, and this is what went wrong. -/
inductive Refuses (h : Host σ) : Frame → SessionError → Prop
  /-- The message is no key. -/
  | malformed {peer : Bytes} {e : Crypto.Error} (hkey : Crypto.PublicKey.ofBytes peer = .error e) :
    Refuses h (.message peer) (.invalidPeerKey e)
  /-- The key is one that forces the secret. -/
  | weak {peer : Bytes} {key : Crypto.PublicKey} {e : Crypto.Error}
    (hkey : Crypto.PublicKey.ofBytes peer = .ok key)
    (hagree : (Crypto.KeyPair.generate h.entropy).1.agree key = .error e) :
    Refuses h (.message peer) (.invalidPeerKey e)
  /-- The peer is done. -/
  | ended : Refuses h .end (.handshake "stream closed before the peer key arrived")
  /-- The peer gives up. -/
  | aborted (s : Status) : Refuses h (.abort s) (.link (.remote s))
  /-- The peer opens a call. -/
  | opened (m : Method) : Refuses h (.open m) (.handshake ("reading initial message: " ++
      (LinkError.protocol ("unexpected open frame for " ++ m.title)).message))

omit [Store σ] in
/-- The first frame is accepted or refused. -/
theorem accepts_or_refuses (h : Host σ) (f : Frame) :
    (∃ peer key secret h', f = .message peer ∧ Accepts h peer key secret h') ∨
      ∃ e, Refuses h f e := by
  cases f with
  | message peer =>
    rcases hkey : Crypto.PublicKey.ofBytes peer with e | key
    · exact Or.inr ⟨_, .malformed hkey⟩
    rcases hagree : (Crypto.KeyPair.generate h.entropy).1.agree key with e | secret
    · exact Or.inr ⟨_, .weak hkey hagree⟩
    · exact Or.inl ⟨peer, _, secret, _, rfl, rfl, ⟨key, hkey, hagree⟩, rfl⟩
  | «open» m => exact Or.inr ⟨_, .opened m⟩
  | «end» => exact Or.inr ⟨_, .ended⟩
  | abort s => exact Or.inr ⟨_, .aborted s⟩

theorem poll_accepts (hsig : h.signal.cancelled = false) {peer : Bytes} {key : Crypto.PublicKey}
    {secret : Crypto.SharedSecret} (ha : Accepts h peer key secret h') :
    (awaitingKey.post (.message peer :: F) B gone h n).poll clock =
      (greeting key secret).post F B gone (h'.atTime (clock n)) (n + 1) := by
  obtain ⟨rfl, ⟨k, hk, hagree⟩, rfl⟩ := ha
  refine poll_receive hsig rfl rfl ?_
  have hagree' : (Crypto.KeyPair.generate (h.atTime (clock n)).entropy).1.agree k = .ok secret :=
    hagree
  simp only [received, receivedKey, Link.inbound, handshake, hk, hagree']
  rfl

/-- What went wrong ends the session with its status. -/
theorem poll_refuses (F B : List Frame) (gone : Bool) (hsig : h.signal.cancelled = false)
    {f : Frame} {e : SessionError} (hr : Refuses h f e) :
    ∃ h', (awaitingKey.post (f :: F) B gone h n).poll clock =
        (closing (.error e.toStatus) (.error e) false).post F B gone h' (n + 1) ∧
      h'.signal = h.signal := by
  suffices hturn : ∃ h' phase, received .serve awaitingKey.phase (h.atTime (clock n)) .peerKey
      (.ok (some f)) = terminate phase h' e false ∧ phase.name ≠ .terminated ∧
        h'.signal = h.signal by
    obtain ⟨h', phase, hturn, hphase, hs⟩ := hturn
    exact ⟨_, poll_terminates hsig rfl hturn hphase, (signal_blamed h' e).trans hs⟩
  cases hr with
  | malformed hkey =>
    refine ⟨{ h.atTime (clock n) with entropy := (Crypto.KeyPair.generate h.entropy).2 },
      .handshaking, ?_, nofun, rfl⟩
    simp only [received, receivedKey, Link.inbound, handshake, hkey]
    rfl
  | @weak peer key e hkey hagree =>
    have hagree' : (Crypto.KeyPair.generate (h.atTime (clock n)).entropy).1.agree key =
      .error e := hagree
    refine ⟨{ h.atTime (clock n) with entropy := (Crypto.KeyPair.generate h.entropy).2 },
      .handshaking, ?_, nofun, rfl⟩
    simp only [received, receivedKey, Link.inbound, handshake, hkey, hagree']
    rfl
  | ended => exact ⟨h.atTime (clock n), .awaitingPeerKey, rfl, nofun, rfl⟩
  | aborted s => exact ⟨h.atTime (clock n), .awaitingPeerKey, rfl, nofun, rfl⟩
  | opened m => exact ⟨h.atTime (clock n), .awaitingPeerKey, rfl, nofun, rfl⟩

/-! ### Requests -/

variable {secret : Crypto.SharedSecret}

/-- **A message is answered** at a time: it opens, its request is carried out, and the
response is sealed in an envelope that opens to its encoding. -/
inductive Answers (secret : Crypto.SharedSecret) (t : Timestamp) (h : Host σ) :
    Bytes → Bytes → Host σ → Prop
  | intro {m plain envelope : Bytes} {response : Response} {h' : Host σ} {e : Entropy}
    (hopens : Crypto.Envelope.reveal secret m = .ok plain)
    (hdispatch : Dispatch.dispatch plain (h.atTime t) = (.ok response, h'))
    (hseals : Crypto.Envelope.sealFresh secret (Wire.encodeResponse response) h'.entropy =
      (.ok envelope, e))
    (hreveals : Crypto.Envelope.reveal secret envelope = .ok (Wire.encodeResponse response)) :
    Answers secret t h m envelope { h' with entropy := e }

/-- **A frame ends the session** at a time, and this is the last frame of the server. -/
inductive Breaks (secret : Crypto.SharedSecret) (t : Timestamp) (h : Host σ) :
    Frame → Frame → Prop
  /-- The peer is done. -/
  | ended : Breaks secret t h .end .end
  /-- The peer gives up. -/
  | aborted (s : Status) : Breaks secret t h (.abort s) (.abort s)
  /-- The peer opens a call. -/
  | opened (m : Method) : Breaks secret t h (.open m)
      (.abort (.internal (LinkError.protocol ("unexpected open frame for " ++ m.title)).message))
  /-- The message does not open. -/
  | sealed {m : Bytes} {e : Crypto.Error} (hopens : Crypto.Envelope.reveal secret m = .error e) :
    Breaks secret t h (.message m) (.abort (.invalidArgument (SessionError.decrypt e).message))
  /-- The request fails. -/
  | failed {m plain : Bytes} {s : Status} {h' : Host σ}
    (hopens : Crypto.Envelope.reveal secret m = .ok plain)
    (hdispatch : Dispatch.dispatch plain (h.atTime t) = (.error s, h')) :
    Breaks secret t h (.message m) (.abort s)
  /-- The response is longer than the cipher can take. -/
  | overlong {m plain : Bytes} {response : Response} {h' : Host σ}
    (hopens : Crypto.Envelope.reveal secret m = .ok plain)
    (hdispatch : Dispatch.dispatch plain (h.atTime t) = (.ok response, h'))
    (hlong : Crypto.Envelope.tooLong (Wire.encodeResponse response).size = true) :
    Breaks secret t h (.message m) (.abort (.internal
      (SessionError.crypto (.encryption Crypto.Envelope.cipherFailure)).message))

/-- A frame to a listening server is answered or ends the session. -/
theorem answers_or_breaks (secret : Crypto.SharedSecret) (t : Timestamp) (h : Host σ) (f : Frame) :
    (∃ m envelope h', f = .message m ∧ Answers secret t h m envelope h') ∨
      ∃ last, Breaks secret t h f last := by
  cases f with
  | message m =>
    rcases hopens : Crypto.Envelope.reveal secret m with e | plain
    · exact Or.inr ⟨_, .sealed hopens⟩
    rcases hdispatch : Dispatch.dispatch plain (h.atTime t) with ⟨s | response, h'⟩
    · exact Or.inr ⟨_, .failed hopens hdispatch⟩
    by_cases hlong : Crypto.Envelope.tooLong (Wire.encodeResponse response).size = true
    · exact Or.inr ⟨_, .overlong hopens hdispatch hlong⟩
    · obtain ⟨envelope, hseals, hreveals, -⟩ :=
        Crypto.Envelope.sealFresh_of_not_tooLong secret hlong h'.entropy
      exact Or.inl ⟨m, envelope, _, rfl, .intro hopens hdispatch hseals hreveals⟩
  | «open» m => exact Or.inr ⟨_, .opened m⟩
  | «end» => exact Or.inr ⟨_, .ended⟩
  | abort s => exact Or.inr ⟨_, .aborted s⟩

theorem signal_answers {t : Timestamp} {m envelope : Bytes}
    (ha : Answers secret t h m envelope h') : h'.signal = h.signal := by
  cases ha with
  | intro _ hdispatch _ _ =>
    have hsignal := Dispatch.signal_of_dispatch hdispatch
    exact hsignal

theorem poll_answers (hsig : h.signal.cancelled = false) {m envelope : Bytes}
    (ha : Answers secret (clock n) h m envelope h') :
    ((listening secret).post (.message m :: F) B gone h n).poll clock =
      (replying secret envelope).post F B gone h' (n + 1) := by
  obtain ⟨hopens, hdispatch, hseals, -⟩ := ha
  refine poll_receive hsig rfl rfl ?_
  simp only [received, receivedRequest, Link.inbound, phase, hopens, opened, hdispatch, reply,
    hseals]
  rfl

/-- A request that fails ends the session; what the host is then is what the request left. -/
theorem poll_failed (hsig : h.signal.cancelled = false) {m plain : Bytes} {s : Status}
    (hopens : Crypto.Envelope.reveal secret m = .ok plain)
    (hdispatch : Dispatch.dispatch plain (h.atTime (clock n)) = (.error s, h')) :
    ((listening secret).post (.message m :: F) B gone h n).poll clock =
      (closing (.error s) (.error (.status s)) false).post F B gone h' (n + 1) := by
  have hturn : received .serve (listening secret).phase (h.atTime (clock n)) .request
      (.ok (some (.message m))) = terminate (.established secret) h' (.status s) false := by
    simp only [received, receivedRequest, Link.inbound, phase, hopens, opened, hdispatch]
  exact poll_terminates hsig rfl hturn nofun

/-- A response that is too long ends the session. -/
theorem poll_closedlong (hsig : h.signal.cancelled = false) {m plain : Bytes} {response : Response}
    (hopens : Crypto.Envelope.reveal secret m = .ok plain)
    (hdispatch : Dispatch.dispatch plain (h.atTime (clock n)) = (.ok response, h'))
    (hlong : Crypto.Envelope.tooLong (Wire.encodeResponse response).size = true) :
    ((listening secret).post (.message m :: F) B gone h n).poll clock =
      (closing (.error (.internal
          (SessionError.crypto (.encryption Crypto.Envelope.cipherFailure)).message))
        (.error (.crypto (.encryption Crypto.Envelope.cipherFailure))) false).post F B gone
        (blamed (h'.skip Crypto.Envelope.nonceBytes)
          (.crypto (.encryption Crypto.Envelope.cipherFailure))) (n + 1) := by
  have hturn : received .serve (listening secret).phase (h.atTime (clock n)) .request
      (.ok (some (.message m))) = terminate (.established secret)
        (h'.skip Crypto.Envelope.nonceBytes)
        (.crypto (.encryption Crypto.Envelope.cipherFailure)) false := by
    simp only [received, receivedRequest, Link.inbound, phase, hopens, opened, hdispatch, reply,
      Crypto.Envelope.sealFresh_of_tooLong secret hlong]
    rfl
  exact poll_terminates hsig rfl hturn nofun

/-- The server says its last frame. -/
theorem poll_breaks (F B : List Frame) (gone : Bool) (hsig : h.signal.cancelled = false)
    {f c : Frame} (hb : Breaks secret (clock n) h f c) : ∃ last result watched h',
      ((listening secret).post (f :: F) B gone h n).poll clock =
        (closing last result watched).post F B gone h' (n + 1) ∧
      Link.closingFrame last = c ∧ h'.signal = h.signal := by
  cases hb with
  | ended =>
    have hturn : received .serve (listening secret).phase (h.atTime (clock n)) .request
        (.ok (some .end)) = (closing (.ok ()) (.ok .done) true).turn (h.atTime (clock n)) := rfl
    exact ⟨_, _, _, _, poll_receive hsig rfl rfl hturn, rfl, rfl⟩
  | aborted s =>
    have hturn : received .serve (listening secret).phase (h.atTime (clock n)) .request
        (.ok (some (.abort s))) =
        terminate (.established secret) (h.atTime (clock n)) (.link (.remote s)) true := rfl
    exact ⟨_, _, _, _, poll_terminates hsig rfl hturn nofun, rfl, rfl⟩
  | opened m =>
    have hturn : received .serve (listening secret).phase (h.atTime (clock n)) .request
        (.ok (some (.open m))) = terminate (.established secret) (h.atTime (clock n))
          (.link (.protocol ("unexpected open frame for " ++ m.title))) true := rfl
    exact ⟨_, _, _, _, poll_terminates hsig rfl hturn nofun, rfl, rfl⟩
  | @sealed m e hopens =>
    have hturn : received .serve (listening secret).phase (h.atTime (clock n)) .request
        (.ok (some (.message m))) =
        terminate (.established secret) (h.atTime (clock n)) (.decrypt e) true := by
      simp only [received, receivedRequest, Link.inbound, phase, hopens]
      rfl
    exact ⟨_, _, _, _, poll_terminates hsig rfl hturn nofun, rfl, rfl⟩
  | failed hopens hdispatch =>
    have hsignal := Dispatch.signal_of_dispatch hdispatch
    exact ⟨_, _, _, _, poll_failed hsig hopens hdispatch, rfl, hsignal⟩
  | overlong hopens hdispatch hlong =>
    have hsignal := Dispatch.signal_of_dispatch hdispatch
    exact ⟨_, _, _, _, poll_closedlong hsig hopens hdispatch hlong, rfl, hsignal⟩

/-! ### Deliveries -/

/-- The frame that a station puts on the link. -/
def Station.frame? : Station → Option Frame
  | greeting key _ => some (.message key.bytes)
  | replying _ envelope => some (.message envelope)
  | closing last _ _ => some (Link.closingFrame last)
  | _ => none

/-- Where a station leads once its frame is on the link. -/
def Station.after : Station → Station
  | greeting _ secret => listening secret
  | replying secret _ => listening secret
  | closing _ result _ => closed result
  | st => st

theorem Station.said_of_frame {f : Frame} (hf : st.frame? = some f) : st.said = false := by
  cases st with
  | closed result => nomatch hf
  | _ => rfl

/-- **A frame is delivered as soon as there is room for it.** -/
theorem poll_delivers (hsig : h.signal.cancelled = false) {f : Frame} (hf : st.frame? = some f)
    (hroom : B.length < Queue.capacity) :
    (st.post F B gone h n).poll clock =
      st.after.post F (B ++ [f]) gone (h.atTime (clock n)) n := by
  have hnext (secret : Crypto.SharedSecret) : nextInbound (.established secret)
      (h.atTime (clock n)) = (listening secret).turn (h.atTime (clock n)) := by
    have hcancelled : (h.atTime (clock n)).signal.cancelled = false := hsig
    rw [nextInbound, hcancelled, if_neg Bool.false_ne_true]
    rfl
  cases st with
  | greeting key secret =>
    obtain rfl := Option.some.inj hf
    exact poll_deliver hsig rfl (Link.send_right hroom _ none) (hnext secret)
  | replying secret envelope =>
    obtain rfl := Option.some.inj hf
    exact poll_deliver hsig rfl (Link.send_right hroom _ none) (hnext secret)
  | closing last result watched =>
    obtain rfl := Option.some.inj hf
    exact poll_deliver hsig rfl (Link.finish_right hroom _ none) rfl
  | awaitingKey => nomatch hf
  | listening secret => nomatch hf
  | closed result => nomatch hf

theorem poll_delivers_full (hsig : h.signal.cancelled = false) {f : Frame} (hf : st.frame? = some f)
    (hroom : ¬B.length < Queue.capacity) :
    (st.post F B gone h n).poll clock = st.post F B gone h n := by
  cases st with
  | greeting key secret => exact poll_deliver_full hsig rfl (Link.send_right_full hroom _ none)
  | replying secret envelope => exact poll_deliver_full hsig rfl (Link.send_right_full hroom _ none)
  | closing last result watched =>
    exact poll_deliver_full hsig rfl (Link.finish_right_full hroom _ none)
  | awaitingKey => nomatch hf
  | listening secret => nomatch hf
  | closed result => nomatch hf

/-- A call that is over lets go of its end. -/
theorem poll_closed (result : Outcome) :
    ((closed result).post F B gone h n).poll clock = (closed result).post F B true h n := by
  change (⟨_, _, _, n + (F.length - F.length)⟩ : Post σ) = _
  rw [Nat.sub_self]
  rfl

/-- After a delivery the server waits for a frame, or lets go of its end. -/
theorem poll_after (hsig : h.signal.cancelled = false) {f : Frame} (hf : st.frame? = some f) :
    (st.after.post [] B gone h n).poll clock =
      st.after.post [] B (gone || st.after.said) h n := by
  cases st with
  | greeting key secret => exact (poll_receive_nil hsig rfl).trans (by rw [Bool.or_comm]; rfl)
  | replying secret envelope => exact (poll_receive_nil hsig rfl).trans (by rw [Bool.or_comm]; rfl)
  | closing last result watched => exact (poll_closed result).trans (by rw [Bool.or_comm]; rfl)
  | awaitingKey => nomatch hf
  | listening secret => nomatch hf
  | closed result => nomatch hf

end Polls

/-! ### What is left to do -/

/-- How much a server has in hand: a frame to put on the link, and its end of the link. -/
def load (st : Station) (gone : Bool) : ℕ :=
  (if st.frame?.isSome then 2 else 0) + (if gone then 0 else 1)

theorem load_le (st : Station) (gone : Bool) : load st gone ≤ 3 := by
  rw [load]
  split_ifs <;> simp

theorem one_le_load (st : Station) : 1 ≤ load st false := Nat.le_add_left _ _

theorem load_of_frame {st : Station} {f : Frame} (hf : st.frame? = some f) :
    load st false = 3 ∧ load st.after false = 1 := by
  cases st with
  | awaitingKey => nomatch hf
  | listening secret => nomatch hf
  | closed result => nomatch hf
  | _ => exact ⟨rfl, rfl⟩

/-- What is left to do on a link and for the server: a frame counts for more the farther it
has to go. -/
def Post.rank (p : Post σ) : ℕ :=
  3 * p.link.forth.backlog + p.link.back.backlog +
    ((match p.stop with
      | .waits { waiting := .deliver _, .. } => 2
      | _ => 0) +
    (match p.link.forth with
      | .queue { receiverGone := true, .. } => 0
      | _ => 1))

theorem rank_post (st : Station) (F B : List Frame) (gone : Bool) (h : Host σ) (n : ℕ) :
    (st.post F B gone h n).rank = 3 * F.length + B.length + load st gone := by
  cases st <;> cases gone <;> rfl

end Server

end Vault
