import Vault.Proofs.Link.Pipe
import Vault.Proofs.Session.Poll
import Vault.Proofs.Session.Station
import Vault.Session.Client

/-!
# One request over a stream of bytes

A client that has a session makes one request, and a server at the other end of a stream of
bytes serves it (`Vault.Duplex.start`, `Vault.Duplex.step`). Both are polled in any
order; at each of its polls the server finds a clock and a shutdown signal that may say
anything. For each thing that either of them may be doing there is one lemma that says what
a poll does.

What the server says first is settled the moment it has read the request
(`Vault.Duplex.Says`): its reply, if that is not too long for a frame; the reason why it is
too long; or the last frame of a session that ends.
-/

namespace Vault

variable {σ : Type}

/-! ### Links of pipes -/

/-- The bytes of a frame that are left to be written. -/
def Frame.Leaves (f : Frame) (rest : Option Bytes) (b : Bytes) : Prop :=
  rest = some b ∨ rest = none ∧ f.Fits ∧ b = f.onWire

theorem Frame.leaves_or_long (f : Frame) (rest : Option Bytes) :
    (∃ b, f.Leaves rest b) ∨ rest = none ∧ ¬f.Fits := by
  rcases rest with _ | b
  · by_cases hf : f.Fits
    · exact Or.inl ⟨_, Or.inr ⟨rfl, hf, rfl⟩⟩
    · exact Or.inr ⟨rfl, hf⟩
  · exact Or.inl ⟨b, Or.inl rfl⟩

namespace Link

/-- A link of pipes; `said` is whether the right end has said its last frame. -/
def pipes (p q : Pipe) (said : Bool) : Link := ⟨.pipe p, .pipe q, false, said⟩

variable {p q p' : Pipe} {said : Bool} {f : Frame} {rest : Option Bytes} {b : Bytes}

theorem receive_pipe {r : Frame.Reading}
    {x : Poll Frame.Reading (Except LinkError (Option Frame))} (h : p.read r = (p', x)) :
    (Lane.pipe p).receive r = (.pipe p', x) := by
  rw [Lane.receive, h]
  cases x <;> rfl

theorem receive_right_pipes {r : Frame.Reading}
    {x : Poll Frame.Reading (Except LinkError (Option Frame))} (h : p.read r = (p', x)) :
    (pipes p q said).receive .right r = (pipes p' q said, x) := by
  rw [receive, show (pipes p q said).into .right = .pipe p from rfl, receive_pipe h]
  rfl

theorem receive_left_pipes {r : Frame.Reading}
    {x : Poll Frame.Reading (Except LinkError (Option Frame))} (h : q.read r = (p', x)) :
    (pipes p q said).receive .left r = (pipes p p' said, x) := by
  rw [receive, show (pipes p q said).into .left = .pipe q from rfl, receive_pipe h]
  rfl

/-- What a try to write comes to, for someone who sends a frame. -/
def sent : Poll Bytes (Except LinkError Unit) → Poll (Option Bytes) (Except LinkError Unit)
  | .ready x => .ready x
  | .waiting b => .waiting (some b)

theorem send_pipe {x : Poll Bytes (Except LinkError Unit)} (hb : f.Leaves rest b)
    (h : p.write b = (p', x)) : (Lane.pipe p).send f rest = (.pipe p', sent x) := by
  rcases hb with rfl | ⟨rfl, hf, rfl⟩
  · simp only [Lane.send, h]
    cases x <;> rfl
  · simp only [Lane.send, Frame.encode_of_fits hf, h]
    cases x <;> rfl

theorem send_pipe_long (hf : ¬f.Fits) : (Lane.pipe p).send f none =
    (.pipe p, .ready (.error (.outboundTooLarge f.encodeBody.size Frame.maxLength))) := by
  simp only [Lane.send, Frame.encode_of_not_fits hf]

theorem send_left_pipes {x : Poll (Option Bytes) (Except LinkError Unit)}
    (h : (Lane.pipe p).send f rest = (.pipe p', x)) :
    (pipes p q said).send .left f rest = (pipes p' q said, x) := by
  simp only [send, done, outOf, pipes, h]
  rfl

theorem send_right_pipes {x : Poll (Option Bytes) (Except LinkError Unit)}
    (h : (Lane.pipe q).send f rest = (.pipe p', x)) :
    (pipes p q false).send .right f rest = (pipes p p' false, x) := by
  simp only [send, done, outOf, pipes, h]
  rfl

end Link

/-! ### A client and a server -/

/-- A client that has made a call and a server that serves, at the two ends of a link. -/
structure Duplex (σ : Type) where
  /-- The client's call, or what it came to. -/
  caller : Client.Running ⊕ Client.Outcome
  /-- The link. -/
  link : Link
  /-- Where the server's call has got to. -/
  stop : Server.Stop
  /-- The server's host. -/
  host : Host σ

namespace Duplex

/-- Who moves. -/
inductive Move where
  /-- The client is polled. -/
  | call
  /-- The server is polled, at this time and with the shutdown signal like this. -/
  | serve (t : Timestamp) (s : Signal)

/-- The client goes on, or its call is over. -/
def goesOn : Client.Next → Client.Running ⊕ Client.Outcome
  | .inl waiting => .inl { waiting }
  | .inr outcome => .inr outcome

variable [Store σ]

/-- One move: whoever is polled tries once to get past its wait. A server whose session is over
lets go of its end. -/
def step : Move → Duplex σ → Duplex σ
  | .call, w =>
    match w.caller with
    | .inr _ => w
    | .inl r =>
      match Client.attempt r w.link .left with
      | (link, .waiting r) => { w with caller := .inl r, link }
      | (link, .ready next) => { w with caller := goesOn next, link }
  | .serve t s, w =>
    match Server.poll t s w.stop w.link w.host with
    | (stop, link, host) => { w with link, stop, host }

omit [Store σ] in
/-- A client with a session has made a request, and the server listens. -/
def start (capacity : ℕ) (s : Client.Session) (e : Entropy) (r : Request) (h : Host σ) :
    Duplex σ where
  caller := goesOn (Client.start (.request s r) e).1
  link := .framed capacity
  stop := .waits { call := .serve, phase := .established s.secret, waiting := .receive .request }
  host := h

/-! ### Polls of the client -/

/-- What a client that waits for a response makes of what it receives. -/
def heard (secret : Crypto.SharedSecret) (x : Except LinkError (Option Frame)) : Client.Outcome :=
  match Link.inbound x with
  | .error e => .error (.link e)
  | .ok none => .error .closed
  | .ok (some b) => (Client.responded secret b).map .response

theorem received_response (secret : Crypto.SharedSecret) (x : Except LinkError (Option Frame)) :
    Client.received (.response secret) x = .inr (heard secret x) := by
  rw [Client.received, heard]
  rcases Link.inbound x with e | _ | b <;> rfl

section Calls

variable {p q p' : Pipe} {said : Bool} {stop : Server.Stop} {h : Host σ}
  {secret : Crypto.SharedSecret} {m b b' : Bytes} {rest : Option Bytes} {r r' : Frame.Reading}

/-- A client that sends its request. -/
def asking (secret : Crypto.SharedSecret) (m : Bytes) (rest : Option Bytes) :
    Client.Running ⊕ Client.Outcome :=
  .inl ⟨.deliver (.request secret m), {}, rest⟩

/-- A client that waits for the response. -/
def awaiting (secret : Crypto.SharedSecret) (r : Frame.Reading) :
    Client.Running ⊕ Client.Outcome :=
  .inl ⟨.receive (.response secret), r, none⟩

theorem call_sends {x : Except LinkError Unit} (hb : (Frame.message m).Leaves rest b)
    (hwrite : p.write b = (p', .ready x)) :
    step .call ⟨asking secret m rest, .pipes p q said, stop, h⟩ =
      ⟨goesOn (Client.delivered (.request secret m) x), .pipes p' q said, stop, h⟩ := by
  simp only [step, asking, Client.attempt, Client.Delivering.attempt,
    Link.send_left_pipes (Link.send_pipe hb hwrite), Link.sent]

theorem call_sends_part (hb : (Frame.message m).Leaves rest b)
    (hwrite : p.write b = (p', .waiting b')) :
    step .call ⟨asking secret m rest, .pipes p q said, stop, h⟩ =
      ⟨asking secret m (some b'), .pipes p' q said, stop, h⟩ := by
  simp only [step, asking, Client.attempt, Client.Delivering.attempt,
    Link.send_left_pipes (Link.send_pipe hb hwrite), Link.sent]

theorem call_sends_long (hm : ¬(Frame.message m).Fits) :
    step .call ⟨asking secret m none, .pipes p q said, stop, h⟩ =
      ⟨.inr (.error (.link (.outboundTooLarge (Frame.message m).encodeBody.size Frame.maxLength))),
        .pipes p q said, stop, h⟩ := by
  simp only [step, asking, Client.attempt, Client.Delivering.attempt,
    Link.send_left_pipes (Link.send_pipe_long hm)]
  rfl

theorem call_hears {x : Except LinkError (Option Frame)} (hread : q.read r = (p', .ready x)) :
    step .call ⟨awaiting secret r, .pipes p q said, stop, h⟩ =
      ⟨.inr (heard secret x), .pipes p p' said, stop, h⟩ := by
  simp only [step, awaiting, Client.attempt, Link.receive_left_pipes hread, received_response]
  rfl

theorem call_hears_part (hread : q.read r = (p', .waiting r')) :
    step .call ⟨awaiting secret r, .pipes p q said, stop, h⟩ =
      ⟨awaiting secret r', .pipes p p' said, stop, h⟩ := by
  simp only [step, awaiting, Client.attempt, Link.receive_left_pipes hread]

end Calls

/-! ### Polls of the server -/

/-- A server that reads a request. -/
def listening (secret : Crypto.SharedSecret) (r : Frame.Reading) : Server.Stop :=
  .waits ⟨.serve, .established secret, .receive .request, r, none⟩

/-- A server that delivers something. -/
def saying (phase : Server.Phase) (d : Server.Delivering) (rest : Option Bytes) : Server.Stop :=
  .waits ⟨.serve, phase, .deliver d, {}, rest⟩

/-- The frame of a delivery. -/
def frameOf : Server.Delivering → Frame
  | .key k _ => .message k.bytes
  | .reply envelope => .message envelope
  | .closing last _ _ => Link.closingFrame last

/-- The link after a delivery: the last frame closes its lane. -/
def linkAfter (p q : Pipe) : Server.Delivering → Link
  | .closing .. => .pipes p q.close true
  | _ => .pipes p q false

/-- The session ends because a reply is too long for a frame. -/
def overflowing (envelope : Bytes) : SessionError :=
  .link (.outboundTooLarge (Frame.message envelope).encodeBody.size Frame.maxLength)

theorem backlog_linkAfter (p q : Pipe) (d : Server.Delivering) :
    (linkAfter p q d).back.backlog = q.buffered.size := by
  cases d <;> rfl

section Serves

variable {c : Client.Running ⊕ Client.Outcome} {p q p' : Pipe} {said : Bool} {h : Host σ}
  {secret : Crypto.SharedSecret} {b b' : Bytes} {rest : Option Bytes} {r r' : Frame.Reading}
  {phase : Server.Phase} {d : Server.Delivering} {t : Timestamp} {s : Signal}

theorem step_serve {link link' : Link} {stop stop' : Server.Stop} {h' : Host σ}
    (hpoll : Server.poll t s stop link h = (stop', link', h')) :
    step (.serve t s) ⟨c, link, stop, h⟩ = ⟨c, link', stop', h'⟩ := by
  simp only [step, hpoll]

/-- The shutdown signal ends the wait for a request. -/
theorem serve_shut (hs : s.cancelled = true) (link : Link) :
    step (.serve t s) ⟨c, link, listening secret r, h⟩ =
      ⟨c, link, saying .terminated (.closing (.ok ()) (.ok .done) false) none,
        h.observing t s⟩ :=
  step_serve (Server.poll_interrupted
    (r := ⟨.serve, .established secret, .receive .request, r, none⟩) rfl hs link h)

theorem serve_reads (hs : s.cancelled = false) {x : Except LinkError (Option Frame)}
    (hread : p.read r = (p', .ready x)) {turn : Server.Turn σ}
    (hturn : Server.received .serve (.established secret) (h.observing t s) .request x = turn) :
    step (.serve t s) ⟨c, .pipes p q said, listening secret r, h⟩ =
      ⟨c, .pipes p' q said, turn.stop .serve, turn.host⟩ := by
  have hcalm : (Server.watched .serve (.receive .request) && s.cancelled) = false := hs
  exact step_serve (Server.poll_received hcalm (Link.receive_right_pipes hread) hturn)

theorem serve_reads_part (hs : s.cancelled = false) (hread : p.read r = (p', .waiting r')) :
    step (.serve t s) ⟨c, .pipes p q said, listening secret r, h⟩ =
      ⟨c, .pipes p' q said, listening secret r', h⟩ :=
  step_serve (Server.poll_receiving hs (Link.receive_right_pipes hread))

/-- All of a frame is written. -/
theorem attempt_writes (hb : (frameOf d).Leaves rest b)
    (hwrite : q.write b = (p', .ready (.ok ()))) :
    d.attempt (.pipes p q false) .right rest = (linkAfter p p' d, .ready (.ok ())) := by
  have hsend := Link.send_right_pipes (p := p) (Link.send_pipe hb hwrite)
  cases d with
  | key k secret => exact hsend
  | reply envelope => exact hsend
  | closing last result watched =>
    simp only [frameOf] at hsend
    simp only [Server.Delivering.attempt, Link.finish, hsend]
    rfl

/-- Part of a frame is written. -/
theorem attempt_writes_part (hb : (frameOf d).Leaves rest b)
    (hwrite : q.write b = (p', .waiting b')) :
    d.attempt (.pipes p q false) .right rest = (.pipes p p' false, .waiting (some b')) := by
  have hsend := Link.send_right_pipes (p := p) (Link.send_pipe hb hwrite)
  cases d with
  | key k secret => exact hsend
  | reply envelope => exact hsend
  | closing last result watched =>
    simp only [frameOf] at hsend
    simp only [Server.Delivering.attempt, Link.finish, hsend]
    rfl

theorem serve_writes (hs : (Server.watched .serve (.deliver d) && s.cancelled) = false)
    (hb : (frameOf d).Leaves rest b) (hwrite : q.write b = (p', .ready (.ok ())))
    {turn : Server.Turn σ}
    (hturn : Server.delivered .serve phase (h.observing t s) d (.ok ()) = turn) :
    step (.serve t s) ⟨c, .pipes p q false, saying phase d rest, h⟩ =
      ⟨c, linkAfter p p' d, turn.stop .serve, turn.host⟩ :=
  step_serve (Server.poll_delivered hs (attempt_writes hb hwrite) hturn)

theorem serve_writes_part (hs : (Server.watched .serve (.deliver d) && s.cancelled) = false)
    (hb : (frameOf d).Leaves rest b) (hwrite : q.write b = (p', .waiting b')) :
    step (.serve t s) ⟨c, .pipes p q false, saying phase d rest, h⟩ =
      ⟨c, .pipes p p' false, saying phase d (some b'), h⟩ :=
  step_serve (Server.poll_delivering hs (attempt_writes_part hb hwrite))

/-- A reply that is too long for a frame ends the session. -/
theorem serve_writes_long {envelope : Bytes} (hlong : ¬(Frame.message envelope).Fits) :
    step (.serve t s)
        ⟨c, .pipes p q false, saying (.established secret) (.reply envelope) none, h⟩ =
      ⟨c, .pipes p q false,
        saying .terminated (.closing (.error (overflowing envelope).toStatus)
          (.error (overflowing envelope)) false) none,
        (h.observing t s).recordStatus (overflowing envelope).toStatus⟩ := by
  have hattempt : (Server.Delivering.reply envelope).attempt (.pipes p q false) .right none = _ :=
    Link.send_right_pipes (Link.send_pipe_long hlong)
  exact step_serve (Server.poll_delivered rfl hattempt rfl)

end Serves

/-! ### What the server says -/

section Says

variable (secret : Crypto.SharedSecret) (plain : Bytes) (h : Host σ)

/-- What the server does with a request that has arrived and opened. -/
def taking : Server.Turn σ := Server.opened .serve (.established secret) h plain

/-- **What the server says** when it turns to say something, and the store it has then. -/
inductive Speaks : Server.Turn σ → Frame → σ → Prop
  /-- A reply. -/
  | reply {phase : Server.Phase} {h : Host σ} {envelope : Bytes}
    (hfits : (Frame.message envelope).Fits) :
    Speaks ⟨phase, h, .inl (.deliver (.reply envelope))⟩ (.message envelope) h.store
  /-- A reply is too long for a frame, and this is said instead. -/
  | overflow {phase : Server.Phase} {h : Host σ} {envelope : Bytes}
    (hlong : ¬(Frame.message envelope).Fits) :
    Speaks ⟨phase, h, .inl (.deliver (.reply envelope))⟩
      (.abort (overflowing envelope).toStatus) h.store
  /-- The session ends. -/
  | last {phase : Server.Phase} {h : Host σ} {last : Except Status Unit}
    {result : Server.Outcome} {watched : Bool} :
    Speaks ⟨phase, h, .inl (.deliver (.closing last result watched))⟩ (Link.closingFrame last)
      h.store

/-- **What the server says first** once it has a request, and the store that the request
leaves. -/
def Says (f : Frame) (store : σ) : Prop :=
  ∃ t s, Speaks (taking secret plain (h.observing t s)) f store

/-- A request is answered, or it ends the session. -/
theorem taking_cases :
    (∃ h' envelope, taking secret plain h =
      ⟨.established secret, h', .inl (.deliver (.reply envelope))⟩) ∨
    ∃ h' last result, taking secret plain h =
      ⟨.terminated, h', .inl (.deliver (.closing last result false))⟩ := by
  have hphase : (Server.Phase.established secret).name ≠ .terminated := by simp
  simp only [taking, Server.opened]
  rcases Dispatch.dispatch plain h with ⟨status | response, h'⟩
  · exact Or.inr ⟨_, _, _, Server.terminate_eq hphase h' (.status status) false⟩
  · simp only [Server.reply_established]
    rcases Crypto.Envelope.sealFresh secret (Wire.encodeResponse response) h'.entropy with
      ⟨err | envelope, e⟩
    · exact Or.inr
        ⟨_, _, _, Server.terminate_eq hphase { h' with entropy := e } (.crypto err) false⟩
    · exact Or.inl ⟨_, _, rfl⟩

variable {secret plain} in
theorem received_request {m : Bytes} (hopens : Crypto.Envelope.reveal secret m = .ok plain) :
    Server.received .serve (.established secret) h .request (.ok (some (.message m))) =
      taking secret plain h := by
  simp only [Server.received, Server.receivedRequest, Link.inbound, hopens, taking]

end Says

end Duplex

end Vault
