import Vault.Crypto.Envelope
import Vault.Dispatch
import Vault.Link
import Vault.Session.Error

/-!
# The server's side of a session

A session begins with the exchange of public keys and goes on with envelopes, until one
side is done or something goes wrong; then the server says why and the session is over.

The server's side is a machine. Where the session stands is its **phase**. A **call**
starts it (`Vault.Server.start`), and it runs until it waits for its end of the link:
to receive something or to deliver something. What comes of that is handed back
(`Vault.Server.received`, `Vault.Server.delivered`), and it runs on. While a call that
serves requests waits for the next one, the shutdown signal ends it
(`Vault.Server.interrupted`).
-/

namespace Vault.Server

variable {σ : Type}

/-- Where a session stands: its state, and the secret it shares with the peer. The two are
set apart from each other; that there is a secret exactly while the session is established
is for the proofs to say. -/
structure Phase where
  /-- The state. -/
  name : PhaseName
  /-- The shared secret, once the keys are exchanged. -/
  shared : Option Crypto.SharedSecret

namespace Phase

/-- Waiting for the peer's key. -/
@[match_pattern] abbrev awaitingPeerKey : Phase := ⟨.awaitingPeerKey, none⟩

/-- The peer's key is here, the reply is under way. -/
@[match_pattern] abbrev handshaking : Phase := ⟨.handshaking, none⟩

/-- Both keys are exchanged. -/
@[match_pattern] abbrev established (secret : Crypto.SharedSecret) : Phase :=
  ⟨.established, some secret⟩

/-- The session is over, and its secret is gone. -/
@[match_pattern] abbrev terminated : Phase := ⟨.terminated, none⟩

end Phase

/-- What a session can be asked to do. -/
inductive Call where
  /-- Exchange keys. -/
  | accept
  /-- Receive and open one envelope. -/
  | nextRequest
  /-- Seal and send one message. -/
  | respond (plain : Bytes)
  /-- Answer requests until the session is over. -/
  | serve
  /-- Return every message until the session is over. -/
  | echo
  deriving DecidableEq

/-- Whether a call goes on until the session is over. -/
def Call.loops : Call → Bool
  | serve => true
  | echo => true
  | _ => false

/-- What a call that succeeds comes to. -/
inductive Answer where
  /-- It is done. -/
  | done
  /-- A message, or the end of the stream. -/
  | request (plain : Option Bytes)
  deriving DecidableEq

/-- What a call comes to. -/
abbrev Outcome := Except SessionError Answer

/-- What is to be received. -/
inductive Receiving where
  /-- The peer's key. -/
  | peerKey
  /-- An envelope. -/
  | request
  deriving DecidableEq

/-- What is to be delivered. -/
inductive Delivering where
  /-- The server's key; afterwards the secret is shared. -/
  | key (key : Crypto.PublicKey) (secret : Crypto.SharedSecret)
  /-- The envelope of a reply. -/
  | reply (envelope : Bytes)
  /-- The last frame, and what the call comes to after it. It is `watched` if the shutdown
  signal ends the wait for it. -/
  | closing (last : Except Status Unit) (result : Outcome) (watched : Bool)

/-- What a call waits for. -/
inductive Waiting where
  /-- Something to be received. -/
  | receive (r : Receiving)
  /-- Something to be delivered. -/
  | deliver (d : Delivering)

/-- Where a call has got to: a wait or its outcome. -/
structure Turn (σ : Type) where
  /-- Where the session stands. -/
  phase : Phase
  /-- The host, after what was done on it. -/
  host : Host σ
  /-- What comes next. -/
  next : Waiting ⊕ Outcome

/-! ### The end of a session -/

/-- Say the last frame, unless the session is over already. -/
def close (phase : Phase) (host : Host σ) (last : Except Status Unit) (result : Outcome)
    (watched : Bool) : Turn σ :=
  match phase.name with
  | .terminated => ⟨phase, host, .inr result⟩
  | _ => ⟨.terminated, host, .inl (.deliver (.closing last result watched))⟩

theorem close_of_over {phase : Phase} (hphase : phase.name = .terminated) (host : Host σ)
    (last : Except Status Unit) (result : Outcome) (watched : Bool) :
    close phase host last result watched = ⟨phase, host, .inr result⟩ := by
  rw [close, hphase]

theorem close_of_open {phase : Phase} (hphase : phase.name ≠ .terminated) (host : Host σ)
    (last : Except Status Unit) (result : Outcome) (watched : Bool) :
    close phase host last result watched =
      ⟨.terminated, host, .inl (.deliver (.closing last result watched))⟩ := by
  obtain ⟨name, shared⟩ := phase
  cases name with
  | terminated => exact absurd rfl hphase
  | _ => rfl

/-- End the session because of a failure. Statuses of requests were logged before. -/
def terminate (phase : Phase) (host : Host σ) (e : SessionError) (watched : Bool) : Turn σ :=
  let s := e.toStatus
  let host := match e with
    | .status _ => host
    | _ => host.recordStatus s
  close phase host (.error s) (.error e) watched

/-- A call in the wrong phase. -/
def refuse (phase : Phase) (host : Host σ) (expected : PhaseName) : Turn σ :=
  ⟨phase, host, .inr (.error (.invalidState expected phase.name))⟩

/-! ### Running on -/

/-- Wait for the next envelope, or end the session if the shutdown signal is raised. -/
def nextInbound (phase : Phase) (host : Host σ) : Turn σ :=
  if host.signal.cancelled then close phase host (.ok ()) (.ok .done) false
  else
    match phase.name with
    | .established => ⟨phase, host, .inl (.receive .request)⟩
    | _ => refuse phase host .established

/-- Seal and send a message. -/
def reply (phase : Phase) (host : Host σ) (plain : Bytes) : Turn σ :=
  match phase.name, phase.shared with
  | .established, some secret =>
    match Crypto.Envelope.sealFresh secret plain host.entropy with
    | (.ok envelope, entropy) =>
      ⟨phase, { host with entropy }, .inl (.deliver (.reply envelope))⟩
    | (.error e, entropy) => terminate phase { host with entropy } (.crypto e) false
  | _, _ => refuse phase host .established

theorem reply_established (secret : Crypto.SharedSecret) (host : Host σ) (plain : Bytes) :
    reply (.established secret) host plain =
      match Crypto.Envelope.sealFresh secret plain host.entropy with
      | (.ok envelope, entropy) =>
        ⟨.established secret, { host with entropy }, .inl (.deliver (.reply envelope))⟩
      | (.error e, entropy) =>
        terminate (.established secret) { host with entropy } (.crypto e) false := rfl

/-- The keys are exchanged, or a reply is sent. -/
def proceed (call : Call) (phase : Phase) (host : Host σ) : Turn σ :=
  if call.loops then nextInbound phase host else ⟨phase, host, .inr (.ok .done)⟩

/-- The peer's key has arrived. The server draws its own key before it looks at it. -/
def handshake (phase : Phase) (host : Host σ) (peer : Bytes) : Turn σ :=
  let phase := { phase with name := .handshaking }
  let (pair, entropy) := Crypto.KeyPair.generate host.entropy
  let host := { host with entropy }
  match Crypto.PublicKey.ofBytes peer with
  | .error e => terminate phase host (.invalidPeerKey e) false
  | .ok peer =>
    match pair.agree peer with
    | .error e => terminate phase host (.invalidPeerKey e) false
    | .ok secret => ⟨phase, host, .inl (.deliver (.key pair.publicKey secret))⟩

variable [Store σ]

/-- A message has been opened. -/
def opened (call : Call) (phase : Phase) (host : Host σ) (plain : Bytes) : Turn σ :=
  match call with
  | .serve =>
    match Dispatch.dispatch plain host with
    | (.ok response, host) => reply phase host (Wire.encodeResponse response)
    | (.error s, host) => terminate phase host (.status s) false
  | .echo => reply phase host plain
  | _ => ⟨phase, host, .inr (.ok (.request (some plain)))⟩

/-! ### The machine -/

/-- Start a call. -/
def start (call : Call) (phase : Phase) (host : Host σ) : Turn σ :=
  match call, phase.name with
  | .accept, .awaitingPeerKey => ⟨phase, host, .inl (.receive .peerKey)⟩
  | .accept, _ => refuse phase host .awaitingPeerKey
  | .nextRequest, .established => ⟨phase, host, .inl (.receive .request)⟩
  | .nextRequest, _ => refuse phase host .established
  | .respond plain, _ => reply phase host plain
  | _, .awaitingPeerKey => ⟨phase, host, .inl (.receive .peerKey)⟩
  | _, _ => nextInbound phase host

/-- The first message has arrived, or something in its place. -/
def receivedKey (phase : Phase) (host : Host σ) (x : Except LinkError (Option Bytes)) : Turn σ :=
  match x with
  | .ok (some peer) => handshake phase host peer
  | .ok none =>
    terminate phase host (.handshake "stream closed before the peer key arrived") false
  | .error (.remote s) => terminate phase host (.link (.remote s)) false
  | .error e =>
    terminate phase host (.handshake ("reading initial message: " ++ e.message)) false

/-- An envelope has arrived, or something in its place. -/
def receivedRequest (call : Call) (phase : Phase) (host : Host σ)
    (x : Except LinkError (Option Bytes)) : Turn σ :=
  match x with
  | .ok (some envelope) =>
    match phase.shared with
    | some secret =>
      match Crypto.Envelope.reveal secret envelope with
      | .ok plain => opened call phase host plain
      | .error e => terminate phase host (.decrypt e) call.loops
    | none => refuse phase host .established
  | .ok none =>
    close phase host (.ok ()) (.ok (if call.loops then .done else .request none)) call.loops
  | .error e => terminate phase host (.link e) call.loops

/-- What was waited for has arrived. -/
def received (call : Call) (phase : Phase) (host : Host σ) (r : Receiving)
    (x : Except LinkError (Option Frame)) : Turn σ :=
  match r with
  | .peerKey => receivedKey phase host (Link.inbound x)
  | .request => receivedRequest call phase host (Link.inbound x)

/-- What was to be delivered has been, or could not be. The last frame may get lost. -/
def delivered (call : Call) (phase : Phase) (host : Host σ) (d : Delivering)
    (x : Except LinkError Unit) : Turn σ :=
  match d, x with
  | .key _ secret, .ok _ => proceed call (.established secret) host
  | .reply _, .ok _ => proceed call phase host
  | .closing _ result _, _ => ⟨phase, host, .inr result⟩
  | _, .error e => terminate phase host (.link e) false

/-- Whether the shutdown signal ends a wait. -/
def watched (call : Call) : Waiting → Bool
  | .receive .request => call.loops
  | .deliver (.closing _ _ watched) => watched
  | _ => false

/-- The shutdown signal ends a wait. -/
def interrupted (phase : Phase) (host : Host σ) : Turn σ :=
  close phase host (.ok ()) (.ok .done) false

/-! ### Running on a link -/

/-- A call that is waiting, and how far its wait has come. -/
structure Running where
  /-- The call. -/
  call : Call
  /-- Where the session stands. -/
  phase : Phase
  /-- What it waits for. -/
  waiting : Waiting
  /-- The bytes taken of a frame that is arriving. -/
  reading : Frame.Reading := {}
  /-- The bytes left of a frame that is leaving. -/
  rest : Option Bytes := none

/-- Try to deliver something. -/
def Delivering.attempt (d : Delivering) (link : Link) (side : Side) (rest : Option Bytes) :
    Link × Poll (Option Bytes) (Except LinkError Unit) :=
  match d with
  | .key k _ => link.send side (.message k.bytes) rest
  | .reply envelope => link.send side (.message envelope) rest
  | .closing last _ _ => link.finish side last rest

/-- Try once to get past a wait. -/
def attempt (r : Running) (link : Link) (side : Side) (host : Host σ) :
    Link × Poll Running (Turn σ) :=
  if watched r.call r.waiting && host.signal.cancelled then
    (link, .ready (interrupted r.phase host))
  else
    match r.waiting with
    | .receive what =>
      match link.receive side r.reading with
      | (link, .ready x) => (link, .ready (received r.call r.phase host what x))
      | (link, .waiting reading) => (link, .waiting { r with reading })
    | .deliver what =>
      match what.attempt link side r.rest with
      | (link, .ready x) => (link, .ready (delivered r.call r.phase host what x))
      | (link, .waiting rest) => (link, .waiting { r with rest })

/-- How a run ends: it waits, or the call is over. -/
inductive Stop where
  /-- The call waits. -/
  | waits (r : Running)
  /-- The call is over. -/
  | ends (phase : Phase) (result : Outcome)

/-- Where a session stands after a run. -/
def Stop.phase : Stop → Phase
  | waits r => r.phase
  | ends phase _ => phase

/-- Run on from a turn until the call waits for good or is over, for at most `fuel` waits. -/
def runTurn (call : Call) (side : Side) : Nat → Turn σ → Link → Stop × Link × Host σ
  | fuel, t, link =>
    match t.next with
    | .inr result => (.ends t.phase result, link, t.host)
    | .inl waiting =>
      let r : Running := { call, phase := t.phase, waiting }
      match fuel with
      | 0 => (.waits r, link, t.host)
      | fuel + 1 =>
        match attempt r link side t.host with
        | (link, .waiting r) => (.waits r, link, t.host)
        | (link, .ready t) => runTurn call side fuel t link

/-- How many waits a run can get past at most: between two receptions there is no more than
one delivery, every reception takes something off the link, and the last ones end the
session. -/
def patience (link : Link) (side : Side) : Nat :=
  2 * (link.into side).backlog + 8

/-- Start a call and run it until it waits or is over. -/
def run (call : Call) (side : Side) (phase : Phase) (link : Link) (host : Host σ) :
    Stop × Link × Host σ :=
  runTurn call side (patience link side) (start call phase host) link

/-- Take up a call that waits. -/
def resume (r : Running) (side : Side) (link : Link) (host : Host σ) : Stop × Link × Host σ :=
  match attempt r link side host with
  | (link, .waiting r) => (.waits r, link, host)
  | (link, .ready t) => runTurn r.call side (patience link side) t link

end Vault.Server
