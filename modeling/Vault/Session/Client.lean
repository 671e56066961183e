import Vault.Crypto.Envelope
import Vault.Link
import Vault.Session.Error

/-!
# The client's side of a session

A client sends its key, reads the server's, and has a session: a shared secret and the
server's key. On a session it sends and receives messages in envelopes; a request is a
message and the response to it.

Like the server's side it is a machine, with a wait between one exchange with the link
and the next. Only the start of a call draws random bytes.
-/

namespace Vault.Client

/-- A session as the client has it. -/
structure Session where
  /-- The shared secret. -/
  secret : Crypto.SharedSecret
  /-- The server's key. -/
  serverKey : Crypto.PublicKey

/-- What a client can do on its end of a link. -/
inductive Call where
  /-- Exchange keys. -/
  | connect
  /-- Send a message. -/
  | send (s : Session) (plain : Bytes)
  /-- Receive a message. -/
  | receive (s : Session)
  /-- Send a request and receive the response. -/
  | request (s : Session) (r : Request)
  /-- Say the last frame and wait for the server's. -/
  | close

/-- What a call that succeeds comes to. -/
inductive Answer where
  /-- A session. -/
  | connected (s : Session)
  /-- The message is sent. -/
  | sent
  /-- A message, or the end of the stream. -/
  | message (plain : Option Bytes)
  /-- The response to a request. -/
  | response (r : Response)
  /-- Both sides have said their last frame. -/
  | closed

/-- What a call comes to. -/
abbrev Outcome := Except SessionError Answer

/-- What is to be received. -/
inductive Receiving where
  /-- The server's key. -/
  | serverKey (pair : Crypto.KeyPair)
  /-- A message. -/
  | message (secret : Crypto.SharedSecret)
  /-- The response to a request. -/
  | response (secret : Crypto.SharedSecret)
  /-- The server's last frame. -/
  | last

/-- What is to be delivered. -/
inductive Delivering where
  /-- The client's key. -/
  | key (pair : Crypto.KeyPair)
  /-- An envelope. -/
  | message (envelope : Bytes)
  /-- The envelope of a request. -/
  | request (secret : Crypto.SharedSecret) (envelope : Bytes)
  /-- The last frame. -/
  | last

/-- What a call waits for. -/
inductive Waiting where
  /-- Something to be received. -/
  | receive (r : Receiving)
  /-- Something to be delivered. -/
  | deliver (d : Delivering)

/-- Where a call has got to. -/
abbrev Next := Waiting ⊕ Outcome

/-! ### The machine -/

/-- Seal a message and deliver it. -/
def sealed (secret : Crypto.SharedSecret) (plain : Bytes) (deliver : Bytes → Delivering)
    (e : Entropy) : Next × Entropy :=
  match Crypto.Envelope.sealFresh secret plain e with
  | (.ok envelope, e) => (.inl (.deliver (deliver envelope)), e)
  | (.error err, e) => (.inr (.error (.crypto err)), e)

/-- Start a call. -/
def start (call : Call) (e : Entropy) : Next × Entropy :=
  match call with
  | .connect =>
    let (pair, e) := Crypto.KeyPair.generate e
    (.inl (.deliver (.key pair)), e)
  | .send s plain => sealed s.secret plain .message e
  | .receive s => (.inl (.receive (.message s.secret)), e)
  | .request s r => sealed s.secret (Wire.encodeRequest r) (.request s.secret) e
  | .close => (.inl (.deliver .last), e)

/-- The session that the server's key leads to. -/
def connected (pair : Crypto.KeyPair) (reply : Bytes) : Except SessionError Session :=
  match Crypto.PublicKey.ofBytes reply with
  | .error e => .error (.invalidPeerKey e)
  | .ok serverKey =>
    match pair.agree serverKey with
    | .error e => .error (.invalidPeerKey e)
    | .ok secret => .ok ⟨secret, serverKey⟩

/-- Open an envelope. -/
def opened (secret : Crypto.SharedSecret) (envelope : Bytes) : Except SessionError Bytes :=
  match Crypto.Envelope.reveal secret envelope with
  | .ok plain => .ok plain
  | .error e => .error (.decrypt e)

/-- The response in an envelope. -/
def responded (secret : Crypto.SharedSecret) (envelope : Bytes) : Except SessionError Response :=
  match opened secret envelope with
  | .error e => .error e
  | .ok plain =>
    match Wire.decodeResponse plain with
    | .ok r => .ok r
    | .error e => .error (.codec (.decoding e.message))

/-- What was waited for has arrived. -/
def received (r : Receiving) (x : Except LinkError (Option Frame)) : Next :=
  match Link.inbound x with
  | .error e => .inr (.error (.link e))
  | .ok none =>
    match r with
    | .serverKey _ => .inr (.error (.handshake "server closed before sending its key"))
    | .message _ => .inr (.ok (.message none))
    | .response _ => .inr (.error .closed)
    | .last => .inr (.ok .closed)
  | .ok (some b) =>
    match r with
    | .serverKey pair => .inr ((connected pair b).map .connected)
    | .message secret => .inr ((opened secret b).map fun plain => .message (some plain))
    | .response secret => .inr ((responded secret b).map .response)
    | .last => .inl (.receive .last)

/-- What was to be delivered has been, or could not be. -/
def delivered (d : Delivering) (x : Except LinkError Unit) : Next :=
  match x with
  | .error e => .inr (.error (.link e))
  | .ok _ =>
    match d with
    | .key pair => .inl (.receive (.serverKey pair))
    | .message _ => .inr (.ok .sent)
    | .request secret _ => .inl (.receive (.response secret))
    | .last => .inl (.receive .last)

/-! ### What a response should be -/

/-- The complaint about a response of the wrong kind. -/
def unexpected (wanted : String) (r : Response) : SessionError :=
  .unexpectedResponse ("wanted " ++ wanted ++ ", got " ++ r.tag)

/-- The document in a response. -/
def documentIn : Response → Except SessionError Document
  | .document d => .ok d
  | .error s => .error (.status s)
  | r => .error (unexpected "document" r)

/-- The documents in a response. -/
def documentsIn : Response → Except SessionError (List Document)
  | .documents ds => .ok ds
  | .error s => .error (.status s)
  | r => .error (unexpected "documents" r)

/-! ### Running on a link -/

/-- A call that is waiting, and how far its wait has come. -/
structure Running where
  /-- What it waits for. -/
  waiting : Waiting
  /-- The bytes taken of a frame that is arriving. -/
  reading : Frame.Reading := {}
  /-- The bytes left of a frame that is leaving. -/
  rest : Option Bytes := none

/-- Try to deliver something. -/
def Delivering.attempt (d : Delivering) (link : Link) (side : Side) (rest : Option Bytes) :
    Link × Poll (Option Bytes) (Except LinkError Unit) :=
  match d with
  | .key pair => link.send side (.message pair.publicKey.bytes) rest
  | .message envelope => link.send side (.message envelope) rest
  | .request _ envelope => link.send side (.message envelope) rest
  | .last => link.finish side (.ok ()) rest

/-- Try once to get past a wait. -/
def attempt (r : Running) (link : Link) (side : Side) : Link × Poll Running Next :=
  match r.waiting with
  | .receive what =>
    match link.receive side r.reading with
    | (link, .ready x) => (link, .ready (received what x))
    | (link, .waiting reading) => (link, .waiting { r with reading })
  | .deliver what =>
    match what.attempt link side r.rest with
    | (link, .ready x) => (link, .ready (delivered what x))
    | (link, .waiting rest) => (link, .waiting { r with rest })

/-- Run on until the call waits for good or is over, for at most `fuel` waits. -/
def runOn (side : Side) : Nat → Running → Link → Link × Poll Running Outcome
  | 0, r, link => (link, .waiting r)
  | fuel + 1, r, link =>
    match attempt r link side with
    | (link, .waiting r) => (link, .waiting r)
    | (link, .ready (.inr result)) => (link, .ready result)
    | (link, .ready (.inl waiting)) => runOn side fuel { waiting } link

/-- Take up a call that waits. Every reception takes something off the link, so what is on
it and a few more bound the waits. -/
def resume (r : Running) (side : Side) (link : Link) : Link × Poll Running Outcome :=
  runOn side ((link.into side).backlog + 4) r link

end Vault.Client
