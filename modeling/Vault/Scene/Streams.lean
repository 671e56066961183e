import Vault.Scene.Basic

/-!
# Ends worked by hand

Links are opened here, and one of their ends can be worked by hand: frames and bytes are
written and read on it, and the part of a session is played step by step, with a key
pair, a secret and envelopes that may be damaged before they are sent.
-/

namespace Vault.Scene

/-- What comes of something that fails with the link or not at all. -/
def ofLink : Option (Except LinkError Unit) → Answer
  | none => .pending
  | some (.ok _) => .done
  | some (.error e) => .failed (.link e)

/-- The end of a name. -/
def place? (s : Scene) : EndName → Option Place
  | .peer => s.peer
  | .near => s.near

/-- The scene without the end of a name. -/
def without (s : Scene) : EndName → Scene
  | .peer => { s with peer := none }
  | .near => { s with near := none }

/-- Do something at the end of a name. -/
def atEnd (s : Scene) (e : EndName) (f : Scene → Place → Scene × Answer) : Scene × Answer :=
  match s.place? e with
  | none => (s, .refused .noStream)
  | some p => f s p

/-! ### Links -/

/-- A new link of a make. -/
def linkOf : Make → Link
  | .queues => .inMemory
  | .pipes capacity => .framed capacity

/-- Put somebody at the near end of a new link. Whoever had that part before lets go of
their end. -/
def takePart (s : Scene) (p : Place) : Role → Scene
  | .raw => { s.leave? s.near with near := some p }
  | .server => { s.leave? (s.server.map (·.1)) with server := some (p, .awaitingPeerKey) }
  | .service =>
    let (s, i) := s.addTask ⟨p, .connection .fresh⟩
    { s with service := some i }

/-- Open a link. -/
def openLink (s : Scene) (make : Make) (role : Role) : Scene :=
  let (s, far, near) := (s.leave? s.peer).addLink (linkOf make)
  { s with peer := some far }.takePart near role

/-! ### Frames and bytes -/

/-- Receive a message at an end. -/
def receiveMessage (s : Scene) (p : Place) : Scene × Option (Except LinkError (Option Bytes)) :=
  let (s, r) := s.receiveAt p
  (s, r.map Link.inbound)

/-- Receive a message. -/
def receive (s : Scene) (p : Place) : Scene × Answer :=
  match s.receiveMessage p with
  | (s, none) => (s, .pending)
  | (s, some (.ok b)) => (s, .message b)
  | (s, some (.error e)) => (s, .failed (.link e))

/-- Receive a frame. -/
def readFrame (s : Scene) (p : Place) : Scene × Answer :=
  match s.receiveAt p with
  | (s, none) => (s, .pending)
  | (s, some (.ok f)) => (s, .frame f)
  | (s, some (.error e)) => (s, .failed (.link e))

/-- Say the last frame. -/
def finish (s : Scene) (p : Place) (last : Except Status Unit) : Scene × Answer :=
  let (s, r) := s.tryOn p (fun rest link side => link.finish side last rest) none
  (s, ofLink r)

/-- Write bytes into the lane out of an end, whatever it has said before. -/
def writeLane (b : Bytes) (link : Link) (side : Side) :
    Link × Poll Bytes (Except LinkError Unit) :=
  match link.outOf side with
  | .queue q => (link.setOut side (.queue q), .ready (.error .closed))
  | .pipe p =>
    let (p, r) := p.write b
    (link.setOut side (.pipe p), r)

/-- Write bytes, and perhaps close the lane after them. -/
def writeRaw (s : Scene) (p : Place) (b : Bytes) (halfClose : Bool) : Scene × Answer :=
  match s.tryOn p writeLane b with
  | (s, some (.ok _)) =>
    if halfClose then
      s.onLink p fun link side => (link.setOut side (link.outOf side).dropSender, .done)
    else (s, .done)
  | (s, r) => (s, ofLink r)

/-! ### A session by hand -/

/-- The key pair of a blob, or a new one. -/
def pairOf (s : Scene) : Option Bytes → Except Crypto.Error Crypto.KeyPair × Scene
  | some blob => (Crypto.KeyPair.ofBlob blob, s)
  | none =>
    let (pair, entropy) := Crypto.KeyPair.generate s.host.entropy
    (.ok pair, { s with host := { s.host with entropy } })

/-- Send a key. -/
def sendKey (s : Scene) (e : EndName) (blob : Option Bytes) : Scene × Answer :=
  match s.pairOf blob with
  | (.error err, s) => (s, .failed (.crypto err))
  | (.ok pair, s) =>
    atEnd { s with pair := some pair } e fun s p =>
      match s.sendFrom p (.message pair.publicKey.bytes) with
      | (s, some (.ok _)) => (s, .bytes pair.publicKey.bytes)
      | (s, r) => (s, ofLink r)

/-- Agree on a secret with the owner of a key. -/
def agreeWith (s : Scene) (pair : Crypto.KeyPair) (peer : Bytes) : Scene × Answer :=
  match Crypto.PublicKey.ofBytes peer with
  | .error e => (s, .failed (.crypto e))
  | .ok key =>
    match pair.agree key with
    | .error e => (s, .failed (.crypto e))
    | .ok secret => ({ s with secret := some secret }, .derived peer secret)

/-- Receive a key and agree on a secret. -/
def derive (s : Scene) (p : Place) : Scene × Answer :=
  match s.pair with
  | none => (s, .refused .noKey)
  | some pair =>
    match s.receiveMessage p with
    | (s, some (.ok (some peer))) => s.agreeWith pair peer
    | (s, some (.ok none)) => (s, .message none)
    | (s, some (.error e)) => (s, .failed (.link e))
    | (s, none) => (s, .pending)

/-- Change bits of the byte at a position, which is counted from the end if negative. -/
def flipAt (b : Bytes) (position : Int) (bits : UInt8) : Bytes :=
  let i := if position < 0 then b.size + position else position
  if h : i.toNat < b.size then
    if 0 ≤ i then b.set i.toNat (b[i.toNat] ^^^ bits) h else b
  else b

/-- Damage an envelope. -/
def Damage.apply (d : Damage) (b : Bytes) : Bytes :=
  let b := match d.flip with
    | some (i, bits) => flipAt b i bits
    | none => b
  match d.keep with
  | some n => Bytes.take b n
  | none => b

/-- Seal a message, damage the envelope and send it. -/
def sendSealed (s : Scene) (e : EndName) (plain : Bytes) (damage : Damage) : Scene × Answer :=
  match s.secret with
  | none => (s, .refused .noSecret)
  | some secret =>
    match Crypto.Envelope.sealFresh secret plain s.host.entropy with
    | (.error err, entropy) =>
      ({ s with host := { s.host with entropy } }, .failed (.crypto err))
    | (.ok envelope, entropy) =>
      let envelope := damage.apply envelope
      atEnd { s with host := { s.host with entropy } } e fun s p =>
        match s.sendFrom p (.message envelope) with
        | (s, some (.ok _)) => (s, .sent envelope.size)
        | (s, r) => (s, ofLink r)

/-- Receive an envelope and open it. -/
def receiveSealed (s : Scene) (p : Place) : Scene × Answer :=
  match s.secret with
  | none => (s, .refused .noSecret)
  | some secret =>
    match s.receiveMessage p with
    | (s, none) => (s, .pending)
    | (s, some (.error e)) => (s, .failed (.link e))
    | (s, some (.ok none)) => (s, .message none)
    | (s, some (.ok (some envelope))) =>
      match Crypto.Envelope.reveal secret envelope with
      | .ok plain => (s, .opened envelope plain)
      | .error e => (s, .failed (.crypto e))

end Vault.Scene
