import Vault.Frame.Reading

/-!
# Links

A **link** joins two ends by two lanes, one for each direction. There are two makes of
lane. A *queue* holds whole frames, a bounded number of them; a *pipe* holds bytes, and a
frame crosses it in as many pieces as the pipe has room for. Both deliver in order, and
neither delivers anything twice.

An operation on an end is tried again until it is through. A try either ends
(`Vault.Poll.ready`) or leaves behind what has been done so far (`Vault.Poll.waiting`):
the bytes taken of a frame that is arriving, or the bytes left of one that is leaving.
Whoever stops trying loses the former and leaves the latter cut off.
-/

namespace Vault

/-- The outcome of one try. -/
inductive Poll (ω α : Type) where
  /-- The operation is through. -/
  | ready (a : α)
  /-- The operation has to wait, and this is how far it has come. -/
  | waiting (w : ω)

/-! ### Queues -/

/-- A lane of whole frames. -/
structure Queue where
  /-- The frames under way, the next to arrive first. -/
  frames : List Frame := []
  /-- Whether nothing more will be sent. -/
  senderGone : Bool := false
  /-- Whether nobody will receive any more. -/
  receiverGone : Bool := false

namespace Queue

/-- How many frames a queue holds. -/
def capacity : Nat := 64

/-- Try to put a frame into the queue. -/
def offer (q : Queue) (f : Frame) : Queue × Poll Unit (Except LinkError Unit) :=
  if q.senderGone ∨ q.receiverGone then (q, .ready (.error .closed))
  else if q.frames.length < capacity then
    ({ q with frames := q.frames ++ [f] }, .ready (.ok ()))
  else (q, .waiting ())

/-- Try to take a frame from the queue; there is none once it is empty and the sender is
gone. -/
def take (q : Queue) : Queue × Poll Unit (Option Frame) :=
  match q.frames with
  | f :: rest => ({ q with frames := rest }, .ready (some f))
  | [] => if q.senderGone then (q, .ready none) else (q, .waiting ())

end Queue

/-! ### Pipes -/

/-- A lane of bytes. -/
structure Pipe where
  /-- The bytes under way. -/
  buffered : Bytes := ByteArray.empty
  /-- How many bytes the pipe holds. -/
  capacity : Nat
  /-- Whether nothing more can be written. -/
  closed : Bool := false

namespace Pipe

/-- The wording for a pipe that was closed. -/
def broken : String := "broken pipe"

/-- Write as many of these bytes as there is room for. -/
def write (p : Pipe) (b : Bytes) : Pipe × Poll Bytes (Except LinkError Unit) :=
  if b.size = 0 then (p, .ready (.ok ()))
  else if p.closed then (p, .ready (.error (.io broken)))
  else
    let room := p.capacity - p.buffered.size
    let rest := Bytes.drop b room
    let p := { p with buffered := p.buffered ++ Bytes.take b room }
    if rest.size = 0 then (p, .ready (.ok ())) else (p, .waiting rest)

/-- Read on at a frame. What is buffered is taken first, as much as the frame wants; each
round completes the length or the body of the frame, or empties the pipe, so three
rounds are enough. -/
def readOn : Nat → Pipe → Frame.Reading →
    Pipe × Poll Frame.Reading (Except LinkError (Option Frame))
  | 0, p, r => (p, .waiting r)
  | fuel + 1, p, r =>
    if p.buffered.size = 0 then
      if p.closed then (p, .ready r.atEnd) else (p, .waiting r)
    else
      let front := Bytes.take p.buffered r.wanted
      let p := { p with buffered := Bytes.drop p.buffered r.wanted }
      match r.feed front with
      | .more r => readOn fuel p r
      | .done result => (p, .ready result)

/-- Read on at a frame. -/
def read (p : Pipe) (r : Frame.Reading) :
    Pipe × Poll Frame.Reading (Except LinkError (Option Frame)) :=
  readOn 3 p r

/-- The pipe with nothing more to be written. -/
def close (p : Pipe) : Pipe :=
  { p with closed := true }

end Pipe

/-! ### Links -/

/-- One of the two ends of a link. -/
inductive Side where
  | left
  | right
  deriving DecidableEq, Repr

/-- The other end. -/
def Side.other : Side → Side
  | left => right
  | right => left

/-- One direction of a link. -/
inductive Lane where
  /-- A lane of whole frames. -/
  | queue (q : Queue)
  /-- A lane of bytes. -/
  | pipe (p : Pipe)

namespace Lane

/-- The lane without its sender. -/
def dropSender : Lane → Lane
  | queue q => queue { q with senderGone := true }
  | pipe p => pipe p.close

/-- The lane without its receiver. -/
def dropReceiver : Lane → Lane
  | queue q => queue { q with receiverGone := true }
  | pipe p => pipe p.close

/-- How much is under way, in frames or in bytes. -/
def backlog : Lane → Nat
  | queue q => q.frames.length
  | pipe p => p.buffered.size

/-- Try to send a frame. Of a frame that has begun to leave through a pipe, `rest` are the
bytes that are left. -/
def send (l : Lane) (f : Frame) (rest : Option Bytes) :
    Lane × Poll (Option Bytes) (Except LinkError Unit) :=
  match l with
  | queue q =>
    match q.offer f with
    | (q, .ready r) => (queue q, .ready r)
    | (q, .waiting _) => (queue q, .waiting none)
  | pipe p =>
    let bytes : Except LinkError Bytes := match rest with
      | some b => .ok b
      | none => f.encode
    match bytes with
    | .error e => (pipe p, .ready (.error e))
    | .ok b =>
      match p.write b with
      | (p, .ready r) => (pipe p, .ready r)
      | (p, .waiting b) => (pipe p, .waiting (some b))

/-- Try to receive a frame, or the end of the stream. -/
def receive (l : Lane) (r : Frame.Reading) :
    Lane × Poll Frame.Reading (Except LinkError (Option Frame)) :=
  match l with
  | queue q =>
    match q.take with
    | (q, .ready f) => (queue q, .ready (.ok f))
    | (q, .waiting _) => (queue q, .waiting r)
  | pipe p =>
    match p.read r with
    | (p, .ready x) => (pipe p, .ready x)
    | (p, .waiting r) => (pipe p, .waiting r)

end Lane

/-- Two ends, two lanes. -/
structure Link where
  /-- From the left end to the right. -/
  forth : Lane
  /-- From the right end to the left. -/
  back : Lane
  /-- Whether the left end has said its last frame. -/
  leftDone : Bool := false
  /-- Whether the right end has said its last frame. -/
  rightDone : Bool := false

namespace Link

/-- A link of queues. -/
def inMemory : Link :=
  ⟨.queue {}, .queue {}, false, false⟩

/-- A link of pipes that hold this many bytes each. -/
def framed (capacity : Nat) : Link :=
  ⟨.pipe { capacity }, .pipe { capacity }, false, false⟩

/-- The lane out of an end. -/
def outOf (l : Link) : Side → Lane
  | .left => l.forth
  | .right => l.back

/-- The lane into an end. -/
def into (l : Link) (s : Side) : Lane :=
  l.outOf s.other

/-- The link with another lane out of an end. -/
def setOut (l : Link) (s : Side) (lane : Lane) : Link :=
  match s with
  | .left => { l with forth := lane }
  | .right => { l with back := lane }

/-- Whether an end has said its last frame. -/
def done (l : Link) : Side → Bool
  | .left => l.leftDone
  | .right => l.rightDone

/-- The link with an end that has said its last frame, which closes the lane out of it. -/
def setDone (l : Link) (s : Side) : Link :=
  let l := l.setOut s (l.outOf s).dropSender
  match s with
  | .left => { l with leftDone := true }
  | .right => { l with rightDone := true }

/-- Try to send a frame from an end. -/
def send (l : Link) (s : Side) (f : Frame) (rest : Option Bytes) :
    Link × Poll (Option Bytes) (Except LinkError Unit) :=
  if l.done s then (l, .ready (.error .closed))
  else
    let (lane, r) := (l.outOf s).send f rest
    (l.setOut s lane, r)

/-- The last frame of an end, cleanly or with a status. -/
def closingFrame : Except Status Unit → Frame
  | .ok _ => .end
  | .error s => .abort s

/-- Whether an end that failed to say its last frame has said it nevertheless: over a queue
it is not tried again, over a pipe it is. -/
def doneAfterFailure : Lane → Bool
  | .queue _ => true
  | .pipe _ => false

/-- Try to say the last frame of an end. Saying it twice is no failure and does nothing. -/
def finish (l : Link) (s : Side) (outcome : Except Status Unit) (rest : Option Bytes) :
    Link × Poll (Option Bytes) (Except LinkError Unit) :=
  if l.done s then (l, .ready (.ok ()))
  else
    match l.send s (closingFrame outcome) rest with
    | (l, .ready (.ok _)) => (l.setDone s, .ready (.ok ()))
    | (l, .ready (.error e)) =>
      (if doneAfterFailure (l.outOf s) then l.setDone s else l, .ready (.error e))
    | (l, .waiting rest) => (l, .waiting rest)

/-- Try to receive a frame at an end, or the end of the stream. -/
def receive (l : Link) (s : Side) (r : Frame.Reading) :
    Link × Poll Frame.Reading (Except LinkError (Option Frame)) :=
  let (lane, x) := (l.into s).receive r
  (l.setOut s.other lane, x)

/-- The link without one of its ends. -/
def dropEnd (l : Link) (s : Side) : Link :=
  let l := l.setOut s (l.outOf s).dropSender
  l.setOut s.other (l.outOf s.other).dropReceiver

/-- What a frame says to someone who waits for messages: a message, the end of the stream,
or a failure. -/
def inbound : Except LinkError (Option Frame) → Except LinkError (Option Bytes)
  | .error e => .error e
  | .ok none => .ok none
  | .ok (some (.message b)) => .ok (some b)
  | .ok (some .end) => .ok none
  | .ok (some (.abort s)) => .error (.remote s)
  | .ok (some (.open m)) => .error (.protocol ("unexpected open frame for " ++ m.title))

end Link

end Vault
