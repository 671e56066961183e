import Vault.Frame

/-!
# Reading frames from a stream of bytes

Bytes arrive in pieces of any size. `Vault.Frame.Reading` is one frame on its way: the
bytes taken so far. It says how many more it wants (`wanted`) – first the rest of the
length, then the rest of the body – and takes what arrives (`feed`), so that where the
pieces end does not show in the result. A stream that ends between frames is a clean
end; one that ends inside a frame is not.
-/

namespace Vault.Frame

/-- A frame on its way: the bytes taken so far. -/
structure Reading where
  /-- Length and body, as far as they have arrived. -/
  taken : Bytes := ByteArray.empty

/-- What has come of a frame. -/
inductive Progress where
  /-- It is still on its way. -/
  | more (r : Reading)
  /-- It is here, or the stream has ended, or something is wrong. -/
  | done (result : Except LinkError (Option Frame))

namespace Reading

/-- The length that the frame announces. -/
def announced (r : Reading) : Nat :=
  Bytes.natBE (Bytes.take r.taken lengthBytes)

/-- How many bytes the part that is being read still wants. -/
def wanted (r : Reading) : Nat :=
  if r.taken.size < lengthBytes then lengthBytes - r.taken.size
  else lengthBytes + r.announced - r.taken.size

/-- What has come of the frame with the bytes at hand. -/
def progress (r : Reading) : Progress :=
  if r.taken.size < lengthBytes then .more r
  else if maxLength < r.announced then .done (.error (.frameTooLarge r.announced maxLength))
  else if r.taken.size < lengthBytes + r.announced then .more r
  else .done ((decodeBody (Bytes.drop r.taken lengthBytes)).map some)

/-- Take the bytes that arrived, no more than were wanted. -/
def feed (r : Reading) (b : Bytes) : Progress :=
  progress ⟨r.taken ++ b⟩

/-- What a stream that ends here makes of the frame. -/
def atEnd (r : Reading) : Except LinkError (Option Frame) :=
  if r.taken.size = 0 then .ok none
  else if r.taken.size < lengthBytes then
    .error (.protocol "stream ended inside a length prefix")
  else .error (.protocol "stream ended inside a frame")

end Reading

/-! ### Streams given in advance -/

/-- What one read of a stream may meet. -/
inductive Piece where
  /-- These bytes. -/
  | bytes (b : Bytes)
  /-- A failure. -/
  | failure (text : String)

/-- Read one frame from the pieces of a stream. Every round but two uses up a piece, so
their number and two more bound the rounds. -/
def readPieces : Nat → Reading → List Piece → Except LinkError (Option Frame) × List Piece
  | 0, r, pieces => (r.atEnd, pieces)
  | _, r, [] => (r.atEnd, [])
  | _, _, .failure text :: pieces => (.error (.io text), pieces)
  | fuel + 1, r, .bytes b :: pieces =>
    if b.size = 0 then readPieces fuel r pieces
    else
      let rest := Bytes.drop b r.wanted
      let pieces := if rest.size = 0 then pieces else .bytes rest :: pieces
      match r.feed (Bytes.take b r.wanted) with
      | .more r => readPieces fuel r pieces
      | .done result => (result, pieces)

/-- The next frame of a stream, and what is left of it. -/
def next (pieces : List Piece) : Except LinkError (Option Frame) × List Piece :=
  readPieces (pieces.length + 2) {} pieces

/-- The bytes in the pieces of a stream. -/
def streamSize : List Piece → Nat
  | [] => 0
  | .bytes b :: pieces => b.size + streamSize pieces
  | .failure _ :: pieces => streamSize pieces

/-- The frames of a stream up to its end or the first failure, and which of them it was.
Every frame takes a byte, so the bytes bound the frames. -/
def readUpTo : Nat → List Piece → List Frame × Except LinkError Unit
  | 0, _ => ([], .ok ())
  | fuel + 1, pieces =>
    match next pieces with
    | (.error e, _) => ([], .error e)
    | (.ok none, _) => ([], .ok ())
    | (.ok (some f), rest) =>
      let (fs, stop) := readUpTo fuel rest
      (f :: fs, stop)

/-- All frames of a stream, and how it ends. -/
def readAll (pieces : List Piece) : List Frame × Except LinkError Unit :=
  readUpTo (streamSize pieces + 1) pieces

end Vault.Frame
