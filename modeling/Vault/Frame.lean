import Vault.Link.Error
import Vault.Wire.Response

/-!
# Frames

A connection carries **frames**. The first names the call it is opened for; after that
each side sends messages and ends its half, cleanly or with the status of what went
wrong. A frame travels as a CBOR variant behind its length in four bytes, most
significant byte first, and no frame is longer than `Vault.Frame.maxLength`.
-/

namespace Vault

/-- The call a connection is opened for. -/
inductive Method where
  /-- A sign of life. -/
  | ping
  /-- A session that returns every message. -/
  | echo
  /-- A session of requests. -/
  | session
  deriving DecidableEq, Repr

namespace Method

/-- The name on the wire. -/
def name : Method → String
  | ping => "ping"
  | echo => "echo"
  | session => "session"

/-- The name in a complaint. -/
def title : Method → String
  | ping => "Ping"
  | echo => "Echo"
  | session => "Session"

/-- All calls by name. -/
def table : List (String × Method) :=
  [ping, echo, session].map fun m => (m.name, m)

end Method

/-- One frame. -/
inductive Frame where
  /-- The first frame of a connection. -/
  | «open» (m : Method)
  /-- One message. -/
  | message (b : Bytes)
  /-- The sender is done. -/
  | «end»
  /-- The sender gave up. -/
  | abort (s : Status)
  deriving DecidableEq

namespace Frame

/-- The size of the length in front of a frame. -/
def lengthBytes : Nat := 4

/-- The greatest length of a frame, without the length in front of it. -/
def maxLength : Nat := 4 * 1024 * 1024

/-- What kind of frame it is. -/
def kindName : Frame → String
  | .open _ => "open"
  | message _ => "message"
  | .end => "end"
  | abort _ => "abort"

open Cbor

/-! ### Bodies -/

/-- The value of a frame by the name of its variant. -/
def bodyVariant (depth : Nat) (n : Name) (c : Cursor) : Except Error (Frame × Cursor) :=
  if n.is "open" then Wire.mapValue .open (plainVariant Method.table depth c)
  else if n.is "message" then Wire.mapValue .message (byteBuffer depth c)
  else if n.is "end" then .ok (.end, c)
  else if n.is "abort" then Wire.mapValue .abort (Wire.readStatus depth c)
  else .error (.unknownVariant n.shown ["open", "message", "end", "abort"])

/-- The frame at the front of a byte string; what stands after it is ignored. -/
def decodeBody (b : Bytes) : Except LinkError Frame :=
  match variant maxDepth bodyVariant ⟨b, 0⟩ with
  | .error e => .error (.codec e.message)
  | .ok (f, _) => .ok f

/-- A frame without its length. -/
def encodeBody : Frame → Bytes
  | .open m => writeVariant "open" (writeText m.name)
  | message b => writeVariant "message" (writeBytes b)
  | .end => writeText "end"
  | abort s => writeVariant "abort" (Wire.writeStatus s)

/-- A frame behind its length, if it is not too long. -/
def encode (f : Frame) : Except LinkError Bytes :=
  let body := f.encodeBody
  if maxLength < body.size then .error (.outboundTooLarge body.size maxLength)
  else .ok (Bytes.ofNatBE lengthBytes body.size ++ body)

end Frame

end Vault
