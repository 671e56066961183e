import Vault.Crypto.Key
import Vault.Link.Error
import Vault.Wire.Request

/-!
# What can go wrong in a session

Every failure of a session has a status (`Vault.SessionError.status`), which is what the
other side is told: failures of the handshake and envelopes that do not open are the
caller's, a status passes through unchanged, and the rest are the vault's own.
-/

namespace Vault

/-- Where a session stands, by name. -/
inductive PhaseName where
  /-- Waiting for the peer's key. -/
  | awaitingPeerKey
  /-- The peer's key is here, the reply is under way. -/
  | handshaking
  /-- Both keys are exchanged. -/
  | established
  /-- The session is over. -/
  | terminated
  deriving DecidableEq, Repr

namespace PhaseName

/-- The name in a complaint. -/
def text : PhaseName → String
  | awaitingPeerKey => "AwaitingPeerKey"
  | handshaking => "Handshaking"
  | established => "Established"
  | terminated => "Terminated"

end PhaseName

/-- A failure to encode or decode a response. -/
inductive CodecError where
  /-- Encoding failed. -/
  | encoding (text : String)
  /-- Decoding failed. -/
  | decoding (text : String)
  deriving DecidableEq, Repr

namespace CodecError

/-- The failure in words. -/
def message : CodecError → String
  | encoding text => "encoding error: " ++ text
  | decoding text => "decoding error: " ++ text

end CodecError

/-- A failure that ends a session or one call of a client. -/
inductive SessionError where
  /-- The handshake did not come to an end. -/
  | handshake (text : String)
  /-- The peer's key was refused. -/
  | invalidPeerKey (e : Crypto.Error)
  /-- An envelope did not open. -/
  | decrypt (e : Crypto.Error)
  /-- An envelope could not be sealed. -/
  | crypto (e : Crypto.Error)
  /-- A message is no request. -/
  | decode (e : Wire.RequestError)
  /-- A message is no response. -/
  | codec (e : CodecError)
  /-- The link failed. -/
  | link (e : LinkError)
  /-- The request failed with this status. -/
  | status (s : Status)
  /-- The response is not one to the request. -/
  | unexpectedResponse (text : String)
  /-- The call is not possible where the session stands. -/
  | invalidState (expected actual : PhaseName)
  /-- The stream ended where a response was due. -/
  | closed
  deriving DecidableEq, Repr

namespace SessionError

/-- The failure in words. -/
def message : SessionError → String
  | handshake text => "handshake failed: " ++ text
  | invalidPeerKey e => "invalid peer key: " ++ e.message
  | decrypt e => "cannot decrypt message: " ++ e.message
  | crypto e => "crypto error: " ++ e.message
  | decode e => e.message
  | codec e => e.message
  | link e => e.message
  | status s => s.text
  | unexpectedResponse text => "unexpected response: " ++ text
  | invalidState expected actual =>
    "operation requires " ++ expected.text ++ " state, session is " ++ actual.text
  | closed => "stream closed before a response arrived"

/-- What the other side is told. -/
def toStatus (e : SessionError) : Status :=
  match e with
  | handshake _ => .invalidArgument e.message
  | invalidPeerKey _ => .invalidArgument e.message
  | decrypt _ => .invalidArgument e.message
  | decode d => d.status
  | status s => s
  | link (.remote s) => s
  | link (.frameTooLarge ..) => .invalidArgument e.message
  | _ => .internal e.message

end SessionError

end Vault
