import Vault.Status

/-!
# What can go wrong on a link

A link fails in its bytes, in its frames, or because the other end said so.
-/

namespace Vault

/-- A failure to move frames over a link. -/
inductive LinkError where
  /-- The byte stream failed. -/
  | io (text : String)
  /-- An arriving frame announces a length over the limit. -/
  | frameTooLarge (size max : Nat)
  /-- A frame to be sent has a length over the limit. -/
  | outboundTooLarge (size max : Nat)
  /-- The body of a frame is not CBOR of a frame. -/
  | codec (text : String)
  /-- A frame, or the end of the stream, where it may not stand. -/
  | protocol (text : String)
  /-- The other end gave up with this status. -/
  | remote (s : Status)
  /-- The link is closed. -/
  | closed
  deriving DecidableEq, Repr

namespace LinkError

/-- The failure in words. -/
def message : LinkError → String
  | io text => "I/O error: " ++ text
  | frameTooLarge size max =>
    "frame too large: " ++ toString size ++ " bytes (max " ++ toString max ++ ")"
  | outboundTooLarge size max =>
    "outbound frame too large: " ++ toString size ++ " bytes (max " ++ toString max ++ ")"
  | codec text => "frame codec error: " ++ text
  | protocol text => "protocol violation: " ++ text
  | remote s => "stream aborted by peer: " ++ s.text
  | closed => "stream closed"

end LinkError

end Vault
