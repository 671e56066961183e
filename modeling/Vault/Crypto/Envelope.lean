import Vault.Crypto.ChaCha20
import Vault.Crypto.Key
import Vault.Crypto.Poly1305

/-!
# Envelopes

After the key exchange every message travels in an **envelope**: a version byte, a
nonce, the message under the stream cipher, and a tag over what stands before it. The
first block of keystream keys the authenticator and the message is enciphered from the
second on. An envelope opens only if its tag is the one that sealing would have put
there.
-/

namespace Vault.Crypto.Envelope

/-- The version byte. -/
def version : UInt8 := 1

/-- The size of a nonce. -/
def nonceBytes : Nat := 12

/-- The size of a tag. -/
def tagBytes : Nat := Poly1305.tagBytes

/-- The size of the envelope of an empty message. -/
def minBytes : Nat := 1 + nonceBytes + tagBytes

/-- The greatest number of whole keystream blocks in a message, plus one. -/
def blockLimit : Nat := 2 ^ 32 - 1

/-- Whether a message of this size is too long for the block counter. -/
def tooLong (size : Nat) : Bool :=
  decide (blockLimit ≤ size / 64)

/-- The wording of every failure of the cipher. -/
def cipherFailure : String := "aead::Error"

/-- The tag of an enciphered message: over the message padded to whole blocks and the sizes
of the unused associated data and of the message. -/
def tagOf (key nonce cipher : Bytes) : Bytes :=
  let macKey := ChaCha20.keystream key nonce 0 32
  Poly1305.tag (Bytes.take macKey 32)
    (cipher ++ Poly1305.padding cipher.size ++ Bytes.ofNatLE 8 0 ++ Bytes.ofNatLE 8 cipher.size)

/-- The envelope of an enciphered message. -/
def assemble (nonce cipher tag : Bytes) : Bytes :=
  ByteArray.empty.push version ++ nonce ++ cipher ++ tag

/-- Seal a message under a given nonce. -/
def sealWith (s : SharedSecret) (nonce plain : Bytes) : Except Error Bytes :=
  if tooLong plain.size then .error (.encryption cipherFailure)
  else
    let key := s.envelopeKey
    let cipher := ChaCha20.apply key nonce 1 plain
    .ok (assemble nonce cipher (tagOf key nonce cipher))

/-- Seal a message under a fresh nonce. -/
def sealFresh (s : SharedSecret) (plain : Bytes) (e : Entropy) : Except Error Bytes × Entropy :=
  let (nonce, e) := e.draw nonceBytes
  (sealWith s nonce plain, e)

/-- Open an envelope. -/
def reveal (s : SharedSecret) (envelope : Bytes) : Except Error Bytes :=
  if envelope.size < minBytes then
    .error (.malformedEnvelope
      ("expected at least 29 bytes, got " ++ toString envelope.size))
  else if Bytes.byteAt envelope 0 ≠ version then
    .error (.malformedEnvelope
      ("unsupported envelope version " ++ toString (Bytes.byteAt envelope 0).toNat))
  else
    let nonce := envelope.extract 1 (1 + nonceBytes)
    let cipher := envelope.extract (1 + nonceBytes) (envelope.size - tagBytes)
    let tag := envelope.extract (envelope.size - tagBytes) envelope.size
    let key := s.envelopeKey
    if tooLong cipher.size then .error (.decryption cipherFailure)
    else if tagOf key nonce cipher = tag then .ok (ChaCha20.apply key nonce 1 cipher)
    else .error (.decryption cipherFailure)

end Vault.Crypto.Envelope
