import Vault.Crypto.Blake3
import Vault.Crypto.Curve25519
import Vault.Entropy

/-!
# Keys

Each side of a session draws a **key pair**, sends its public half and agrees with the
peer on a **shared secret**. A key pair carries the proof that its public half belongs
to its private half; as a byte string, a **secret blob**, it carries only both halves,
and reading one back checks that they belong together.
-/

namespace Vault.Crypto

/-- What can go wrong with keys and envelopes. -/
inductive Error where
  /-- A public key of the wrong size. -/
  | invalidPublicKey (size : Nat)
  /-- The peer's key forces the shared secret to zero. -/
  | nonContributory
  /-- Bytes that are no secret blob. -/
  | invalidSecret (reason : String)
  /-- Bytes that are no envelope. -/
  | malformedEnvelope (reason : String)
  /-- Sealing failed. -/
  | encryption (reason : String)
  /-- Opening failed. -/
  | decryption (reason : String)
  deriving DecidableEq, Repr

namespace Error

/-- The failure in words. -/
def message : Error → String
  | invalidPublicKey size =>
    "invalid public key: expected 32 bytes, got " ++ toString size
  | nonContributory => "key agreement is not contributory"
  | invalidSecret reason => "invalid secret: " ++ reason
  | malformedEnvelope reason => "malformed envelope: " ++ reason
  | encryption reason => "encryption error: " ++ reason
  | decryption reason => "decryption error: " ++ reason

end Error

/-! ### Public keys -/

/-- The size of a public key. -/
def publicKeyBytes : Nat := 32

/-- A public key. -/
structure PublicKey where
  /-- Its bytes. -/
  bytes : Bytes
  /-- There are 32 of them. -/
  size_eq : bytes.size = publicKeyBytes
  deriving DecidableEq

namespace PublicKey

/-- The public key of these bytes. -/
def ofBytes (b : Bytes) : Except Error PublicKey :=
  if h : b.size = publicKeyBytes then .ok ⟨b, h⟩ else .error (.invalidPublicKey b.size)

/-- A short name for a key: the first eight bytes of its hash. -/
def fingerprint (k : PublicKey) : String :=
  Bytes.hex (Bytes.take (Blake3.hash k.bytes) 8)

/-- The key in a diagnostic. -/
def shown (k : PublicKey) : String :=
  "PublicKey(" ++ k.fingerprint ++ ")"

end PublicKey

/-! ### Shared secrets -/

/-- The secret that both sides of a session agree on. -/
structure SharedSecret where
  /-- Its bytes. -/
  bytes : Bytes
  /-- There are 32 of them. -/
  size_eq : bytes.size = 32
  deriving DecidableEq

namespace SharedSecret

/-- The context of the key that seals envelopes. -/
def envelopeContext : String := "neuron session v1 envelope key"

/-- The key that seals envelopes. -/
def envelopeKey (s : SharedSecret) : Bytes :=
  Blake3.deriveKey envelopeContext s.bytes

/-- The secret in a diagnostic. -/
def shown (_ : SharedSecret) : String :=
  "SharedSecret(..)"

end SharedSecret

/-! ### Key pairs -/

/-- The size of a private scalar. -/
def scalarBytes : Nat := 32

/-- The public key of a private scalar. -/
def publicOf (scalar : Bytes) : PublicKey :=
  ⟨Curve25519.multiply scalar Curve25519.base, Curve25519.size_multiply _ _⟩

/-- A private scalar with its public key. -/
structure KeyPair where
  /-- The private scalar, as it was drawn. -/
  scalar : Bytes
  /-- It has 32 bytes. -/
  size_eq : scalar.size = scalarBytes
  /-- The public key. -/
  publicKey : PublicKey
  /-- It belongs to the scalar. -/
  public_eq : publicKey = publicOf scalar

namespace KeyPair

/-- The key pair of a scalar. -/
def ofScalar (scalar : Bytes) (h : scalar.size = scalarBytes) : KeyPair :=
  ⟨scalar, h, publicOf scalar, rfl⟩

/-- A fresh key pair. -/
def generate (e : Entropy) : KeyPair × Entropy :=
  (ofScalar (e.draw scalarBytes).1 (Entropy.size_draw e scalarBytes), (e.draw scalarBytes).2)

/-- The secret blob: the scalar, then the public key. -/
def blob (p : KeyPair) : Bytes :=
  p.scalar ++ p.publicKey.bytes

/-- The size of a secret blob. -/
def blobBytes : Nat := 64

/-- The key pair in a secret blob, whose halves must belong together. -/
def ofBlob (b : Bytes) : Except Error KeyPair :=
  if h : b.size = blobBytes then
    let scalar := Bytes.take b scalarBytes
    have size : scalar.size = scalarBytes := by
      have hb : b.size = 64 := h
      simp [scalar, Bytes.take, scalarBytes, ByteArray.size_extract, hb]
    let p := ofScalar scalar size
    if p.publicKey.bytes = Bytes.drop b scalarBytes then .ok p
    else .error (.invalidSecret "public key does not match private key")
  else .error (.invalidSecret ("expected 64 bytes, got " ++ toString b.size))

/-- The secret shared with the owner of a public key. -/
def agree (p : KeyPair) (peer : PublicKey) : Except Error SharedSecret :=
  let s := Curve25519.multiply p.scalar peer.bytes
  if s = Bytes.replicate 32 0 then .error .nonContributory
  else .ok ⟨s, Curve25519.size_multiply _ _⟩

/-- The key pair in a diagnostic, without its private half. -/
def shown (p : KeyPair) : String :=
  "KeyPair \x7b public: " ++ p.publicKey.shown ++ ", .. \x7d"

/-- A secret blob in a diagnostic. -/
def blobShown (_ : Bytes) : String :=
  "SecretBlob(..)"

end KeyPair

/-- The secret shared between the owner of a secret blob and a peer, by the bytes of both.
A blob of the wrong size is noticed first, then the peer's key, then the halves of the
blob. -/
def agreeFromBlob (blob peer : Bytes) : Except Error SharedSecret :=
  if blob.size = KeyPair.blobBytes then
    match PublicKey.ofBytes peer with
    | .error e => .error e
    | .ok peer =>
      match KeyPair.ofBlob blob with
      | .error e => .error e
      | .ok pair => pair.agree peer
  else .error (.invalidSecret ("expected 64 bytes, got " ++ toString blob.size))

end Vault.Crypto
