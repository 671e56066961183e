import Vault.Entropy
import Vault.Status
import Vault.Time

/-!
# Documents and what may be asked about them

A **document** is created once, never changed, and removed only when it is too old.
Its id is minted: the name its creator chose, followed by random bytes in
hexadecimal. A **request** adds, fetches or lists documents; a **response** carries
a document, a list of them, or the status of a request that failed.
-/

namespace Vault

/-- A stored document. -/
structure Document where
  /-- Its id, unique in the vault. -/
  id : String
  /-- Whom it belongs to. -/
  owner : String
  /-- What it says. -/
  content : String
  /-- When it was stored. -/
  createdAt : Timestamp
  deriving DecidableEq, Repr

namespace Document

/-- The number of random bytes in an id. -/
def idSuffixBytes : Nat := 16

/-- The id made of a name and a suffix of random bytes. -/
def idOf (name : String) (suffix : Bytes) : String :=
  name ++ Bytes.hex suffix

/-- A fresh id for a document of this name. -/
def mintId (name : String) (e : Entropy) : String × Entropy :=
  let (suffix, e) := e.draw idSuffixBytes
  (idOf name suffix, e)

/-- A document by its id and owner. -/
def text (d : Document) : String :=
  "Document(id=" ++ d.id ++ ", owner=" ++ d.owner ++ ")"

end Document

/-- At most this many documents are listed at once. -/
def listLimit : Nat := 100

/-! ### Requests -/

/-- What a client may ask for. -/
inductive Request where
  /-- Store a document under a fresh id that begins with `name`. -/
  | add (owner content name : String)
  /-- Fetch one document. -/
  | get (id : String)
  /-- List the documents of an owner, newest first. -/
  | list (owner : String)
  deriving DecidableEq, Repr

namespace Request

/-- The name of the operation. -/
def tag : Request → String
  | add .. => "add"
  | get _ => "get"
  | list _ => "list"

/-- The least number of scalar values in a checked field. -/
def minFieldLen : Nat := 5

/-- The fields that are checked, in the order in which they are checked. -/
def checkedFields : Request → List (String × String)
  | add owner content name => [("owner", owner), ("name", name), ("content", content)]
  | get id => [("id", id)]
  | list owner => [("owner", owner)]

/-- The first checked field that is too short, if any. -/
def firstShort? (r : Request) : Option String :=
  (r.checkedFields.find? fun f => decide (f.2.length < minFieldLen)).map (·.1)

/-- A request is accepted when none of its checked fields is too short. -/
def validate (r : Request) : Except Status Unit :=
  match r.firstShort? with
  | some field => .error (.invalidArgument (field ++ " is too short"))
  | none => .ok ()

end Request

/-- The answer to one request. -/
inductive Response where
  /-- The document added or fetched. -/
  | document (d : Document)
  /-- The documents listed. -/
  | documents (ds : List Document)
  /-- Why this one request failed. -/
  | error (s : Status)
  deriving DecidableEq, Repr

/-- The name of the kind of a response. -/
def Response.tag : Response → String
  | .document _ => "document"
  | .documents _ => "documents"
  | .error _ => "error"

end Vault
