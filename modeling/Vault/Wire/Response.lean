import Vault.Cbor.Direct
import Vault.Document

/-!
# Responses on the wire

A response is a variant: `document`, `documents` or `error`, with a document, an array
of documents or a status as its value. Documents and statuses are records. Each reader
stands beside its writer.
-/

namespace Vault.Wire

open Cbor

/-! ### Statuses -/

/-- The kinds of failure by name. -/
def kinds : List (String × ErrorKind) :=
  ErrorKind.all.map fun k => (k.name, k)

/-- A status that is being read. -/
structure StatusFields where
  /-- The kind, once read. -/
  kind : Option ErrorKind := none
  /-- The message, once read. -/
  message : Option String := none

/-- One field of a status. -/
def statusField (depth : Nat) (s : StatusFields) (n : Name) (c : Cursor) :
    Except Error (StatusFields × Cursor) :=
  if n.is "kind" then
    once "kind" s.kind (plainVariant kinds depth c) fun k => { s with kind := some k }
  else if n.is "message" then
    once "message" s.message (string c) fun m => { s with message := some m }
  else
    match ignore depth c with
    | .error e => .error e
    | .ok c => .ok (s, c)

/-- A status. -/
def readStatus (depth : Nat) (c : Cursor) : Except Error (Status × Cursor) := do
  let (s, c) ← record depth {} statusField c
  let kind ← required "kind" s.kind
  let message ← required "message" s.message
  return (⟨kind, message⟩, c)

/-- A status as a record. -/
def writeStatus (s : Status) : Bytes :=
  writeRecord [("kind", writeText s.kind.name), ("message", writeText s.message)]

/-! ### Documents -/

/-- A document that is being read. -/
structure DocumentFields where
  /-- The id, once read. -/
  id : Option String := none
  /-- The owner, once read. -/
  owner : Option String := none
  /-- The content, once read. -/
  content : Option String := none
  /-- The time of creation, once read. -/
  createdAt : Option Timestamp := none

/-- One field of a document. -/
def documentField (depth : Nat) (s : DocumentFields) (n : Name) (c : Cursor) :
    Except Error (DocumentFields × Cursor) :=
  if n.is "id" then once "id" s.id (string c) fun v => { s with id := some v }
  else if n.is "owner" then once "owner" s.owner (string c) fun v => { s with owner := some v }
  else if n.is "content" then
    once "content" s.content (string c) fun v => { s with content := some v }
  else if n.is "created_at" then
    once "created_at" s.createdAt (timestamp c) fun v => { s with createdAt := some v }
  else
    match ignore depth c with
    | .error e => .error e
    | .ok c => .ok (s, c)

/-- A document. -/
def readDocument (depth : Nat) (c : Cursor) : Except Error (Document × Cursor) := do
  let (s, c) ← record depth {} documentField c
  let id ← required "id" s.id
  let owner ← required "owner" s.owner
  let content ← required "content" s.content
  let createdAt ← required "created_at" s.createdAt
  return (⟨id, owner, content, createdAt⟩, c)

/-- A document as a record. -/
def writeDocument (d : Document) : Bytes :=
  writeRecord [("id", writeText d.id), ("owner", writeText d.owner),
    ("content", writeText d.content), ("created_at", writeInt d.createdAt.micros)]

/-- An array of documents. A byte string passes for an array of numbers, none of which is a
document. -/
def readDocuments (depth : Nat) (c : Cursor) : Except Error (List Document × Cursor) :=
  match headAt c with
  | .error e => .error e
  | .ok (.array len, _, after) =>
    match depth with
    | 0 => .error .tooDeep
    | depth + 1 => series (readDocument depth) len after
  | .ok (.bytes len, _, after) =>
    match bytesAfter len after with
    | .error e => .error e
    | .ok (b, after) =>
      if b.size = 0 then .ok ([], after)
      else .error ((Head.positive (Bytes.byteAt b 0).toNat).unexpected "struct Document")
  | .ok (h, _, _) => .error (h.unexpected "array")

/-- Documents as an array. -/
def writeDocuments (ds : List Document) : Bytes :=
  ds.foldl (fun acc d => acc ++ writeDocument d) (Head.write 4 ds.length)

/-! ### Responses -/

/-- Apply a constructor to what was read. -/
def mapValue {α β : Type} (f : α → β) : Except Error (α × Cursor) → Except Error (β × Cursor)
  | .error e => .error e
  | .ok (a, c) => .ok (f a, c)

/-- The value of a response by the name of its variant. -/
def responseVariant (depth : Nat) (n : Name) (c : Cursor) : Except Error (Response × Cursor) :=
  if n.is "document" then mapValue .document (readDocument depth c)
  else if n.is "documents" then mapValue .documents (readDocuments depth c)
  else if n.is "error" then mapValue .error (readStatus depth c)
  else .error (.unknownVariant n.shown ["document", "documents", "error"])

/-- A response. -/
def readResponse (depth : Nat) (c : Cursor) : Except Error (Response × Cursor) :=
  variant depth responseVariant c

/-- The response at the front of a byte string; what stands after it is ignored. -/
def decodeResponse (b : Bytes) : Except Error Response :=
  match readResponse maxDepth ⟨b, 0⟩ with
  | .error e => .error e
  | .ok (r, _) => .ok r

/-- The bytes of a response. -/
def encodeResponse : Response → Bytes
  | .document d => writeVariant "document" (writeDocument d)
  | .documents ds => writeVariant "documents" (writeDocuments ds)
  | .error s => writeVariant "error" (writeStatus s)

end Vault.Wire
