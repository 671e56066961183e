import Vault.Store.Basic

/-!
# The store in a table

The lasting store is a database with a table of documents and a table of schema
versions. A row of the documents table has a number that grows with every row, a unique
id, an owner, and two cells whose contents the database does not check: what stands in
them is checked when the row is read as a document, and a row of the wrong make is a
failure of the database. Texts come after all numbers in the order of cells.
-/

namespace Vault

/-- What stands in one cell of a row. -/
inductive Cell where
  /-- A number. -/
  | integer (n : Int)
  /-- A text. -/
  | text (s : String)
  /-- Bytes. -/
  | blob (b : Bytes)
  deriving DecidableEq

namespace Cell

/-- The name of the type of a cell. -/
def typeName : Cell → String
  | integer _ => "Integer"
  | text _ => "Text"
  | blob _ => "Blob"

/-- Where cells of a type come in the order of cells. -/
def rank : Cell → Nat
  | integer _ => 0
  | text _ => 1
  | blob _ => 2

/-- Whether a cell comes before another: numbers by size, then texts, then bytes. -/
def lt (a b : Cell) : Bool :=
  match a, b with
  | integer m, integer n => decide (m < n)
  | text s, text t => decide (s < t)
  | blob x, blob y => decide (x.data.toList < y.data.toList)
  | a, b => decide (a.rank < b.rank)

end Cell

/-- A row of the documents table. -/
structure Row where
  /-- The number of the row. -/
  seq : Nat
  /-- The id of the document. -/
  id : String
  /-- Whom it belongs to. -/
  owner : String
  /-- What it says. -/
  content : Cell
  /-- When it was stored. -/
  createdAt : Cell
  deriving DecidableEq

namespace Row

/-- The complaint about a cell of the wrong type. -/
def wrongType (c : Cell) (index : Nat) (column : String) : StoreError :=
  .database ("Invalid column type " ++ c.typeName ++ " at index: " ++ toString index ++
    ", name: " ++ column)

/-- The document in a row. -/
def document (r : Row) : Except StoreError Document :=
  match r.content with
  | .text content =>
    match r.createdAt with
    | .integer n => .ok ⟨r.id, r.owner, content, Timestamp.clamp n⟩
    | c => .error (wrongType c 3 "created_at")
  | c => .error (wrongType c 2 "content")

/-- The row of a document. -/
def ofDocument (seq : Nat) (d : Document) : Row :=
  ⟨seq, d.id, d.owner, .text d.content, .integer d.createdAt.micros⟩

/-- Whether a row stands before another in a listing, or is the same. -/
def before (a b : Row) : Bool :=
  b.createdAt.lt a.createdAt || (!a.createdAt.lt b.createdAt && decide (b.seq ≤ a.seq))

end Row

/-- The documents table. -/
structure Table where
  /-- The rows, the newest first. -/
  rows : List Row := []
  /-- The number of the last row that was ever added. -/
  lastSeq : Nat := 0
  deriving DecidableEq

/-- A database: each of its tables may be missing. -/
structure Database where
  /-- The schema versions on record. -/
  versions : Option (List Int) := none
  /-- The documents. -/
  documents : Option Table := none
  deriving DecidableEq

namespace Database

/-- The complaint about a missing table. -/
def noTable (name : String) : StoreError :=
  .database ("no such table: " ++ name)

/-- The complaint about a value that must be unique and is taken. -/
def notUnique (column : String) : StoreError :=
  .database ("UNIQUE constraint failed: " ++ column)

/-- Work on the documents table, if it is there. -/
def onDocuments {α : Type} (db : Database) (f : Table → Except StoreError α × Table) :
    Except StoreError α × Database :=
  match db.documents with
  | none => (.error (noTable "documents"), db)
  | some t =>
    let (r, t) := f t
    (r, { db with documents := some t })

/-! ### The four operations -/

/-- Add a row whose id is not taken. -/
def addRow (row : Nat → Row) (taken : StoreError) (t : Table) : Except StoreError Row × Table :=
  let r := row (t.lastSeq + 1)
  if t.rows.any fun s => s.id == r.id then (.error taken, t)
  else (.ok r, ⟨r :: t.rows, t.lastSeq + 1⟩)

/-- Add a document whose id is not taken. -/
def insert (db : Database) (d : Document) : Except StoreError Document × Database :=
  let (r, db) := db.onDocuments (addRow (fun n => .ofDocument n d) (.alreadyExists d.id))
  (r.map fun _ => d, db)

/-- Fetch the document of an id. -/
def get (db : Database) (id : String) : Except StoreError Document :=
  match db.documents with
  | none => .error (noTable "documents")
  | some t =>
    match t.rows.find? fun r => r.id == id with
    | some r => r.document
    | none => .error (.notFound id)

/-- The documents of an owner, newest first, no more than the limit. -/
def list (db : Database) (owner : String) : Except StoreError (List Document) :=
  match db.documents with
  | none => .error (noTable "documents")
  | some t =>
    let mine := t.rows.filter fun r => r.owner == owner
    ((mine.mergeSort Row.before).take listLimit).mapM Row.document

/-- Delete the documents created before a cutoff; the answer is their number. -/
def deleteBefore (db : Database) (cutoff : Timestamp) : Except StoreError Nat × Database :=
  db.onDocuments fun t =>
    let expired (r : Row) : Bool := r.createdAt.lt (.integer cutoff.micros)
    (.ok (t.rows.countP expired), { t with rows := t.rows.filter fun r => !expired r })

instance : Store Database where
  insert draft now db e :=
    let (d, e) := draft.document now e
    let (r, db) := db.insert d
    (r, db, e)
  get id db := (db.get id, db)
  list owner db := (db.list owner, db)
  deleteBefore cutoff db := db.deleteBefore cutoff

/-! ### What an administrator may do to the tables -/

/-- Put a row of any make into the documents table. -/
def plant (db : Database) (id owner : String) (content createdAt : Cell) :
    Except StoreError Unit × Database :=
  let (r, db) := db.onDocuments
    (addRow (fun n => ⟨n, id, owner, content, createdAt⟩) (notUnique "documents.id"))
  (r.map fun _ => (), db)

/-- Remove the documents table. -/
def dropDocuments (db : Database) : Except StoreError Unit × Database :=
  match db.documents with
  | none => (.error (noTable "documents"), db)
  | some _ => (.ok (), { db with documents := none })

/-- Work on the table of schema versions, if it is there. -/
def onVersions (db : Database) (f : List Int → Except StoreError (List Int)) :
    Except StoreError Unit × Database :=
  match db.versions with
  | none => (.error (noTable "schema_migrations"), db)
  | some vs =>
    match f vs with
    | .error e => (.error e, db)
    | .ok vs => (.ok (), { db with versions := some vs })

/-- Record a schema version. -/
def addVersion (db : Database) (v : Int) : Except StoreError Unit × Database :=
  db.onVersions fun vs =>
    if v ∈ vs then .error (notUnique "schema_migrations.version") else .ok (v :: vs)

/-- Forget all schema versions. -/
def clearVersions (db : Database) : Except StoreError Unit × Database :=
  db.onVersions fun _ => .ok []

/-- The schema versions on record, in order. -/
def sortedVersions (db : Database) : Except StoreError (List Int) :=
  match db.versions with
  | none => .error (noTable "schema_migrations")
  | some vs => .ok (vs.mergeSort fun a b => decide (a ≤ b))

/-- What the database consists of, in order. The documents table comes with its indexes. -/
def schema (db : Database) : List String :=
  (if db.documents.isSome then
    ["index idx_documents_created", "index idx_documents_owner_created", "table documents"]
  else []) ++
  (if db.versions.isSome then ["table schema_migrations"] else [])

end Database

end Vault
