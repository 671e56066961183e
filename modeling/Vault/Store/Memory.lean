import Vault.Store.Basic

/-!
# The store in memory

Documents by key, in the order in which they were added, the newest first, each with the
number under which it was added. A document is added under its id as the key, unless there
is a document under that key, and what is looked for is looked for by key. A listing is
sorted by time of creation and, for equal times, by that number, so that of two documents
the one that was added later stands first unless the clock went back between them.
-/

namespace Vault

/-- A stored document with its key and its number. -/
structure Entry where
  /-- What it is looked up by. -/
  key : String
  /-- How many documents had been added before. -/
  seq : Nat
  /-- The document. -/
  document : Document
  deriving DecidableEq, Repr

/-- Whether an entry stands before another in a listing, or is the same. -/
def Entry.before (a b : Entry) : Bool :=
  decide (b.document.createdAt < a.document.createdAt ∨
    a.document.createdAt = b.document.createdAt ∧ b.seq ≤ a.seq)

/-- The documents in memory. -/
structure Memory where
  /-- The documents, the newest first. -/
  entries : List Entry := []
  /-- How many documents have been added. -/
  nextSeq : Nat := 0
  deriving DecidableEq, Repr

namespace Memory

/-- The entry of a key. -/
def find? (m : Memory) (key : String) : Option Entry :=
  m.entries.find? fun e => e.key == key

/-- Add a document under its id, if there is none under that key. -/
def commit (m : Memory) (d : Document) : Except StoreError Document × Memory :=
  match m.find? d.id with
  | some _ => (.error (.alreadyExists d.id), m)
  | none => (.ok d, ⟨⟨d.id, m.nextSeq, d⟩ :: m.entries, m.nextSeq + 1⟩)

/-- Fetch the document under a key. -/
def get (m : Memory) (key : String) : Except StoreError Document :=
  match m.find? key with
  | some e => .ok e.document
  | none => .error (.notFound key)

/-- The documents of an owner, newest first, no more than the limit. -/
def list (m : Memory) (owner : String) : List Document :=
  let mine := m.entries.filter fun e => e.document.owner == owner
  ((mine.mergeSort Entry.before).take listLimit).map (·.document)

/-- Whether an entry was created before a cutoff. -/
def expired (cutoff : Timestamp) (e : Entry) : Bool :=
  decide (e.document.createdAt < cutoff)

/-- Delete the documents created before a cutoff; the answer is their number. -/
def deleteBefore (m : Memory) (cutoff : Timestamp) : Nat × Memory :=
  (m.entries.countP (expired cutoff),
    { m with entries := m.entries.filter fun e => !expired cutoff e })

/-- The number of documents. -/
def size (m : Memory) : Nat :=
  m.entries.length

instance : Store Memory where
  insert draft now m e :=
    let (d, e) := draft.document now e
    let (r, m) := m.commit d
    (r, m, e)
  get id m := (m.get id, m)
  list owner m := (.ok (m.list owner), m)
  deleteBefore cutoff m :=
    let (n, m) := m.deleteBefore cutoff
    (.ok n, m)

end Memory

end Vault
