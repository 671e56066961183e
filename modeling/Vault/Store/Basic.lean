import Vault.Document
import Vault.Store.Error

/-!
# What a store does

A **store** keeps documents: it adds one made from a draft, fetches one by its id, lists
those of an owner, and deletes those created before a cutoff. The time and the random
bytes that go into a new document are handed to it. Requests and sweeps work on any
store; they see nothing of it but the four operations.
-/

namespace Vault

/-- What the creator of a document chooses. -/
structure Draft where
  /-- Whom the document will belong to. -/
  owner : String
  /-- What it will say. -/
  content : String
  /-- What its id will begin with. -/
  name : String
  deriving DecidableEq, Repr

/-- The document of a draft: its id is minted from the random bytes. -/
def Draft.document (d : Draft) (now : Timestamp) (e : Entropy) : Document × Entropy :=
  let (id, e) := Document.mintId d.name e
  (⟨id, d.owner, d.content, now⟩, e)

/-- A type of stores. Every operation may fail, and may change the store either way. -/
class Store (σ : Type) where
  /-- Add the document of a draft. -/
  insert : Draft → Timestamp → σ → Entropy → Except StoreError Document × σ × Entropy
  /-- Fetch the document of an id. -/
  get : String → σ → Except StoreError Document × σ
  /-- The documents of an owner, newest first. -/
  list : String → σ → Except StoreError (List Document) × σ
  /-- Delete the documents created before a cutoff; the answer is their number. -/
  deleteBefore : Timestamp → σ → Except StoreError Nat × σ

end Vault
