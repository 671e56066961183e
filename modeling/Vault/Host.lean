import Vault.Log
import Vault.Signal
import Vault.Store.Basic

/-!
# What sessions share

Every session, connection and sweep runs on a **host**: one store, one clock, one stream
of random bytes, one log and one shutdown signal.
-/

namespace Vault

/-- A store and what goes with it. -/
structure Host (σ : Type) where
  /-- The store. -/
  store : σ
  /-- What the clock says. -/
  now : Timestamp
  /-- The random bytes. -/
  entropy : Entropy
  /-- What was logged. -/
  log : Log := []
  /-- The shutdown signal. -/
  signal : Signal := {}

namespace Host

variable {σ : Type}

/-- Write a record to the log. -/
def record (h : Host σ) (r : LogRecord) : Host σ :=
  { h with log := h.log ++ [r] }

/-- Log a failure reported to a caller. -/
def recordStatus (h : Host σ) (s : Status) : Host σ :=
  h.record (Log.ofStatus s)

variable [Store σ]

/-- Add the document of a draft. -/
def insert (h : Host σ) (d : Draft) : Except StoreError Document × Host σ :=
  let (r, store, entropy) := Store.insert d h.now h.store h.entropy
  (r, { h with store, entropy })

/-- Fetch a document. -/
def get (h : Host σ) (id : String) : Except StoreError Document × Host σ :=
  let (r, store) := Store.get id h.store
  (r, { h with store })

/-- List the documents of an owner. -/
def list (h : Host σ) (owner : String) : Except StoreError (List Document) × Host σ :=
  let (r, store) := Store.list owner h.store
  (r, { h with store })

/-- Delete the documents created before a cutoff. -/
def deleteBefore (h : Host σ) (cutoff : Timestamp) : Except StoreError Nat × Host σ :=
  let (r, store) := Store.deleteBefore cutoff h.store
  (r, { h with store })

end Host

end Vault
