import Vault.Frame
import Vault.Host
import Vault.Wire.Request

/-!
# Answering requests

`Vault.Dispatch.handle` carries out one request on the store of a host, and
`Vault.Dispatch.dispatch` does so for the bytes of a request. A failure that concerns
this one request is an answer like any other; a failure of the vault, or bytes that are
no request, is a status with which the session ends. What a store says about its
failures goes to the log and not to the caller.

A listing is cut to what fits one frame: the longest run of documents from the front
whose encodings take no more than `Vault.Dispatch.maxListBytes` together.
-/

namespace Vault.Dispatch

variable {σ : Type}

/-- The room left in a frame for what is wrapped around a listing. -/
def headroom : Nat := 1024

/-- The greatest total size of the encodings of listed documents. -/
def maxListBytes : Nat := Frame.maxLength - headroom

/-- How many documents from the front fit, when encodings of this total size stand before
them. -/
def fitting : Nat → List Document → Nat
  | _, [] => 0
  | total, d :: ds =>
    let total := total + (Wire.writeDocument d).size
    if maxListBytes < total then 0 else fitting total ds + 1

/-- The listing that fits one frame. -/
def fitToFrame (ds : List Document) : List Document :=
  ds.take (fitting 0 ds)

/-- The record of a listing that was cut. -/
def trimmed (kept dropped : Nat) : LogRecord :=
  ⟨.warn, "list response trimmed to fit one frame",
    [("kept", toString kept), ("dropped", toString dropped)]⟩

/-- Cut a listing to what fits one frame, and log it if anything is cut. -/
def trim (ds : List Document) (h : Host σ) : List Document × Host σ :=
  let kept := fitToFrame ds
  if kept.length < ds.length then
    (kept, h.record (trimmed kept.length (ds.length - kept.length)))
  else (kept, h)

/-- The record of a failed store. -/
def storageFailure (e : StoreError) : LogRecord :=
  ⟨.error, "storage failure", [("error", e.message)]⟩

/-- What the caller is told about a failed store, and what is logged. -/
def storeStatus (e : StoreError) (h : Host σ) : Status × Host σ :=
  match e with
  | .notFound _ => (.notFound "document not found", h)
  | e => (.internal "storage failure", h.record (storageFailure e))

/-- The answer made from the outcome of the store. -/
def answer {α : Type} (f : α → Host σ → Response × Host σ) (r : Except StoreError α × Host σ) :
    Except Status Response × Host σ :=
  match r with
  | (.ok a, h) =>
    let (response, h) := f a h
    (.ok response, h)
  | (.error e, h) =>
    let (s, h) := storeStatus e h
    (.error s, h)

variable [Store σ]

/-- Carry out a request whose fields are long enough. -/
def perform (r : Request) (h : Host σ) : Except Status Response × Host σ :=
  match r with
  | .add owner content name =>
    answer (fun d h => (.document d, h)) (h.insert ⟨owner, content, name⟩)
  | .get id => answer (fun d h => (.document d, h)) (h.get id)
  | .list owner =>
    answer (fun ds h =>
      let (ds, h) := trim ds h
      (.documents ds, h)) (h.list owner)

/-- Check and carry out a request. -/
def handle (r : Request) (h : Host σ) : Except Status Response × Host σ :=
  match r.validate with
  | .error s => (.error s, h)
  | .ok _ => perform r h

/-- Decode, check and carry out a request. -/
def dispatch (b : Bytes) (h : Host σ) : Except Status Response × Host σ :=
  match Wire.decodeRequest b with
  | .error e => (.error e.status, h.recordStatus e.status)
  | .ok r =>
    match handle r h with
    | (.ok response, h) => (.ok response, h)
    | (.error s, h) =>
      if s.kind.isClientError then (.ok (.error s), h.recordStatus s) else (.error s, h)

end Vault.Dispatch
