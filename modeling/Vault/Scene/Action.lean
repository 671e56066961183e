import Vault.Scene.Backend
import Vault.Session.Client
import Vault.Session.Server

/-!
# What can be done in a rehearsal, and what comes of it

A rehearsal is a list of **actions**, each with its **answer**. An action that would
have to wait for ever is answered by that; an action that makes no sense, because there
is no such stream or session, is refused.
-/

namespace Vault.Scene

/-- Which end of the last link that was opened. -/
inductive EndName where
  /-- The far end. -/
  | peer
  /-- The near end. -/
  | near
  deriving DecidableEq, Repr

/-- The make of a link. -/
inductive Make where
  /-- Of queues. -/
  | queues
  /-- Of pipes that hold this many bytes. -/
  | pipes (capacity : Nat)
  deriving DecidableEq, Repr

/-- Who takes the near end of a link. -/
inductive Role where
  /-- Nobody: it is worked by hand. -/
  | raw
  /-- The server's side of a session. -/
  | server
  /-- The service, in the background. -/
  | service
  deriving DecidableEq, Repr

/-- What is done to an envelope before it is sent. -/
structure Damage where
  /-- A position, from the end if negative, and the bits to change there. -/
  flip : Option (Int × UInt8) := none
  /-- How many bytes to keep. -/
  keep : Option Nat := none

/-- What a client asks of its session. -/
inductive Errand where
  /-- Send a message. -/
  | send (plain : Bytes)
  /-- Receive a message. -/
  | receive
  /-- Send a request and show the response. -/
  | call (r : Request)
  /-- Send a request for one document and show it. -/
  | fetch (r : Request)
  /-- Send a request for documents and show them. -/
  | fetchAll (r : Request)
  /-- Show the server's key. -/
  | serverKey
  /-- Say the last frame and wait for the server's. -/
  | close
  /-- Let go of the session. -/
  | drop

/-- One step of a rehearsal. -/
inductive Action where
  /-- Add documents of one draft. -/
  | insert (d : Draft) (times : Nat)
  /-- Fetch a document. -/
  | get (id : String)
  /-- List the documents of an owner. -/
  | list (owner : String)
  /-- Count the documents listed of an owner. -/
  | count (owner : String)
  /-- Delete the documents created before a cutoff. -/
  | deleteBefore (cutoff : Timestamp)
  /-- Delete the documents over an age. -/
  | sweep (maxAge : Duration)
  /-- Count the documents in memory. -/
  | size
  /-- Set the clock. -/
  | setClock (t : Timestamp)
  /-- Move the clock. -/
  | moveClock (d : Duration)
  /-- Close the file and open it again. -/
  | reopen (how : Backend.Reopening)
  /-- Tamper with the file. -/
  | tamper (t : Backend.Tampering)
  /-- Answer the bytes of a request. -/
  | dispatch (plain : Bytes)
  /-- Answer a request. -/
  | handle (r : Request)
  /-- Open a link. -/
  | openLink (make : Make) (role : Role)
  /-- Send a frame. -/
  | send (e : EndName) (f : Frame)
  /-- Receive a message. -/
  | receive (e : EndName)
  /-- Receive a frame. -/
  | readFrame (e : EndName)
  /-- Say the last frame. -/
  | finish (e : EndName) (last : Except Status Unit)
  /-- Write bytes, and perhaps close the lane after them. -/
  | writeRaw (b : Bytes) (halfClose : Bool)
  /-- Let go of an end. -/
  | dropEnd (e : EndName)
  /-- Send a key, drawn or given as a blob. -/
  | sendKey (e : EndName) (blob : Option Bytes)
  /-- Receive a key and agree on a secret. -/
  | derive (e : EndName)
  /-- Seal a message, damage the envelope and send it. -/
  | sendSealed (e : EndName) (plain : Bytes) (damage : Damage)
  /-- Receive an envelope and open it. -/
  | receiveSealed (e : EndName)
  /-- Ask something of the server's side of the session. -/
  | serve (c : Server.Call)
  /-- Look at the server's side of the session. -/
  | look
  /-- Connect a client. -/
  | connect (name : String) (e : EndName)
  /-- Ask something of a client's session. -/
  | client (name : String) (errand : Errand)
  /-- Connect a client to a server of its own in the background. -/
  | openSession (name : String) (call : Server.Call)
  /-- Wait for a server in the background. -/
  | join (name : String)
  /-- Raise or lower the shutdown signal. -/
  | shutdown (value : Bool)
  /-- Let go of the shutdown signal. -/
  | dropSignal
  /-- Look at the shutdown signal. -/
  | isCancelled
  /-- Wait for the shutdown signal. -/
  | cancelled
  /-- Start a sweeper. -/
  | sweeper (p : Retention.Policy)
  /-- Let the sweeper's time pass. -/
  | runMs (ms : Nat)
  /-- Wait for the sweeper. -/
  | waitSweeper (timeout : Duration)
  /-- Start the server on the network. -/
  | listen
  /-- Start a server that plays a part on the network. -/
  | pretend (frames : List Frame)
  /-- Stop the server on the network. -/
  | stopListening
  /-- Call the server on the network with a ping. -/
  | ping
  /-- Call the server on the network for a session. -/
  | dial (name : String) (m : Method)
  /-- Connect to the server on the network and take the far end. -/
  | dialRaw
  /-- Find the address of a server. -/
  | resolve (address : String)

/-- Why an action makes no sense. -/
inductive Refusal where
  /-- There is no such session. -/
  | noSession
  /-- There is no such end. -/
  | noStream
  /-- No secret was agreed on. -/
  | noSecret
  /-- No key was sent. -/
  | noKey
  /-- There is no store. -/
  | noStore
  /-- There is no server in the background. -/
  | noTask
  /-- There is no sweeper. -/
  | noSweeper
  deriving DecidableEq, Repr

/-- What went wrong. -/
inductive Failure where
  /-- In the store. -/
  | store (e : StoreError)
  /-- On the link. -/
  | link (e : LinkError)
  /-- In a session. -/
  | session (e : SessionError)
  /-- In the service. -/
  | service (e : ServiceError)
  /-- With the sweeper. -/
  | retention (e : RetentionError)
  /-- With keys or envelopes. -/
  | crypto (e : Crypto.Error)
  /-- With a request. -/
  | status (s : Status)

/-- What comes of an action. -/
inductive Answer where
  /-- It is done. -/
  | done
  /-- It would have to wait for ever. -/
  | pending
  /-- It makes no sense. -/
  | refused (r : Refusal)
  /-- It failed. -/
  | failed (f : Failure)
  /-- These documents were added, in this order, before the given failure if any. -/
  | inserted (ds : List Document) (failure : Option StoreError)
  /-- A document. -/
  | document (d : Document)
  /-- Documents. -/
  | documents (ds : List Document)
  /-- A number. -/
  | number (n : Nat)
  /-- The number of documents in memory. -/
  | size (n : Nat)
  /-- A time. -/
  | time (t : Timestamp)
  /-- Bytes. -/
  | bytes (b : Bytes)
  /-- A text. -/
  | text (s : String)
  /-- A truth value. -/
  | flag (b : Bool)
  /-- A message, or the end of the stream. -/
  | message (b : Option Bytes)
  /-- A frame, or the end of the stream. -/
  | frame (f : Option Frame)
  /-- The peer's key and the secret agreed on. -/
  | derived (peer : Bytes) (secret : Crypto.SharedSecret)
  /-- An envelope of this size was sent. -/
  | sent (n : Nat)
  /-- An envelope and what was in it. -/
  | opened (envelope plain : Bytes)
  /-- A response. -/
  | response (r : Response)
  /-- The answer to a request. -/
  | dispatched (r : Response)
  /-- The report of a sweeper. -/
  | report (r : Retention.Report)

/-- The documents in a response. -/
def documentsOf : Response → List Document
  | .document d => [d]
  | .documents ds => ds
  | .error _ => []

/-- The response in what an envelope held, if that is what it was. -/
def responseIn (plain : Bytes) : Option Response :=
  (Wire.decodeResponse plain).toOption

/-- The documents that an answer shows, in order. -/
def Answer.shown : Answer → List Document
  | inserted ds _ => ds
  | document d => [d]
  | documents ds => ds
  | response r => documentsOf r
  | dispatched r => documentsOf r
  | opened _ plain => ((responseIn plain).map documentsOf).getD []
  | _ => []

end Vault.Scene
