import Vault.Proofs.Store.Mirror
import Vault.Service.Connection

/-!
# Stores that keep a record of their calls

A store that is observed does what it would do anyhow, and writes down every call and how it
failed, if it did (`Vault.Observed`). Since sessions and connections see nothing of a store
but its operations, they cannot tell: a connection on an observed store does what it does on
the store itself (`Vault.Connection.advance_mapStore`). This holds of any map between stores
that goes along with their operations (`Vault.Store.Morphism`), and follows the machine from
the operations up.
-/

namespace Vault

/-! ### Calls -/

/-- A call of a store. -/
inductive StoreCall where
  /-- Add the document of a draft. -/
  | insert (d : Draft)
  /-- Fetch the document of an id. -/
  | get (id : String)
  /-- List the documents of an owner. -/
  | list (owner : String)
  /-- Delete the documents created before a cutoff. -/
  | deleteBefore (cutoff : Timestamp)
  deriving DecidableEq

/-- A call and how it failed, if it did. -/
structure Called where
  /-- The call. -/
  call : StoreCall
  /-- The failure. -/
  failure : Option StoreError
  deriving DecidableEq

/-- How an operation failed, if it did. -/
def failureOf {α : Type} : Except StoreError α → Option StoreError
  | .ok _ => none
  | .error e => some e

/-- **A store under observation**: the store, and the calls made on it. -/
structure Observed (σ : Type) where
  /-- The store. -/
  store : σ
  /-- The calls so far. -/
  calls : List Called := []

variable {σ τ : Type} [Store σ] [Store τ]

instance : Store (Observed σ) where
  insert d now s e :=
    let (x, store, e) := Store.insert d now s.store e
    (x, ⟨store, s.calls ++ [⟨.insert d, failureOf x⟩]⟩, e)
  get id s :=
    let (x, store) := Store.get id s.store
    (x, ⟨store, s.calls ++ [⟨.get id, failureOf x⟩]⟩)
  list owner s :=
    let (x, store) := Store.list owner s.store
    (x, ⟨store, s.calls ++ [⟨.list owner, failureOf x⟩]⟩)
  deleteBefore cutoff s :=
    let (x, store) := Store.deleteBefore cutoff s.store
    (x, ⟨store, s.calls ++ [⟨.deleteBefore cutoff, failureOf x⟩]⟩)

/-! ### Maps between stores -/

/-- **A map that goes along with the operations** of two stores, as far as requests use
them. -/
structure Store.Morphism (f : σ → τ) : Prop where
  insert (d : Draft) (now : Timestamp) (s : σ) (e : Entropy) : Store.insert d now (f s) e =
    ((Store.insert d now s e).1, f (Store.insert d now s e).2.1, (Store.insert d now s e).2.2)
  get (id : String) (s : σ) : Store.get id (f s) = ((Store.get id s).1, f (Store.get id s).2)
  list (owner : String) (s : σ) :
    Store.list owner (f s) = ((Store.list owner s).1, f (Store.list owner s).2)

/-- To forget the record goes along with the operations. -/
theorem Observed.morphism_store : Store.Morphism (Observed.store (σ := σ)) :=
  ⟨fun _ _ _ _ => rfl, fun _ _ => rfl, fun _ _ => rfl⟩

section Maps

variable {f : σ → τ}

/-- What an addition comes to is the same on both hosts, the random bytes that are left included. -/
theorem Host.insert_mapStore (hf : Store.Morphism f) (h : Host σ) (d : Draft) :
    (h.mapStore f).insert d = ((h.insert d).1, (h.insert d).2.mapStore f) := by
  simp only [insert, mapStore, hf.insert]

theorem Host.get_mapStore (hf : Store.Morphism f) (h : Host σ) (id : String) :
    (h.mapStore f).get id = ((h.get id).1, (h.get id).2.mapStore f) := by
  simp only [get, mapStore, hf.get]

theorem Host.list_mapStore (hf : Store.Morphism f) (h : Host σ) (owner : String) :
    (h.mapStore f).list owner = ((h.list owner).1, (h.list owner).2.mapStore f) := by
  simp only [list, mapStore, hf.list]

/-! ### Requests -/

namespace Dispatch

omit [Store σ] [Store τ] in
/-- An answer is made of what the store says, and what is logged with it does not depend on the
store. -/
theorem answer_mapStore {α : Type} {g : α → Host σ → Response × Host σ}
    {g' : α → Host τ → Response × Host τ}
    (hg : ∀ a h, g' a (h.mapStore f) = ((g a h).1, (g a h).2.mapStore f))
    (x : Except StoreError α) (h : Host σ) :
    answer g' (x, h.mapStore f) = ((answer g (x, h)).1, (answer g (x, h)).2.mapStore f) := by
  rcases x with e | a
  · cases e <;> rfl
  · simp only [answer, hg]

omit [Store σ] [Store τ] in
theorem trim_mapStore (ds : List Document) (h : Host σ) :
    trim ds (h.mapStore f) = ((trim ds h).1, (trim ds h).2.mapStore f) := by
  unfold trim
  dsimp only
  split_ifs <;> rfl

/-- Each request is one operation of the store and an answer. -/
theorem perform_mapStore (hf : Store.Morphism f) (r : Request) (h : Host σ) :
    perform r (h.mapStore f) = ((perform r h).1, (perform r h).2.mapStore f) := by
  cases r with
  | add owner content name =>
    rw [perform, Host.insert_mapStore hf]
    exact answer_mapStore (fun _ _ => rfl) _ _
  | get id =>
    rw [perform, Host.get_mapStore hf]
    exact answer_mapStore (fun _ _ => rfl) _ _
  | list owner =>
    rw [perform, Host.list_mapStore hf]
    refine answer_mapStore (fun ds h => ?_) _ _
    rw [trim_mapStore]

/-- **A request cannot tell** which of the two stores it is carried out on. -/
theorem dispatch_mapStore (hf : Store.Morphism f) (b : Bytes) (h : Host σ) :
    dispatch b (h.mapStore f) = ((dispatch b h).1, (dispatch b h).2.mapStore f) := by
  rw [dispatch, dispatch]
  rcases Wire.decodeRequest b with e | r
  · rfl
  have hhandle : handle r (h.mapStore f) = ((handle r h).1, (handle r h).2.mapStore f) := by
    rw [handle, handle]
    rcases r.validate with s | _
    · rfl
    · exact perform_mapStore hf r h
  dsimp only
  rw [hhandle]
  rcases handle r h with ⟨s | response, h'⟩
  · dsimp only
    split_ifs <;> rfl
  · rfl

end Dispatch

/-! ### Sessions -/

namespace Server

/-- The turn on a host with another store. -/
def Turn.mapStore (f : σ → τ) (t : Turn σ) : Turn τ := ⟨t.phase, t.host.mapStore f, t.next⟩

omit [Store σ] [Store τ] in
theorem close_mapStore (p : Phase) (h : Host σ) (last : Except Status Unit) (result : Outcome)
    (watched : Bool) :
    close p (h.mapStore f) last result watched = (close p h last result watched).mapStore f := by
  obtain ⟨name, shared⟩ := p
  cases name <;> rfl

omit [Store σ] [Store τ] in
/-- What a session ends with and what is logged about it is said without the store. -/
theorem terminate_mapStore (p : Phase) (h : Host σ) (e : SessionError) (watched : Bool) :
    terminate p (h.mapStore f) e watched = (terminate p h e watched).mapStore f := by
  unfold terminate
  dsimp only
  rw [← close_mapStore]
  cases e <;> rfl

omit [Store σ] [Store τ] in
theorem nextInbound_mapStore (p : Phase) (h : Host σ) :
    nextInbound p (h.mapStore f) = (nextInbound p h).mapStore f := by
  unfold nextInbound
  rw [show (h.mapStore f).signal = h.signal from rfl]
  split_ifs
  · exact close_mapStore p h _ _ _
  · cases p.name <;> rfl

omit [Store σ] [Store τ] in
theorem proceed_mapStore (call : Call) (p : Phase) (h : Host σ) :
    proceed call p (h.mapStore f) = (proceed call p h).mapStore f := by
  rw [proceed, proceed]
  split_ifs
  · exact nextInbound_mapStore p h
  · rfl

omit [Store σ] [Store τ] in
theorem reply_mapStore (p : Phase) (h : Host σ) (plain : Bytes) :
    reply p (h.mapStore f) plain = (reply p h plain).mapStore f := by
  obtain ⟨name, _ | secret⟩ := p
  · cases name <;> rfl
  cases name with
  | established =>
    rw [reply_established, reply_established, show (h.mapStore f).entropy = h.entropy from rfl]
    rcases Crypto.Envelope.sealFresh secret plain h.entropy with ⟨e | envelope, entropy⟩
    · exact terminate_mapStore (.established secret) { h with entropy } (.crypto e) false
    · rfl
  | _ => rfl

omit [Store σ] [Store τ] in
/-- The keys are drawn from the host's random bytes, which are not the store's. -/
theorem handshake_mapStore (p : Phase) (h : Host σ) (peer : Bytes) :
    handshake p (h.mapStore f) peer = (handshake p h peer).mapStore f := by
  rw [handshake, handshake, show (h.mapStore f).entropy = h.entropy from rfl]
  rcases Crypto.KeyPair.generate h.entropy with ⟨pair, entropy⟩
  rcases Crypto.PublicKey.ofBytes peer with e | key
  · exact terminate_mapStore ⟨.handshaking, p.shared⟩ { h with entropy } _ _
  · dsimp only
    rcases pair.agree key with e | secret
    · exact terminate_mapStore ⟨.handshaking, p.shared⟩ { h with entropy } _ _
    · rfl

/-- Only a session that serves calls the store, and that by way of a request. -/
theorem opened_mapStore (hf : Store.Morphism f) (call : Call) (p : Phase) (h : Host σ)
    (plain : Bytes) : opened call p (h.mapStore f) plain = (opened call p h plain).mapStore f := by
  cases call with
  | serve =>
    rw [opened, opened, Dispatch.dispatch_mapStore hf]
    rcases Dispatch.dispatch plain h with ⟨s | response, h'⟩
    · exact terminate_mapStore p h' _ _
    · exact reply_mapStore p h' _
  | echo => exact reply_mapStore p h plain
  | _ => rfl

/-- What is made of a frame that was received: it is opened with the secret first, and that is the
same on both hosts. -/
theorem received_mapStore (hf : Store.Morphism f) (call : Call) (p : Phase) (h : Host σ)
    (r : Receiving) (x : Except LinkError (Option Frame)) :
    received call p (h.mapStore f) r x = (received call p h r x).mapStore f := by
  cases r with
  | peerKey =>
    unfold received receivedKey
    dsimp only
    rcases Link.inbound x with e | _ | peer
    · cases e <;> exact terminate_mapStore p h _ _
    · exact terminate_mapStore p h _ _
    · exact handshake_mapStore p h peer
  | request =>
    unfold received receivedRequest
    dsimp only
    rcases Link.inbound x with e | _ | envelope
    · exact terminate_mapStore p h _ _
    · exact close_mapStore p h _ _ _
    · obtain ⟨name, _ | secret⟩ := p
      · rfl
      · dsimp only
        rcases Crypto.Envelope.reveal secret envelope with e | plain
        · exact terminate_mapStore ⟨name, some secret⟩ h _ _
        · exact opened_mapStore hf call ⟨name, some secret⟩ h plain

omit [Store σ] [Store τ] in
theorem delivered_mapStore (call : Call) (p : Phase) (h : Host σ) (d : Delivering)
    (x : Except LinkError Unit) :
    delivered call p (h.mapStore f) d x = (delivered call p h d x).mapStore f := by
  unfold delivered
  cases d with
  | closing last result watched => rfl
  | key k secret =>
    cases x with
    | ok u => exact proceed_mapStore call (.established secret) h
    | error e => exact terminate_mapStore p h _ _
  | reply envelope =>
    cases x with
    | ok u => exact proceed_mapStore call p h
    | error e => exact terminate_mapStore p h _ _

/-- The outcome of a try on a host with another store. -/
def mapPoll (f : σ → τ) : Link × Poll Running (Turn σ) → Link × Poll Running (Turn τ)
  | (link, .ready t) => (link, .ready (t.mapStore f))
  | (link, .waiting r) => (link, .waiting r)

/-- **One try of a session** does the same to the link, whatever the store. -/
theorem attempt_mapStore (hf : Store.Morphism f) (r : Running) (link : Link) (side : Side)
    (h : Host σ) :
    attempt r link side (h.mapStore f) = mapPoll f (attempt r link side h) := by
  rw [attempt, attempt, show (h.mapStore f).signal = h.signal from rfl]
  split_ifs
  · rw [interrupted, close_mapStore]
    rfl
  · obtain ⟨call, phase, waiting, reading, rest⟩ := r
    cases waiting with
    | receive what =>
      dsimp only
      rcases link.receive side reading with ⟨link', x | reading'⟩
      · dsimp only
        rw [received_mapStore hf]
        rfl
      · rfl
    | deliver what =>
      dsimp only
      rcases what.attempt link side rest with ⟨link', x | rest'⟩
      · dsimp only
        rw [delivered_mapStore]
        rfl
      · rfl

/-- The outcome of a run on a host with another store. -/
def mapRun {ι : Type} (f : σ → τ) (x : ι × Link × Host σ) : ι × Link × Host τ :=
  (x.1, x.2.1, x.2.2.mapStore f)

/-- A session that goes on as far as it can does so in the same tries. -/
theorem runTurn_mapStore (hf : Store.Morphism f) (call : Call) (side : Side) (fuel : ℕ)
    (t : Turn σ) (link : Link) :
    runTurn call side fuel (t.mapStore f) link = mapRun f (runTurn call side fuel t link) := by
  -- on the number of tries that are left, for any turn and any link
  induction fuel generalizing t link with
  | zero =>
    obtain ⟨phase, h, waiting | result⟩ := t
    · rfl
    · rfl
  | succ fuel ih =>
    obtain ⟨phase, h, waiting | result⟩ := t
    · rw [runTurn, runTurn]
      dsimp only [Turn.mapStore]
      rw [attempt_mapStore hf]
      rcases attempt { call, phase, waiting } link side h with ⟨link', t' | r'⟩
      · exact ih t' link'
      · rfl
    · rfl

omit [Store σ] [Store τ] in
theorem start_mapStore (call : Call) (p : Phase) (h : Host σ) :
    start call p (h.mapStore f) = (start call p h).mapStore f := by
  obtain ⟨name, shared⟩ := p
  cases call with
  | respond plain => exact reply_mapStore ⟨name, shared⟩ h plain
  | serve => cases name <;> first | rfl | exact nextInbound_mapStore _ h
  | echo => cases name <;> first | rfl | exact nextInbound_mapStore _ h
  | _ => cases name <;> rfl

theorem resume_mapStore (hf : Store.Morphism f) (r : Running) (side : Side) (link : Link)
    (h : Host σ) : resume r side link (h.mapStore f) = mapRun f (resume r side link h) := by
  rw [resume, resume, attempt_mapStore hf]
  rcases attempt r link side h with ⟨link', t' | r'⟩
  · exact runTurn_mapStore hf r.call side _ t' link'
  · rfl

end Server

/-! ### Connections -/

namespace Connection

open Server (mapRun)

omit [Store σ] [Store τ] in
theorem ofRun_mapRun (x : Server.Stop × Link × Host σ) :
    ofRun (mapRun f x) = mapRun f (ofRun x) := by
  obtain ⟨r | ⟨p, e | a⟩, link, h⟩ := x <;> rfl

/-- **A connection cannot tell**: on a host with another store that goes along with its own, it
does the same. -/
theorem advance_mapStore (hf : Store.Morphism f) (c : Connection) (side : Side) (link : Link)
    (h : Host σ) : c.advance side link (h.mapStore f) = mapRun f (c.advance side link h) := by
  have hsession (call : Server.Call) (link : Link) :
      runSession call side link (h.mapStore f) = mapRun f (runSession call side link h) := by
    rw [runSession, Server.run, Server.start_mapStore, Server.runTurn_mapStore hf, ofRun_mapRun]
    rfl
  cases c with
  | opening reading =>
    rw [advance, advance]
    rcases link.receive side reading with ⟨link', (e | _ | f) | reading'⟩
    · rfl
    · rfl
    · rcases f with m | m | _ | s
      · cases m with
        | ping => rfl
        | echo => exact hsession .echo link'
        | session => exact hsession .serve link'
      · rfl
      · rfl
      · rfl
    · rfl
  | acknowledging rest => rfl
  | refusing e s rest => rfl
  | session r =>
    rw [advance, advance, Server.resume_mapStore hf, ofRun_mapRun]
  | ended result => rfl

end Connection

end Maps

end Vault
