import Vault.Proofs.Service.Answers

/-!
# What a peer gets to know of a failing store

Two stores are **indistinct** (`Vault.Store.Indistinct`) if, called alike, they do alike: where
one succeeds so does the other and with the same result, and where one fails so does the other,
over a missing document in both or over anything else in both. What they say about it may
differ, and so may the kind of failure.

A peer cannot tell two such stores apart (`Vault.Parley.peer_learns_no_storage_details`). The
peer is any program with a memory of its own that does to its end of the link what it likes, and
between its moves the session runs, other calls are made, time goes by. Both sessions are then at
the same place, the links hold the same bytes and the peer remembers the same. Only the logs
differ, in what the records of storage failures say.

The argument is a simulation: hosts are alike (`Vault.Host.Alike`), and every function of the
session takes alike hosts to the same result and to alike hosts. The one point with more to it is
the stream of random bytes. A store may take bytes off it before it fails or not take any, so
after a failure that ends the session the streams need not agree; but no such session ever draws
from it again, because all it has left is its last frame (`Vault.Server.Over`).
-/

namespace Vault

variable {σ τ : Type}

/-! ### Stores that do alike -/

/-- **Outcomes that are alike**: the same result, or two failures of which both or neither is a
missing document. -/
def Similar {α : Type} : Except StoreError α → Except StoreError α → Prop
  | .ok a, .ok b => a = b
  | .error e, .error e' => e.isNotFound = e'.isNotFound
  | _, _ => False

/-- An outcome after which a session goes on. -/
def Bearable {α : Type} : Except StoreError α → Prop
  | .ok _ => True
  | .error e => e.isNotFound = true

/-- **A relation under which stores do alike**, as far as requests use them. After a call that a
session survives the same random bytes are left. -/
structure Store.Twins [Store σ] [Store τ] (R : σ → τ → Prop) : Prop where
  insert {s : σ} {t : τ} (h : R s t) (d : Draft) (now : Timestamp) (e : Entropy) :
    Similar (Store.insert d now s e).1 (Store.insert d now t e).1 ∧
      R (Store.insert d now s e).2.1 (Store.insert d now t e).2.1 ∧
      (Bearable (Store.insert d now s e).1 →
        (Store.insert d now s e).2.2 = (Store.insert d now t e).2.2)
  get {s : σ} {t : τ} (h : R s t) (id : String) :
    Similar (Store.get id s).1 (Store.get id t).1 ∧ R (Store.get id s).2 (Store.get id t).2
  list {s : σ} {t : τ} (h : R s t) (owner : String) :
    Similar (Store.list owner s).1 (Store.list owner t).1 ∧
      R (Store.list owner s).2 (Store.list owner t).2

/-- **Two stores that do alike**, however they are called. -/
def Store.Indistinct [Store σ] [Store τ] (s : σ) (t : τ) : Prop :=
  ∃ R : σ → τ → Prop, Store.Twins R ∧ R s t

/-! ### Hosts that are alike -/

/-- A record without what it says about a failed store. -/
def LogRecord.redacted (r : LogRecord) : LogRecord :=
  if r.message = "storage failure" then { r with fields := [] } else r

/-- **Hosts that are alike**: the stores are related, and all else is the same, but for what the
log says about failed stores; the random bytes are, if it still matters. -/
structure Host.Alike (R : σ → τ → Prop) (live : Prop) (h : Host σ) (h' : Host τ) : Prop where
  store : R h.store h'.store
  now : h.now = h'.now
  signal : h.signal = h'.signal
  log : h.log.map LogRecord.redacted = h'.log.map LogRecord.redacted
  entropy : live → h.entropy = h'.entropy

/-- **The same result, on hosts that are alike**, and with random bytes as far as the result
asks for them. -/
def Host.Agree {α : Type} (R : σ → τ → Prop) (live : α → Prop) (x : α × Host σ)
    (y : α × Host τ) : Prop :=
  x.1 = y.1 ∧ Host.Alike R (live x.1) x.2 y.2

namespace Host

variable {R : σ → τ → Prop} {live live' : Prop} {h : Host σ} {h' : Host τ}

theorem Alike.mono (hh : Alike R live h h') (hlive : live' → live) : Alike R live' h h' :=
  { hh with entropy := fun hl => hh.entropy (hlive hl) }

theorem Alike.record_of_redacted (hh : Alike R live h h') {r r' : LogRecord}
    (hr : r.redacted = r'.redacted) : Alike R live (h.record r) (h'.record r') := by
  refine { hh with log := ?_ }
  simp only [record, List.map_append, hh.log, List.map_cons, hr]

theorem Alike.record (hh : Alike R live h h') (r : LogRecord) :
    Alike R live (h.record r) (h'.record r) :=
  hh.record_of_redacted rfl

theorem Alike.withEntropy (hh : Alike R live h h') (e : Entropy) :
    Alike R live { h with entropy := e } { h' with entropy := e } :=
  ⟨hh.store, hh.now, hh.signal, hh.log, fun _ => rfl⟩

variable [Store σ] [Store τ]

theorem Alike.insert (hR : Store.Twins R) (hh : Alike R True h h') (d : Draft) :
    Similar (h.insert d).1 (h'.insert d).1 ∧
      Alike R (Bearable (h.insert d).1) (h.insert d).2 (h'.insert d).2 := by
  obtain ⟨hout, hstore, hbytes⟩ := hR.insert hh.store d h.now h.entropy
  rw [hh.now, hh.entropy trivial] at hout hstore hbytes
  rw [Host.insert, Host.insert, hh.now, hh.entropy trivial]
  exact ⟨hout, hstore, rfl, hh.signal, hh.log, hbytes⟩

theorem Alike.get (hR : Store.Twins R) (hh : Alike R live h h') (id : String) :
    Similar (h.get id).1 (h'.get id).1 ∧ Alike R live (h.get id).2 (h'.get id).2 :=
  ⟨(hR.get hh.store id).1, { hh with store := (hR.get hh.store id).2 }⟩

theorem Alike.list (hR : Store.Twins R) (hh : Alike R live h h') (owner : String) :
    Similar (h.list owner).1 (h'.list owner).1 ∧
      Alike R live (h.list owner).2 (h'.list owner).2 :=
  ⟨(hR.list hh.store owner).1, { hh with store := (hR.list hh.store owner).2 }⟩

end Host

/-! ### Requests -/

namespace Dispatch

open Host (Alike Agree)

variable {R : σ → τ → Prop} {live : Prop} {h : Host σ} {h' : Host τ}

/-- What comes of a request that does not end the session. -/
def Mild : Except Status Response → Prop
  | .ok _ => True
  | .error s => s.kind.isClientError = true

/-- Failures that differ in what they say are one to the caller. -/
theorem storeStatus_agree {e e' : StoreError} (he : e.isNotFound = e'.isNotFound)
    (hh : Alike R (e.isNotFound = true) h h') :
    Agree R (fun s => s.kind.isClientError = true) (storeStatus e h) (storeStatus e' h') := by
  have hfailed {e e' : StoreError} :
      (storageFailure e).redacted = (storageFailure e').redacted := by
    simp [LogRecord.redacted, storageFailure]
  cases e with
  | notFound id =>
    cases e' with
    | notFound id' => exact ⟨rfl, hh.mono fun _ => rfl⟩
    | _ => cases he
  | _ =>
    cases e' with
    | notFound id' => cases he
    | _ => exact ⟨rfl, (hh.mono fun hclient => by cases hclient).record_of_redacted hfailed⟩

theorem answer_agree {α : Type} {g : α → Host σ → Response × Host σ}
    {g' : α → Host τ → Response × Host τ}
    (hg : ∀ a {h h'}, Alike R True h h' → Agree R (fun _ => True) (g a h) (g' a h'))
    {x x' : Except StoreError α} (hx : Similar x x') (hh : Alike R (Bearable x) h h') :
    Agree R Mild (answer g (x, h)) (answer g' (x', h')) := by
  rcases x with e | a
  · rcases x' with e' | a'
    · obtain ⟨hs, hagree⟩ := storeStatus_agree hx hh
      exact ⟨congrArg Except.error hs, hagree⟩
    · exact hx.elim
  · rcases x' with e' | a'
    · exact hx.elim
    · cases hx
      exact ⟨congrArg Except.ok (hg a hh).1, (hg a hh).2⟩

theorem trim_agree (ds : List Document) (hh : Alike R live h h') :
    Agree R (fun _ => live) (trim ds h) (trim ds h') := by
  unfold trim
  dsimp only
  split_ifs
  · exact ⟨rfl, hh.record _⟩
  · exact ⟨rfl, hh⟩

variable [Store σ] [Store τ]

theorem perform_agree (hR : Store.Twins R) (hh : Alike R True h h') (r : Request) :
    Agree R Mild (perform r h) (perform r h') := by
  cases r with
  | add owner content name =>
    obtain ⟨hout, halike⟩ := hh.insert hR ⟨owner, content, name⟩
    exact answer_agree (R := R) (fun _ _ _ hh => ⟨rfl, hh⟩) hout halike
  | get id =>
    obtain ⟨hout, halike⟩ := hh.get hR id
    exact answer_agree (R := R) (fun _ _ _ hh => ⟨rfl, hh⟩) hout (halike.mono fun _ => trivial)
  | list owner =>
    obtain ⟨hout, halike⟩ := hh.list hR owner
    refine answer_agree (fun ds _ _ hh => ?_) hout (halike.mono fun _ => trivial)
    obtain ⟨hds, hh⟩ := trim_agree ds hh
    exact ⟨congrArg Response.documents hds, hh⟩

/-- **A request has the same answer**, and after an answer the random bytes are the same. -/
theorem dispatch_agree (hR : Store.Twins R) (hh : Alike R True h h') (b : Bytes) :
    Agree R (fun x => ∃ response, x = .ok response) (dispatch b h) (dispatch b h') := by
  rw [dispatch, dispatch]
  rcases Wire.decodeRequest b with e | r
  · exact ⟨rfl, (hh.record _).mono fun _ => trivial⟩
  have hhandle : Agree R Mild (handle r h) (handle r h') := by
    rw [handle, handle]
    rcases r.validate with s | _
    · exact ⟨rfl, hh.mono fun _ => trivial⟩
    · exact perform_agree hR hh r
  dsimp only
  generalize handle r h = x at hhandle
  generalize handle r h' = y at hhandle
  obtain ⟨x, h₁⟩ := x
  obtain ⟨y, h₂⟩ := y
  obtain ⟨hxy, halike⟩ := hhandle
  dsimp only at hxy halike
  subst hxy
  rcases x with s | response
  · dsimp only
    split_ifs with hclient
    · exact ⟨rfl, (halike.mono fun _ => hclient).record _⟩
    · -- from here on the random bytes may differ, and the status says that nothing follows
      exact ⟨rfl, halike.mono fun hok => by cases hok.choose_spec⟩
  · exact ⟨rfl, halike.mono fun _ => trivial⟩

end Dispatch

/-! ### Sessions -/

namespace Server

open Host (Alike)

variable {R : σ → τ → Prop} {h : Host σ} {h' : Host τ}

/-- **Nothing but the last frame is left**: the session is over, and at most that frame is still
on its way. -/
def Over (p : Phase) : Waiting ⊕ Outcome → Prop
  | .inl (.deliver (.closing _ _ _)) => p.name = .terminated
  | .inr _ => p.name = .terminated
  | _ => False

/-- Turns that are alike. -/
structure Turn.Alike (R : σ → τ → Prop) (t : Turn σ) (t' : Turn τ) : Prop where
  phase : t.phase = t'.phase
  next : t.next = t'.next
  host : Host.Alike R (¬Over t.phase t.next) t.host t'.host

theorem close_alike {live : Prop} (hh : Alike R live h h') (p : Phase)
    (last : Except Status Unit) (result : Outcome) (watched : Bool) :
    (close p h last result watched).Alike R (close p h' last result watched) := by
  by_cases hp : p.name = .terminated
  · rw [close_of_over hp, close_of_over hp]
    exact ⟨rfl, rfl, hh.mono fun hover => absurd hp hover⟩
  · rw [close_of_open hp, close_of_open hp]
    exact ⟨rfl, rfl, hh.mono fun hover => absurd rfl hover⟩

theorem terminate_alike {live : Prop} (hh : Alike R live h h') (p : Phase) (e : SessionError)
    (watched : Bool) : (terminate p h e watched).Alike R (terminate p h' e watched) := by
  unfold terminate
  cases e with
  | status s => exact close_alike hh p _ _ _
  | _ => exact close_alike (hh.record _) p _ _ _

theorem refuse_alike {p : Phase} (hh : Alike R (p.name ≠ .terminated) h h') (expected : PhaseName) :
    (refuse p h expected).Alike R (refuse p h' expected) :=
  ⟨rfl, rfl, hh⟩

theorem nextInbound_alike {p : Phase} (hh : Alike R (p.name ≠ .terminated) h h') :
    (nextInbound p h).Alike R (nextInbound p h') := by
  unfold nextInbound
  rw [hh.signal]
  split_ifs
  · exact close_alike hh p _ _ _
  · obtain ⟨name, shared⟩ := p
    cases name with
    | established => exact ⟨rfl, rfl, hh.mono fun _ => by simp⟩
    | _ => exact refuse_alike hh _

theorem proceed_alike {p : Phase} (hh : Alike R (p.name ≠ .terminated) h h') (call : Call) :
    (proceed call p h).Alike R (proceed call p h') := by
  rw [proceed, proceed]
  split_ifs
  · exact nextInbound_alike hh
  · exact ⟨rfl, rfl, hh⟩

theorem reply_alike {p : Phase} (hh : Alike R (p.name ≠ .terminated) h h') (plain : Bytes) :
    (reply p h plain).Alike R (reply p h' plain) := by
  obtain ⟨name, _ | secret⟩ := p
  · cases name <;> exact refuse_alike hh _
  cases name with
  | established =>
    have hlive : (Phase.established secret).name ≠ .terminated := by simp
    rw [reply_established, reply_established, ← hh.entropy hlive]
    rcases Crypto.Envelope.sealFresh secret plain h.entropy with ⟨e | envelope, entropy⟩
    · exact terminate_alike (hh.withEntropy entropy) _ _ _
    · exact ⟨rfl, rfl, (hh.withEntropy entropy).mono fun _ => hlive⟩
  | _ => exact refuse_alike hh _

theorem handshake_alike (hh : Alike R True h h') (p : Phase) (peer : Bytes) :
    (handshake p h peer).Alike R (handshake p h' peer) := by
  rw [handshake, handshake, ← hh.entropy trivial]
  rcases Crypto.KeyPair.generate h.entropy with ⟨pair, entropy⟩
  have hdrawn : Alike R True { h with entropy } { h' with entropy } := hh.withEntropy entropy
  rcases Crypto.PublicKey.ofBytes peer with e | key
  · exact terminate_alike hdrawn _ _ _
  · dsimp only
    rcases pair.agree key with e | secret
    · exact terminate_alike hdrawn _ _ _
    · exact ⟨rfl, rfl, hdrawn.mono fun _ => trivial⟩

variable [Store σ] [Store τ]

theorem opened_alike (hR : Store.Twins R) (hh : Alike R True h h') (call : Call) (p : Phase)
    (plain : Bytes) : (opened call p h plain).Alike R (opened call p h' plain) := by
  cases call with
  | serve =>
    obtain ⟨hresult, halike⟩ := Dispatch.dispatch_agree hR hh plain
    rw [opened, opened]
    generalize Dispatch.dispatch plain h = x at hresult halike
    generalize Dispatch.dispatch plain h' = y at hresult halike
    obtain ⟨x, h₁⟩ := x
    obtain ⟨y, h₂⟩ := y
    dsimp only at hresult halike
    subst hresult
    rcases x with s | response
    · exact terminate_alike halike _ _ _
    · exact reply_alike (halike.mono fun _ => ⟨response, rfl⟩) _
  | echo => exact reply_alike (hh.mono fun _ => trivial) plain
  | _ => exact ⟨rfl, rfl, hh.mono fun _ => trivial⟩

theorem received_alike (hR : Store.Twins R) (hh : Alike R True h h') (call : Call) (p : Phase)
    (r : Receiving) (x : Except LinkError (Option Frame)) :
    (received call p h r x).Alike R (received call p h' r x) := by
  cases r with
  | peerKey =>
    rw [received, received]
    unfold receivedKey
    rcases Link.inbound x with e | _ | peer
    · cases e <;> exact terminate_alike hh _ _ _
    · exact terminate_alike hh _ _ _
    · exact handshake_alike hh p peer
  | request =>
    rw [received, received]
    unfold receivedRequest
    rcases Link.inbound x with e | _ | envelope
    · exact terminate_alike hh _ _ _
    · exact close_alike hh _ _ _ _
    · rcases p.shared with _ | secret
      · exact refuse_alike (hh.mono fun _ => trivial) _
      · dsimp only
        rcases Crypto.Envelope.reveal secret envelope with e | plain
        · exact terminate_alike hh _ _ _
        · exact opened_alike hR hh call _ plain

omit [Store σ] [Store τ] in
theorem delivered_alike {p : Phase} {d : Delivering}
    (hh : Alike R (¬Over p (.inl (.deliver d))) h h') (call : Call)
    (x : Except LinkError Unit) :
    (delivered call p h d x).Alike R (delivered call p h' d x) := by
  cases d with
  | key k secret =>
    have hlive : Alike R True h h' := hh.mono fun _ => not_false
    rcases x with e | _
    · exact terminate_alike hh p (.link e) false
    · exact proceed_alike (hlive.mono fun _ => trivial) call
  | reply envelope =>
    have hlive : Alike R True h h' := hh.mono fun _ => not_false
    rcases x with e | _
    · exact terminate_alike hh p (.link e) false
    · exact proceed_alike (hlive.mono fun _ => trivial) call
  | closing last result watched => exact ⟨rfl, rfl, hh⟩

/-- **One attempt.** What is done on the link is the same, and so is what it comes to. -/
theorem attempt_alike (hR : Store.Twins R) (r : Running)
    (hh : Alike R (¬Over r.phase (.inl r.waiting)) h h') (link : Link) (side : Side) :
    ∃ link' : Link,
      (∃ r' : Running, attempt r link side h = (link', .waiting r') ∧
        attempt r link side h' = (link', .waiting r') ∧
        r'.phase = r.phase ∧ r'.waiting = r.waiting) ∨
      ∃ (t : Turn σ) (t' : Turn τ), attempt r link side h = (link', .ready t) ∧
        attempt r link side h' = (link', .ready t') ∧ t.Alike R t' := by
  obtain ⟨call, p, waiting, reading, rest⟩ := r
  rw [attempt, attempt, ← hh.signal]
  dsimp only at hh ⊢
  split_ifs with hstop
  · exact ⟨link, Or.inr ⟨_, _, rfl, rfl, close_alike hh _ _ _ _⟩⟩
  · cases waiting with
    | receive what =>
      -- whoever still waits for something is not over, so the random bytes are the same
      have hlive : Alike R True h h' := hh.mono fun _ => not_false
      dsimp only
      rcases link.receive side reading with ⟨link', x | reading'⟩
      · exact ⟨link', Or.inr ⟨_, _, rfl, rfl, received_alike hR hlive _ _ _ _⟩⟩
      · exact ⟨link', Or.inl ⟨_, rfl, rfl, rfl, rfl⟩⟩
    | deliver what =>
      dsimp only
      rcases what.attempt link side rest with ⟨link', x | rest'⟩
      · exact ⟨link', Or.inr ⟨_, _, rfl, rfl, delivered_alike hh _ _⟩⟩
      · exact ⟨link', Or.inl ⟨_, rfl, rfl, rfl, rfl⟩⟩

/-- Nothing but the last frame is left of a call that stopped. -/
def Stop.Over : Stop → Prop
  | waits r => Server.Over r.phase (.inl r.waiting)
  | ends p result => Server.Over p (.inr result)

/-- Runs that come to the same. -/
structure SameRun (R : σ → τ → Prop) (x : Stop × Link × Host σ) (y : Stop × Link × Host τ) :
    Prop where
  stop : x.1 = y.1
  link : x.2.1 = y.2.1
  host : Alike R (¬x.1.Over) x.2.2 y.2.2

theorem runTurn_alike (hR : Store.Twins R) (call : Call) (side : Side) (fuel : ℕ) {t : Turn σ}
    {t' : Turn τ} (ht : t.Alike R t') (link : Link) :
    SameRun R (runTurn call side fuel t link) (runTurn call side fuel t' link) := by
  induction fuel generalizing t t' link with
  | zero =>
    obtain ⟨p, h, waiting | result⟩ := t
    all_goals
      obtain ⟨p', h', next'⟩ := t'
      obtain ⟨rfl, rfl, hh⟩ := ht
      exact ⟨rfl, rfl, hh⟩
  | succ fuel ih =>
    obtain ⟨p, h, waiting | result⟩ := t
    all_goals
      obtain ⟨p', h', next'⟩ := t'
      obtain ⟨rfl, rfl, hh⟩ := ht
    · rw [runTurn, runTurn]
      dsimp only at hh ⊢
      obtain ⟨link', ⟨r', hx, hy, hphase, hwaiting⟩ | ⟨t, t', hx, hy, ht⟩⟩ :=
        attempt_alike hR { call, phase := p, waiting } hh link side
      · rw [hx, hy]
        refine ⟨rfl, rfl, hh.mono fun hlive => ?_⟩
        rwa [Stop.Over, hphase, hwaiting] at hlive
      · rw [hx, hy]
        exact ih ht link'
    · exact ⟨rfl, rfl, hh⟩

omit [Store σ] [Store τ] in
theorem start_alike {p : Phase} (hh : Alike R (p.name ≠ .terminated) h h') (call : Call) :
    (start call p h).Alike R (start call p h') := by
  obtain ⟨name, shared⟩ := p
  -- who waits for something is not over
  have hwaits (hname : name ≠ .terminated) (w : Waiting) :
      Turn.Alike R ⟨⟨name, shared⟩, h, .inl w⟩ ⟨⟨name, shared⟩, h', .inl w⟩ :=
    ⟨rfl, rfl, hh.mono fun _ => hname⟩
  cases call with
  | respond plain => exact reply_alike hh plain
  | accept =>
    cases name with
    | awaitingPeerKey => exact hwaits (by simp) _
    | _ => exact refuse_alike hh _
  | nextRequest =>
    cases name with
    | established => exact hwaits (by simp) _
    | _ => exact refuse_alike hh _
  | serve =>
    cases name with
    | awaitingPeerKey => exact hwaits (by simp) _
    | _ => exact nextInbound_alike hh
  | echo =>
    cases name with
    | awaitingPeerKey => exact hwaits (by simp) _
    | _ => exact nextInbound_alike hh

theorem run_alike (hR : Store.Twins R) (call : Call) (side : Side) {p : Phase}
    (hh : Alike R (p.name ≠ .terminated) h h') (link : Link) :
    SameRun R (run call side p link h) (run call side p link h') :=
  runTurn_alike hR call side _ (start_alike hh call) link

theorem resume_alike (hR : Store.Twins R) (r : Running) (side : Side)
    (hh : Alike R (¬Over r.phase (.inl r.waiting)) h h') (link : Link) :
    SameRun R (resume r side link h) (resume r side link h') := by
  rw [resume, resume]
  obtain ⟨link', ⟨r', hx, hy, hphase, hwaiting⟩ | ⟨t, t', hx, hy, ht⟩⟩ :=
    attempt_alike hR r hh link side
  · rw [hx, hy]
    refine ⟨rfl, rfl, hh.mono fun hlive => ?_⟩
    rwa [Stop.Over, hphase, hwaiting] at hlive
  · rw [hx, hy]
    exact runTurn_alike hR r.call side _ ht link'

end Server

/-! ### A peer and what it sees -/

/-- **A session and its peer**: the link between them, the host of the session, and whatever the
peer keeps in mind. -/
structure Parley (σ ρ : Type) where
  /-- Where the session's call has got to. -/
  stop : Server.Stop
  /-- The link. -/
  link : Link
  /-- The host of the session. -/
  host : Host σ
  /-- What the peer keeps in mind. -/
  peer : ρ

namespace Parley

variable {ρ : Type}

/-- What can happen. -/
inductive Move (ρ : Type) where
  /-- The peer does something to the link, and makes up its mind from what it finds. -/
  | peer (act : ρ → Link → ρ × Link)
  /-- Time goes by, the shutdown signal changes, others draw random bytes. -/
  | pass (now : Timestamp) (signal : Signal) (drawn : ℕ)
  /-- The session is taken up where it waits. -/
  | run
  /-- The session is asked for something, once it is done with what it was asked for before. -/
  | call (c : Server.Call)

/-- What a run of the session leaves behind. -/
def settle (peer : ρ) (x : Server.Stop × Link × Host σ) : Parley σ ρ := ⟨x.1, x.2.1, x.2.2, peer⟩

variable [Store σ] [Store τ]

/-- A session is called. -/
def start (call : Server.Call) (phase : Server.Phase) (link : Link) (host : Host σ) (peer : ρ) :
    Parley σ ρ :=
  settle peer (Server.run call .right phase link host)

/-- One move. -/
def step (w : Parley σ ρ) : Move ρ → Parley σ ρ
  | .peer act => { w with peer := (act w.peer w.link).1, link := (act w.peer w.link).2 }
  | .pass now signal drawn =>
    { w with host := { w.host with now, signal, entropy := (w.host.entropy.draw drawn).2 } }
  | .run =>
    match w.stop with
    | .waits r => settle w.peer (Server.resume r .right w.link w.host)
    | .ends _ _ => w
  | .call c =>
    match w.stop with
    | .waits _ => w
    | .ends phase _ => settle w.peer (Server.run c .right phase w.link w.host)

/-- One move after another. -/
def play (w : Parley σ ρ) (moves : List (Move ρ)) : Parley σ ρ := moves.foldl step w

/-- Parleys that look the same from outside. -/
structure Alike (R : σ → τ → Prop) (w : Parley σ ρ) (w' : Parley τ ρ) : Prop where
  stop : w.stop = w'.stop
  link : w.link = w'.link
  peer : w.peer = w'.peer
  host : Host.Alike R (¬w.stop.Over) w.host w'.host

variable {R : σ → τ → Prop}

omit [Store σ] [Store τ] in
theorem alike_settle {x : Server.Stop × Link × Host σ} {y : Server.Stop × Link × Host τ}
    (hxy : Server.SameRun R x y) (peer : ρ) : Alike R (settle peer x) (settle peer y) :=
  ⟨hxy.stop, hxy.link, rfl, hxy.host⟩

/-- **One move keeps up appearances.** -/
theorem Alike.step (hR : Store.Twins R) {w : Parley σ ρ} {w' : Parley τ ρ} (hw : Alike R w w')
    (m : Move ρ) : Alike R (w.step m) (w'.step m) := by
  obtain ⟨stop, link, host, peer⟩ := w
  obtain ⟨stop', link', host', peer'⟩ := w'
  obtain ⟨rfl, rfl, rfl, hh⟩ := hw
  cases m with
  | peer act => exact ⟨rfl, rfl, rfl, hh⟩
  | pass now signal drawn =>
    refine ⟨rfl, rfl, rfl, hh.store, rfl, rfl, hh.log, fun hlive => ?_⟩
    exact congrArg (fun e => (Entropy.draw e drawn).2) (hh.entropy hlive)
  | run =>
    cases stop with
    | waits r => exact alike_settle (Server.resume_alike hR r .right hh link) peer
    | ends phase result => exact ⟨rfl, rfl, rfl, hh⟩
  | call c =>
    cases stop with
    | waits r => exact ⟨rfl, rfl, rfl, hh⟩
    | ends phase result => exact alike_settle (Server.run_alike hR c .right hh link) peer

theorem Alike.play (hR : Store.Twins R) {w : Parley σ ρ} {w' : Parley τ ρ} (hw : Alike R w w')
    (moves : List (Move ρ)) : Alike R (w.play moves) (w'.play moves) := by
  induction moves generalizing w w' with
  | nil => exact hw
  | cons m moves ih => exact ih (hw.step hR m)

end Parley

/-! ### One failure is like another -/

/-- How the store fails a request, if it does. -/
def Request.failure? [Store σ] (h : Host σ) : Request → Option StoreError
  | .add owner content name => failureOf (h.insert ⟨owner, content, name⟩).1
  | .get id => failureOf (h.get id).1
  | .list owner => failureOf (h.list owner).1

/-- What a caller gets to know of a failure. -/
theorem Dispatch.told_of_failure {α : Type} {f : α → Response} {x : Except StoreError α}
    {e : StoreError} (he : failureOf x = some e) :
    told f x = if e.isNotFound then .ok (.error (.notFound "document not found"))
      else .error (.internal "storage failure") := by
  rcases x with e' | a
  · cases he
    cases e <;> rfl
  · cases he

theorem Dispatch.consult_of_failure [Store σ] {h : Host σ} {r : Request} {e : StoreError}
    (he : r.failure? h = some e) :
    (consult h r).1 = if e.isNotFound then .ok (.error (.notFound "document not found"))
      else .error (.internal "storage failure") := by
  cases r with
  | add owner content name => exact told_of_failure (f := .document) he
  | get id => exact told_of_failure (f := .document) he
  | list owner => exact told_of_failure (f := fun ds => .documents (fitToFrame ds)) he

namespace Parley

open Server (Call Phase opened reply)

variable {ρ : Type} [Store σ] [Store τ]

/-- **The peer learns nothing about the storage.** Take two stores that do alike, though they
fail with different words and, a missing document apart, in different ways; a session on each, in
any phase and asked for anything, on hosts that are the same in all else; and any peer, which
sends what it likes. Whatever moves are made, the peer then knows the same, the links hold the
same bytes, and both sessions stand at the same place. What differs is in the log, in the
records of storage failures.

What the peer is told when a store fails its request is the same for all failures: that there is
no such document, if that is what it is, and otherwise that the storage failed, which is the last
it hears. -/
theorem peer_learns_no_storage_details {s : σ} {t : τ} (hst : Store.Indistinct s t) :
    (∀ (call : Call) (phase : Phase) (link : Link) (now : Timestamp) (entropy : Entropy)
        (log : Log) (signal : Signal) (peer : ρ) (moves : List (Move ρ)),
      let w := (start call phase link ⟨s, now, entropy, log, signal⟩ peer).play moves
      let w' := (start call phase link ⟨t, now, entropy, log, signal⟩ peer).play moves
      w.peer = w'.peer ∧ w.link = w'.link ∧ w.stop = w'.stop ∧
        w.host.log.map LogRecord.redacted = w'.host.log.map LogRecord.redacted) ∧
    ∀ (h : Host σ) (secret : Crypto.SharedSecret) (plain : Bytes) (r : Request) (e : StoreError),
      Wire.decodeRequest plain = .ok r → (¬∃ field, r.FirstShort field) → r.failure? h = some e →
      let t := opened .serve (.established secret) h plain
      (e.isNotFound = true → ∃ h', t = reply (.established secret) h'
        (Wire.encodeResponse (.error (.notFound "document not found")))) ∧
      (e.isNotFound = false → t.phase = .terminated ∧
        t.next = .inl (.deliver (.closing (.error (.internal "storage failure"))
          (.error (.status (.internal "storage failure"))) false))) := by
  obtain ⟨R, hR, hst⟩ := hst
  refine ⟨fun call phase link now entropy log signal peer moves => ?_,
    fun h secret plain r e hr hlong he => ?_⟩
  · have hhosts : Host.Alike R (phase.name ≠ .terminated) ⟨s, now, entropy, log, signal⟩
        ⟨t, now, entropy, log, signal⟩ := ⟨hst, rfl, rfl, rfl, fun _ => rfl⟩
    obtain ⟨hstop, hlink, hpeer, hhost⟩ :=
      (alike_settle (Server.run_alike hR call .right hhosts link) peer).play hR moves
    exact ⟨hpeer, hlink, hstop, hhost.log⟩
  · have htold := (Dispatch.dispatch_of_not_firstShort hr hlong h).1
    rw [Dispatch.consult_of_failure he] at htold
    rw [opened]
    generalize Dispatch.dispatch plain h = x at htold
    obtain ⟨x, h'⟩ := x
    dsimp only at htold
    subst htold
    refine ⟨fun hmissing => ⟨h', ?_⟩, fun hfailed => ?_⟩
    · rw [if_pos hmissing]
    · rw [if_neg (by rw [hfailed]; exact Bool.false_ne_true)]
      exact ⟨rfl, rfl⟩

end Parley

/-! ### Two parts with the same cues -/

namespace Scripted

/-- Outcomes that are alike: neither is a failure, or both are and of which both or neither is
a missing document. -/
def SameCue (o o' : Option StoreError) : Prop :=
  o.map StoreError.isNotFound = o'.map StoreError.isNotFound

/-- Two parts that fail at the same calls, each in its own words. -/
structure SameCues (s t : Scripted) : Prop where
  docs : s.docs = t.docs
  inserts : s.inserts.Forall₂ SameCue t.inserts
  gets : s.gets.Forall₂ SameCue t.gets
  lists : s.lists.Forall₂ SameCue t.lists

theorem SameCue.similar {o o' : Option StoreError} (h : SameCue o o') {α : Type} (a : α) :
    Similar (outcome o a) (outcome o' a) := by
  cases o with
  | none =>
    cases o' with
    | none => exact rfl
    | some e' => cases h
  | some e =>
    cases o' with
    | none => cases h
    | some e' => exact Option.some.inj h

theorem sameCue_take {os os' : List (Option StoreError)} (h : os.Forall₂ SameCue os') :
    SameCue (take os).1 (take os').1 ∧ (take os).2.Forall₂ SameCue (take os').2 := by
  cases h with
  | nil => exact ⟨rfl, .nil⟩
  | cons ho hos => exact ⟨ho, hos⟩

theorem twins_sameCues : Store.Twins SameCues where
  insert h _ _ _ :=
    ⟨(sameCue_take h.inserts).1.similar _, { h with inserts := (sameCue_take h.inserts).2 },
      fun _ => rfl⟩
  get h _ :=
    ⟨(sameCue_take h.gets).1.similar _, { h with gets := (sameCue_take h.gets).2 }⟩
  list {s t} h _ := by
    have hdue : Similar (outcome (take s.lists).1 s.docs) (outcome (take t.lists).1 t.docs) := by
      rw [← h.docs]
      exact (sameCue_take h.lists).1.similar s.docs
    exact ⟨hdue, { h with lists := (sameCue_take h.lists).2 }⟩

/-- A store that finds nothing at first, and then its disk fails. -/
def failingDisk : Scripted where
  gets := [some (.notFound "doc-1"), some (.database "disk I/O error")]

/-- A store that finds nothing at first, and then cannot do the work. -/
def failingWorker : Scripted where
  gets := [some (.notFound "no such row"), some (.task "worker panicked")]

end Scripted

namespace Parley

/-- The secret of a rehearsal. -/
def rehearsedSecret : Crypto.SharedSecret := ⟨Bytes.replicate 32 7, by decide +kernel⟩

/-- The peer asks for a document. -/
def ask (nonce : UInt8) : Move (List Frame) :=
  .peer fun heard link =>
    match Crypto.Envelope.sealWith rehearsedSecret (Bytes.replicate 12 nonce)
      (Wire.encodeRequest (.get "doc-1")) with
    | .ok m => (heard, (link.send .left (.message m) none).1)
    | .error _ => (heard, link)

/-- The peer listens, and keeps in mind what it hears. -/
def listen : Move (List Frame) :=
  .peer fun heard link =>
    match link.receive .left {} with
    | (link, .ready (.ok (some f))) => (heard ++ [f], link)
    | (link, _) => (heard, link)

/-- A peer asks twice, and listens after each time. -/
def rehearsal (s : Scripted) : Parley Scripted (List Frame) :=
  (start .serve (.established rehearsedSecret) .inMemory ⟨s, .epoch, ⟨fun _ => 0, 0⟩, [], {}⟩
    []).play [ask 1, .run, listen, ask 2, .run, listen]

/-- Two stores fail at the second request, each in its own words. The peer hears an answer and
then the same last frame from both, and the words stay in the log. -/
theorem peer_learns_no_storage_details_rehearsed :
    (rehearsal .failingDisk).peer = (rehearsal .failingWorker).peer ∧
      (rehearsal .failingDisk).stop = (rehearsal .failingWorker).stop ∧
      (rehearsal .failingDisk).peer.drop 1 = [.abort (.internal "storage failure")] ∧
      (rehearsal .failingDisk).host.log.getLast? =
        some (Dispatch.storageFailure (.database "disk I/O error")) := by
  have hcues : Store.Indistinct Scripted.failingDisk Scripted.failingWorker :=
    ⟨_, Scripted.twins_sameCues, rfl, .nil, .cons rfl (.cons rfl .nil), .nil⟩
  obtain ⟨hpeer, -, hstop, -⟩ := (peer_learns_no_storage_details hcues).1 .serve
    (.established rehearsedSecret) .inMemory .epoch ⟨fun _ => 0, 0⟩ [] {} []
    [ask 1, .run, listen, ask 2, .run, listen]
  refine ⟨hpeer, hstop, ?_⟩
  decide +kernel

end Parley

end Vault
