import Mathlib.Tactic.Common
import Vault.Proofs.Session.Station
import Vault.Session.Server
import Vault.Store.Memory

/-!
# The life of a session

A session at the server is asked to do one thing after another: to exchange keys, to take
a message, to send one, to serve, to echo. In what order is up to the caller, and what
comes of it is up to the stream: whenever a call waits for the stream, the stream may give
it anything at all (`Vault.Server.Deals`), and others may change the host meanwhile, the
shutdown signal included. A **course** is what a call goes through under such conditions
(`Vault.Server.Reaches`), and a **life** is one completed call after another
(`Vault.Server.Lives`).

What holds of every life (`Vault.Server.life_of_session`) rests on one observation. What a
call can wait for is settled by where the session stands (`Vault.Server.Poised`): its state
and its secret, which are set at different places, are then such that a request finds a
secret to be opened with, and only a session that is over says its last frame. So a session
ends by waiting for its last frame to be said, and after that there is nothing left to wait
for; and a session that is over when a call is made has no dealings with its stream at all.
-/

namespace Vault.Server

variable {σ : Type}

/-! ### Dealings with the stream -/

/-- What a session does with its stream, and what comes of it: nothing, if the shutdown
signal ends the wait. -/
inductive Dealing where
  /-- Receive a frame. -/
  | receive (x : Option (Except LinkError (Option Frame)))
  /-- Send a message. -/
  | send (message : Bytes) (x : Option (Except LinkError Unit))
  /-- Say the last frame. -/
  | finish (last : Except Status Unit) (x : Option (Except LinkError Unit))

namespace Dealing

/-- Whether the last frame is said. -/
def isFinish : Dealing → Bool
  | finish .. => true
  | _ => false

theorem isFinish_iff {d : Dealing} : d.isFinish = true ↔ ∃ last x, d = finish last x := by
  cases d <;> simp [isFinish]

end Dealing

/-- The dealing of a delivery. -/
def Delivering.dealing (x : Option (Except LinkError Unit)) : Delivering → Dealing
  | .key k _ => .send k.bytes x
  | .reply envelope => .send envelope x
  | .closing last _ _ => .finish last x

/-- The dealing of a wait that comes to nothing. -/
def Waiting.abandoned : Waiting → Dealing
  | .receive _ => .receive none
  | .deliver d => d.dealing none

variable [Store σ]

/-- **What may come of a wait**: whatever the stream gives, or the shutdown signal, if the
wait is one that it ends. -/
inductive Deals (call : Call) : Turn σ → Dealing → Turn σ → Prop
  /-- A frame arrives, or something in its place. -/
  | received {phase : Phase} {h : Host σ} {r : Receiving} (x : Except LinkError (Option Frame)) :
    Deals call ⟨phase, h, .inl (.receive r)⟩ (.receive (some x)) (received call phase h r x)
  /-- A frame is delivered, or cannot be. -/
  | delivered {phase : Phase} {h : Host σ} {d : Delivering} (x : Except LinkError Unit) :
    Deals call ⟨phase, h, .inl (.deliver d)⟩ (d.dealing (some x)) (delivered call phase h d x)
  /-- The shutdown signal ends the wait. -/
  | interrupted {phase : Phase} {h : Host σ} {w : Waiting} (hw : watched call w = true)
    (hc : h.signal.cancelled = true) :
    Deals call ⟨phase, h, .inl w⟩ w.abandoned (interrupted phase h)

/-- **The course of a call**: one dealing with the stream after another. While the call
waits, others may do anything to the host. -/
inductive Reaches (call : Call) : Turn σ → List Dealing → Turn σ → Prop
  /-- Nothing has happened yet. -/
  | refl (t : Turn σ) : Reaches call t [] t
  /-- Others change the host. -/
  | others {phase : Phase} {h h' : Host σ} {w : Waiting} {ds : List Dealing} {t : Turn σ}
    (hr : Reaches call ⟨phase, h', .inl w⟩ ds t) : Reaches call ⟨phase, h, .inl w⟩ ds t
  /-- Something comes of a wait. -/
  | deals {t t' t'' : Turn σ} {d : Dealing} {ds : List Dealing} (hd : Deals call t d t')
    (hr : Reaches call t' ds t'') : Reaches call t (d :: ds) t''

/-- A call is made where the session stands at `p`, and this is what it has come to: its
dealings, where the session stands then, its outcome, and the host. -/
def Runs (call : Call) (p : Phase) (h : Host σ) (ds : List Dealing) (p' : Phase)
    (result : Outcome) (h' : Host σ) : Prop :=
  Reaches call (start call p h) ds ⟨p', h', .inr result⟩

/-- **The life of a session**: the calls that were made on it and have come to an end, all
its dealings with the stream, and where it stands now. -/
inductive Lives (σ : Type) [Store σ] : List (Call × Outcome) → List Dealing → Phase → Prop
  /-- A session begins. -/
  | fresh : Lives σ [] [] .awaitingPeerKey
  /-- One more call is made, and comes to an end. -/
  | called {calls : List (Call × Outcome)} {ds ds' : List Dealing} {p p' : Phase} {call : Call}
    {h h' : Host σ} {result : Outcome} (hlife : Lives σ calls ds p)
    (hrun : Runs call p h ds' p' result h') :
    Lives σ (calls ++ [(call, result)]) (ds ++ ds') p'

/-! ### Where a session can stand -/

namespace Phase

/-- **Where a session can stand between two calls**: there is a secret exactly when it is
established, and the exchange of keys is not half done. -/
structure Resting (p : Phase) : Prop where
  secret : p.shared.isSome = true ↔ p.name = .established
  whole : p.name ≠ .handshaking

theorem resting_awaitingPeerKey : awaitingPeerKey.Resting := ⟨by simp, by simp⟩

theorem resting_established (secret : Crypto.SharedSecret) : (established secret).Resting :=
  ⟨by simp, by simp⟩

theorem resting_terminated : terminated.Resting := ⟨by simp, by simp⟩

/-- The two fields of such a phase leave it three forms. -/
theorem Resting.cases {p : Phase} (hp : p.Resting) :
    p = awaitingPeerKey ∨ (∃ secret, p = established secret) ∨ p = terminated := by
  obtain ⟨hsecret, hwhole⟩ := hp
  obtain ⟨name, shared⟩ := p
  cases name with
  | handshaking => exact absurd rfl hwhole
  | established =>
    obtain ⟨secret, rfl⟩ := Option.isSome_iff_exists.mp (hsecret.mpr rfl)
    exact Or.inr (Or.inl ⟨secret, rfl⟩)
  | awaitingPeerKey =>
    have hnone : shared = none := by simpa using hsecret
    exact Or.inl (by rw [hnone])
  | terminated =>
    have hnone : shared = none := by simpa using hsecret
    exact Or.inr (Or.inr (by rw [hnone]))

/-- **Where a call can take a session.** -/
inductive Moves : Phase → Phase → Prop
  /-- Nowhere. -/
  | stays (p : Phase) : Moves p p
  /-- The keys are exchanged. -/
  | accepted (secret : Crypto.SharedSecret) : Moves awaitingPeerKey (established secret)
  /-- There will be no secret. -/
  | refused : Moves awaitingPeerKey terminated
  /-- The session is over. -/
  | ended (secret : Crypto.SharedSecret) : Moves (established secret) terminated

/-- How far a session has come. -/
def age (p : Phase) : ℕ :=
  match p.name with
  | .awaitingPeerKey => 0
  | .handshaking => 1
  | .established => 2
  | .terminated => 3

/-- A session stays where it is or goes on. -/
def Leads (p q : Phase) : Prop := p = q ∨ p.age < q.age

variable {p q r : Phase}

theorem Leads.refl (p : Phase) : p.Leads p := Or.inl rfl

theorem Leads.trans (hpq : p.Leads q) (hqr : q.Leads r) : p.Leads r := by
  rcases hpq with rfl | hpq
  · exact hqr
  · rcases hqr with rfl | hqr
    · exact Or.inr hpq
    · exact Or.inr (Nat.lt_trans hpq hqr)

theorem leads_terminated (hp : p.name ≠ .terminated) : p.Leads terminated := by
  obtain ⟨name, shared⟩ := p
  cases name with
  | terminated => exact absurd rfl hp
  | _ => exact Or.inr (by simp [age])

/-- Between two calls the exchange of keys is not half done, which leaves few moves. -/
theorem Leads.moves (h : p.Leads q) (hp : p.Resting) (hq : q.Resting) : p.Moves q := by
  rcases h with rfl | h
  · exact .stays p
  obtain rfl | ⟨secret, rfl⟩ | rfl := hp.cases
  · obtain rfl | ⟨secret, rfl⟩ | rfl := hq.cases
    · exact .stays _
    · exact .accepted secret
    · exact .refused
  · obtain rfl | ⟨secret', rfl⟩ | rfl := hq.cases
    · exact absurd h (by simp [age])
    · exact absurd h (by simp [age])
    · exact .ended secret
  · obtain rfl | ⟨secret, rfl⟩ | rfl := hq.cases <;> exact absurd h (by simp [age])

end Phase

/-- **What a call can wait for where the session stands**, or that it is over. -/
inductive Poised : Phase → Waiting ⊕ Outcome → Prop
  /-- For the peer's key. -/
  | key : Poised .awaitingPeerKey (.inl (.receive .peerKey))
  /-- For its own key to be sent. -/
  | greeting (k : Crypto.PublicKey) (secret : Crypto.SharedSecret) :
    Poised .handshaking (.inl (.deliver (.key k secret)))
  /-- For an envelope. -/
  | request (secret : Crypto.SharedSecret) :
    Poised (.established secret) (.inl (.receive .request))
  /-- For a reply to be sent. -/
  | reply (secret : Crypto.SharedSecret) (envelope : Bytes) :
    Poised (.established secret) (.inl (.deliver (.reply envelope)))
  /-- For its last frame to be said. -/
  | closing (last : Except Status Unit) (result : Outcome) (watched : Bool) :
    Poised .terminated (.inl (.deliver (.closing last result watched)))
  /-- For nothing. -/
  | ended {p : Phase} (hp : p.Resting) (result : Outcome) : Poised p (.inr result)

omit [Store σ] in
/-- **A turn that goes on from `p`**: what it waits for fits where it leads, and when that is
the end of the session the last frame is yet to be said. -/
structure Onward (p : Phase) (t : Turn σ) : Prop where
  poised : Poised t.phase t.next
  leads : p.Leads t.phase
  unsaid : t.phase = .terminated → ∃ w, t.next = .inl w

omit [Store σ] in
theorem Onward.mono {p q : Phase} {t : Turn σ} (h : Onward q t) (hpq : p.Leads q) : Onward p t :=
  ⟨h.poised, hpq.trans h.leads, h.unsaid⟩

/-! ### One turn after another -/

section Turns

variable {p : Phase} {call : Call} {h : Host σ} {secret : Crypto.SharedSecret}

omit [Store σ] in
theorem onward_close {p : Phase} (hp : p.name ≠ .terminated) (h : Host σ)
    (last : Except Status Unit) (result : Outcome) (watched : Bool) :
    Onward p (close p h last result watched) := by
  rw [close_of_open hp]
  exact ⟨.closing last result watched, Phase.leads_terminated hp, fun _ => ⟨_, rfl⟩⟩

omit [Store σ] in
theorem onward_terminate {p : Phase} (hp : p.name ≠ .terminated) (h : Host σ) (e : SessionError)
    (watched : Bool) : Onward p (terminate p h e watched) :=
  onward_close hp _ _ _ _

omit [Store σ] in
theorem onward_done (secret : Crypto.SharedSecret) (h : Host σ) (result : Outcome) :
    Onward (.established secret) ⟨.established secret, h, .inr result⟩ :=
  ⟨.ended (Phase.resting_established secret) _, .refl _, by simp⟩

omit [Store σ] in
theorem onward_nextInbound (secret : Crypto.SharedSecret) (h : Host σ) :
    Onward (.established secret) (nextInbound (.established secret) h) := by
  rw [nextInbound]
  split_ifs
  · exact onward_close (by simp) _ _ _ _
  · exact ⟨.request secret, .refl _, by simp⟩

omit [Store σ] in
theorem onward_reply (secret : Crypto.SharedSecret) (h : Host σ) (plain : Bytes) :
    Onward (.established secret) (reply (.established secret) h plain) := by
  rw [reply_established]
  rcases Crypto.Envelope.sealFresh secret plain h.entropy with ⟨e | envelope, entropy⟩
  · exact onward_terminate (by simp) _ _ _
  · exact ⟨.reply secret envelope, .refl _, by simp⟩

omit [Store σ] in
theorem onward_proceed (call : Call) (secret : Crypto.SharedSecret) (h : Host σ) :
    Onward (.established secret) (proceed call (.established secret) h) := by
  rw [proceed]
  split_ifs
  · exact onward_nextInbound secret h
  · exact onward_done secret h _

omit [Store σ] in
theorem onward_handshake (h : Host σ) (peer : Bytes) :
    Onward .awaitingPeerKey (handshake .awaitingPeerKey h peer) := by
  have hleads : Phase.awaitingPeerKey.Leads .handshaking := Or.inr (by decide)
  rw [handshake]
  rcases Crypto.PublicKey.ofBytes peer with e | key
  · exact (onward_terminate (by simp) _ _ _).mono hleads
  dsimp only
  rcases (Crypto.KeyPair.generate h.entropy).1.agree key with e | secret
  · exact (onward_terminate (by simp) _ _ _).mono hleads
  · exact ⟨.greeting _ secret, hleads, by simp⟩

theorem onward_opened (call : Call) (secret : Crypto.SharedSecret) (h : Host σ) (plain : Bytes) :
    Onward (.established secret) (opened call (.established secret) h plain) := by
  cases call with
  | serve =>
    simp only [opened]
    rcases Dispatch.dispatch plain h with ⟨s | response, h'⟩
    · exact onward_terminate (by simp) _ _ _
    · exact onward_reply secret h' _
  | echo => exact onward_reply secret h plain
  | _ => exact onward_done secret h _

omit [Store σ] in
theorem onward_receivedKey (h : Host σ) (x : Except LinkError (Option Bytes)) :
    Onward .awaitingPeerKey (receivedKey .awaitingPeerKey h x) := by
  unfold receivedKey
  rcases x with e | _ | peer
  · cases e <;> exact onward_terminate (by simp) _ _ _
  · exact onward_terminate (by simp) _ _ _
  · exact onward_handshake h peer

theorem onward_receivedRequest (call : Call) (secret : Crypto.SharedSecret) (h : Host σ)
    (x : Except LinkError (Option Bytes)) :
    Onward (.established secret) (receivedRequest call (.established secret) h x) := by
  unfold receivedRequest
  rcases x with e | _ | envelope
  · exact onward_terminate (by simp) _ _ _
  · exact onward_close (by simp) _ _ _ _
  · dsimp only
    rcases Crypto.Envelope.reveal secret envelope with e | plain
    · exact onward_terminate (by simp) _ _ _
    · exact onward_opened call secret h plain

/-- **What one dealing can do.** It takes a session that is not over further, and is not its
last frame; or it is the last frame of a session that is over, and then so is the call. -/
theorem deals_cases {t t' : Turn σ} {d : Dealing} (hd : Deals call t d t')
    (ht : Poised t.phase t.next) :
    (t.phase.name ≠ .terminated ∧ d.isFinish = false ∧ Onward t.phase t') ∨
      (t.phase = .terminated ∧ d.isFinish = true ∧
        ∃ h result, t' = ⟨.terminated, h, .inr result⟩) := by
  cases hd with
  | received x =>
    refine Or.inl ?_
    cases ht with
    | key => exact ⟨by simp, rfl, onward_receivedKey _ _⟩
    | request secret => exact ⟨by simp, rfl, onward_receivedRequest call secret _ _⟩
  | delivered x =>
    cases ht with
    | greeting k secret =>
      refine Or.inl ⟨by simp, rfl, ?_⟩
      unfold delivered
      rcases x with e | _
      · exact onward_terminate (by simp) _ _ _
      · exact (onward_proceed call secret _).mono (Or.inr (by simp [Phase.age]))
    | reply secret envelope =>
      refine Or.inl ⟨by simp, rfl, ?_⟩
      unfold delivered
      rcases x with e | _
      · exact onward_terminate (by simp) _ _ _
      · exact onward_proceed call secret _
    | closing last result watched => exact Or.inr ⟨rfl, rfl, _, _, rfl⟩
  | interrupted hw hc =>
    cases ht with
    | key => exact absurd hw Bool.false_ne_true
    | greeting k secret => exact absurd hw Bool.false_ne_true
    | request secret =>
      exact Or.inl ⟨by simp, rfl, onward_close (by simp) _ _ _ _⟩
    | reply secret envelope => exact absurd hw Bool.false_ne_true
    | closing last result watched => exact Or.inr ⟨rfl, rfl, _, _, rfl⟩

/-- **A call from beginning to end.** It goes on from where the session stood; nothing follows
a last frame; and the last frame is said exactly when the session has come to its end. -/
theorem reaches_spec {t : Turn σ} {ds : List Dealing} {p' : Phase} {result : Outcome} {h' : Host σ}
    (hr : Reaches call t ds ⟨p', h', .inr result⟩) (ht : Onward p t) :
    p'.Resting ∧ p.Leads p' ∧ ds.Pairwise (fun d _ => d.isFinish = false) ∧
      ((∃ d ∈ ds, d.isFinish = true) ↔ p' = .terminated) := by
  generalize hend : (⟨p', h', .inr result⟩ : Turn σ) = t' at hr
  induction hr generalizing p with
  | refl t =>
    subst hend
    have hopen : p' ≠ .terminated := fun hc => nomatch (ht.unsaid hc).choose_spec
    cases ht.poised with
    | ended hp => exact ⟨hp, ht.leads, .nil, by simpa using hopen⟩
  | others hr ih => exact ih ⟨ht.poised, ht.leads, fun _ => ⟨_, rfl⟩⟩ hend
  | @deals t t₁ t' d ds hd hr ih =>
    obtain ⟨-, hnot, hon⟩ | ⟨hover, hlast, h₁, result₁, rfl⟩ := deals_cases hd ht.poised
    · obtain ⟨hp', hleads, hpairs, hfinish⟩ := ih hon hend
      refine ⟨hp', ht.leads.trans hleads, List.pairwise_cons.mpr ⟨fun _ _ => hnot, hpairs⟩, ?_⟩
      rw [← hfinish]
      simp [hnot]
    · -- the call is over, so there are no more dealings
      subst hend
      have hends : p.Leads .terminated := hover ▸ ht.leads
      cases hr with
      | refl =>
        exact ⟨Phase.resting_terminated, hends, List.pairwise_singleton _ _, by simp [hlast]⟩
      | deals hd _ => nomatch hd

end Turns

/-! ### Calls at the right and at the wrong time -/

namespace Call

/-- Whether a call is made where the session stands as it should. -/
def fits (call : Call) (p : Phase) : Bool :=
  match call, p.name with
  | _, .handshaking => false
  | _, .terminated => false
  | accept, .awaitingPeerKey => true
  | accept, _ => false
  | serve, _ => true
  | echo, _ => true
  | nextRequest, .established => true
  | respond _, .established => true
  | _, _ => false

/-- Where a session should stand for a call, by name. -/
def due : Call → PhaseName
  | accept => .awaitingPeerKey
  | _ => .established

/-- What a call comes to that is made at the wrong time. -/
def refusal (call : Call) (p : Phase) (h : Host σ) : Outcome :=
  if call.loops && h.signal.cancelled then .ok .done
  else .error (.invalidState call.due p.name)

end Call

section Calls

variable {p : Phase} {call : Call} {h : Host σ}

omit [Store σ] in
theorem onward_start (hp : p.Resting) (hfits : call.fits p = true) : Onward p (start call p h) := by
  obtain rfl | ⟨secret, rfl⟩ | rfl := hp.cases
  · cases call with
    | accept => exact ⟨.key, .refl _, by simp [start]⟩
    | serve => exact ⟨.key, .refl _, by simp [start]⟩
    | echo => exact ⟨.key, .refl _, by simp [start]⟩
    | _ => exact absurd hfits Bool.false_ne_true
  · cases call with
    | accept => exact absurd hfits Bool.false_ne_true
    | nextRequest => exact ⟨.request secret, .refl _, by simp [start]⟩
    | respond plain => exact onward_reply secret h plain
    | serve => exact onward_nextInbound secret h
    | echo => exact onward_nextInbound secret h
  · cases call <;> exact absurd hfits Bool.false_ne_true

omit [Store σ] in
/-- **A call at the wrong time** is refused at once, and nothing else happens. -/
theorem start_eq_refusal (hp : p.name ≠ .handshaking) (hfits : call.fits p = false) :
    start call p h = ⟨p, h, .inr (call.refusal p h)⟩ := by
  obtain ⟨name, shared⟩ := p
  -- only a call that loops looks at the signal, and only once the session is over
  have hloops (hc : call.loops = true) : nextInbound ⟨.terminated, shared⟩ h =
      ⟨⟨.terminated, shared⟩, h, .inr (call.refusal ⟨.terminated, shared⟩ h)⟩ := by
    have hdue : call.due = .established := by cases call <;> first | rfl | nomatch hc
    unfold nextInbound
    rw [Call.refusal, hc, hdue, Bool.true_and]
    split_ifs <;> rfl
  cases name with
  | handshaking => exact absurd rfl hp
  | awaitingPeerKey =>
    cases call with
    | nextRequest => rfl
    | respond plain => rfl
    | _ => exact absurd hfits.symm Bool.false_ne_true
  | established =>
    cases call with
    | accept => rfl
    | _ => exact absurd hfits.symm Bool.false_ne_true
  | terminated =>
    cases call with
    | serve => exact hloops rfl
    | echo => exact hloops rfl
    | _ => rfl

/-- A call at the wrong time has no dealings with the stream, and leaves everything as it
is. -/
theorem runs_iff_of_not_fits (hp : p.name ≠ .handshaking) (hfits : call.fits p = false)
    {ds : List Dealing} {p' : Phase} {result : Outcome} {h' : Host σ} :
    Runs call p h ds p' result h' ↔
      ds = [] ∧ p' = p ∧ h' = h ∧ result = call.refusal p h := by
  rw [Runs, start_eq_refusal hp hfits]
  constructor
  · intro hr
    cases hr with
    | refl => exact ⟨rfl, rfl, rfl, rfl⟩
    | deals hd _ => nomatch hd
  · rintro ⟨rfl, rfl, rfl, rfl⟩
    exact .refl _

/-- Keys are exchanged if the peer's key arrives, is not weak, and the server's key gets out. -/
theorem runs_accept {peer : Crypto.PublicKey} {secret : Crypto.SharedSecret}
    (hagree : (Crypto.KeyPair.generate h.entropy).1.agree peer = .ok secret) :
    Runs .accept .awaitingPeerKey h
      [.receive (some (.ok (some (.message peer.bytes)))),
        .send (Crypto.KeyPair.generate h.entropy).1.publicKey.bytes (some (.ok ()))]
      (.established secret) (.ok .done) (h.skip Crypto.scalarBytes) := by
  refine .deals (.received _) ?_
  have hshake : received .accept .awaitingPeerKey h .peerKey (.ok (some (.message peer.bytes))) =
      ⟨.handshaking, h.skip Crypto.scalarBytes,
        .inl (.deliver (.key (Crypto.KeyPair.generate h.entropy).1.publicKey secret))⟩ := by
    simp only [received, receivedKey, Link.inbound, handshake, Crypto.PublicKey.ofBytes_bytes,
      hagree]
    rfl
  rw [hshake]
  exact .deals (.delivered (.ok ())) (.refl _)

/-- A call takes the session where it may, and leaves it at rest. -/
theorem moves_of_runs (hp : p.Resting) {ds : List Dealing} {p' : Phase} {result : Outcome}
    {h' : Host σ} (hr : Runs call p h ds p' result h') : p'.Resting ∧ p.Moves p' := by
  rcases hfits : call.fits p with _ | _
  · obtain ⟨-, rfl, -, -⟩ := (runs_iff_of_not_fits hp.whole hfits).mp hr
    exact ⟨hp, .stays _⟩
  · obtain ⟨hp', hleads, -, -⟩ := reaches_spec hr (onward_start hp hfits)
    exact ⟨hp', hleads.moves hp hp'⟩

end Calls

/-! ### Whole lives -/

/-- What is so after every call: the session is at rest, nothing follows a last frame, and one
was said exactly when the session is over. -/
theorem lives_spec {calls : List (Call × Outcome)} {ds : List Dealing} {p : Phase}
    (hlife : Lives σ calls ds p) :
    p.Resting ∧ ds.Pairwise (fun d _ => d.isFinish = false) ∧
      ((∃ d ∈ ds, d.isFinish = true) ↔ p = .terminated) := by
  induction hlife with
  | fresh => exact ⟨Phase.resting_awaitingPeerKey, .nil, by simp⟩
  | @called calls ds ds' p p' call h h' result _ hrun ih =>
    obtain ⟨hp, hpairs, hfinish⟩ := ih
    rcases hfits : call.fits p with _ | _
    · obtain ⟨rfl, rfl, -, -⟩ := (runs_iff_of_not_fits hp.whole hfits).mp hrun
      rw [List.append_nil]
      exact ⟨hp, hpairs, hfinish⟩
    · obtain ⟨hp', -, hpairs', hfinish'⟩ := reaches_spec hrun (onward_start hp hfits)
      -- a session that a call fits is not over, so no last frame was said before
      have hnone : ∀ d ∈ ds, d.isFinish = false := by
        intro d hd
        refine Bool.eq_false_iff.mpr fun hc => ?_
        rw [hfinish.mp ⟨d, hd, hc⟩] at hfits
        cases call <;> exact Bool.false_ne_true hfits
      refine ⟨hp', List.pairwise_append.mpr ⟨hpairs, hpairs', fun d hd _ _ => hnone d hd⟩, ?_⟩
      rw [← hfinish']
      constructor
      · rintro ⟨d, hd, hc⟩
        rcases List.mem_append.mp hd with hd | hd
        · rw [hnone d hd] at hc
          exact absurd hc Bool.false_ne_true
        · exact ⟨d, hd, hc⟩
      · rintro ⟨d, hd, hc⟩
        exact ⟨d, List.mem_append_right _ hd, hc⟩

/-! ### Calls on a link -/

/-- The turn at which a run has stopped. -/
def Stop.turn (h : Host σ) : Stop → Turn σ
  | waits r => ⟨r.phase, h, .inl r.waiting⟩
  | ends phase result => ⟨phase, h, .inr result⟩

section Links

variable (side : Side)

/-- A try on a link leaves the wait as it is, or is a dealing with the link. -/
theorem deals_of_attempt (r : Running) (link : Link) (h : Host σ) :
    (∃ link' r', attempt r link side h = (link', .waiting r') ∧ r'.call = r.call ∧
        r'.phase = r.phase ∧ r'.waiting = r.waiting) ∨
      ∃ link' d t, attempt r link side h = (link', .ready t) ∧
        Deals r.call ⟨r.phase, h, .inl r.waiting⟩ d t := by
  rw [attempt]
  split_ifs with hwatched
  · obtain ⟨hw, hc⟩ := Bool.and_eq_true_iff.mp hwatched
    exact Or.inr ⟨link, _, _, rfl, .interrupted hw hc⟩
  obtain ⟨call, phase, waiting, reading, rest⟩ := r
  cases waiting with
  | receive what =>
    dsimp only
    rcases link.receive side reading with ⟨link', x | reading'⟩
    · exact Or.inr ⟨link', _, _, rfl, .received x⟩
    · exact Or.inl ⟨link', _, rfl, rfl, rfl, rfl⟩
  | deliver what =>
    dsimp only
    rcases what.attempt link side rest with ⟨link', x | rest'⟩
    · exact Or.inr ⟨link', _, _, rfl, .delivered x⟩
    · exact Or.inl ⟨link', _, rfl, rfl, rfl, rfl⟩

/-- **A run on a link is a course.** -/
theorem reaches_runTurn (call : Call) (fuel : ℕ) (t : Turn σ) (link : Link) :
    ∃ ds, Reaches call t ds
      ((runTurn call side fuel t link).1.turn (runTurn call side fuel t link).2.2) := by
  induction fuel generalizing t link with
  | zero =>
    obtain ⟨phase, h, waiting | result⟩ := t
    · exact ⟨[], .refl _⟩
    · exact ⟨[], .refl _⟩
  | succ fuel ih =>
    obtain ⟨phase, h, waiting | result⟩ := t
    · rw [runTurn]
      obtain ⟨link', r', hattempt, -, hphase, hwaiting⟩ | ⟨link', d, t, hattempt, hdeals⟩ :=
        deals_of_attempt side { call, phase, waiting } link h
      · simp only [hattempt, Stop.turn, hphase, hwaiting]
        exact ⟨[], .refl _⟩
      · obtain ⟨ds, hds⟩ := ih t link'
        simp only [hattempt]
        exact ⟨d :: ds, .deals hdeals hds⟩
    · exact ⟨[], .refl _⟩

/-- Taking up a call that waits is going on with its course. -/
theorem reaches_resume (r : Running) (link : Link) (h : Host σ) :
    ∃ ds, Reaches r.call ⟨r.phase, h, .inl r.waiting⟩ ds
      ((resume r side link h).1.turn (resume r side link h).2.2) := by
  rw [resume]
  obtain ⟨link', r', hattempt, -, hphase, hwaiting⟩ | ⟨link', d, t, hattempt, hdeals⟩ :=
    deals_of_attempt side r link h
  · simp only [hattempt, Stop.turn, hphase, hwaiting]
    exact ⟨[], .refl _⟩
  · obtain ⟨ds, hds⟩ := reaches_runTurn side r.call (patience link' side) t link'
    simp only [hattempt]
    exact ⟨d :: ds, .deals hdeals hds⟩

end Links

/-- **What holds of every session**, whatever calls are made on it in whatever order, and
whatever comes of its dealings with the stream.

Between two calls there is a secret exactly when the session is established, and the
exchange of keys is never half done. The session is over exactly when its last frame was
said, or at least tried; and after that it has no dealings with the stream, so that the last
frame is said once and nothing is sent after it. A call takes the session from waiting for
the key to being established or over, and from being established to being over, or nowhere.
And a call at the wrong time – which every call is once the session is over – comes to
nothing but its refusal: no dealings, no change of where the session stands, and nothing
done on the host, so that no random bytes are drawn.

Runs on a link of either make, with all the waits in between, are courses of this kind. -/
theorem life_of_session {calls : List (Call × Outcome)} {ds : List Dealing} {p : Phase}
    (hlife : Lives σ calls ds p) :
    p.name ≠ .handshaking ∧ (p.shared.isSome = true ↔ p.name = .established) ∧
    (p = .terminated ↔ ∃ last x, .finish last x ∈ ds) ∧
    (∀ before last x after, ds = before ++ .finish last x :: after → after = []) ∧
    (∀ call (h : Host σ) ds' p' result h', Runs call p h ds' p' result h' → p.Moves p') ∧
    (p = .terminated → ∀ call : Call, call.fits p = false) ∧
    (∀ call (h : Host σ), call.fits p = false → ∀ ds' p' result h',
      Runs call p h ds' p' result h' ↔
        ds' = [] ∧ p' = p ∧ h' = h ∧ result = call.refusal p h) ∧
    (∀ call side link (h : Host σ), ∃ ds', Reaches call (start call p h) ds'
      ((run call side p link h).1.turn (run call side p link h).2.2)) ∧
    (∀ (r : Running) side link (h : Host σ), ∃ ds',
      Reaches r.call ⟨r.phase, h, .inl r.waiting⟩ ds'
        ((resume r side link h).1.turn (resume r side link h).2.2)) := by
  obtain ⟨hp, hpairs, hfinish⟩ := lives_spec hlife
  refine ⟨hp.whole, hp.secret, ?_, ?_,
    fun call h ds' p' result h' hr => (moves_of_runs hp hr).2, ?_,
    fun call h hfits ds' p' result h' => runs_iff_of_not_fits hp.whole hfits,
    fun call side link h => reaches_runTurn side call _ _ link,
    fun r side link h => reaches_resume side r link h⟩
  · rw [← hfinish]
    constructor
    · rintro ⟨d, hd, hc⟩
      obtain ⟨last, x, rfl⟩ := Dealing.isFinish_iff.mp hc
      exact ⟨last, x, hd⟩
    · rintro ⟨last, x, hd⟩
      exact ⟨_, hd, rfl⟩
  · rintro before last x after rfl
    obtain ⟨-, hpairs, -⟩ := List.pairwise_append.mp hpairs
    refine List.eq_nil_iff_forall_not_mem.mpr fun d hd => ?_
    exact absurd ((List.pairwise_cons.mp hpairs).1 d hd).symm Bool.false_ne_true
  · rintro rfl call
    cases call <;> rfl

/-- Keys are exchanged, the shutdown signal ends the wait for a request, and then it is too late
to send anything. -/
theorem life_of_session_shut_down :
    ∃ ds, Lives Memory [(.accept, .ok .done), (.serve, .ok .done)] ds .terminated ∧
      (∃ last x, .finish last x ∈ ds) ∧
      ∀ plain (h : Host Memory) ds' p' result h',
        Runs (.respond plain) .terminated h ds' p' result h' →
          ds' = [] ∧ h' = h ∧ result = .error (.invalidState .established .terminated) := by
  let h : Host Memory := { store := {}, now := .clamp 0, entropy := ⟨fun _ => 7, 0⟩ }
  have hcontributes : Crypto.Curve25519.multiply (Crypto.KeyPair.generate h.entropy).1.scalar
      (Crypto.KeyPair.generate ⟨fun _ => 1, 0⟩).1.publicKey.bytes ≠ Bytes.replicate 32 0 := by
    decide +kernel
  have haccept := runs_accept (h := h) (Crypto.KeyPair.agree_eq hcontributes)
  have hserve (secret : Crypto.SharedSecret) : Runs .serve (.established secret) h
      [.receive none, .finish (.ok ()) (some (.ok ()))] .terminated (.ok .done)
      { h with signal := ⟨true, false⟩ } :=
    .others (.deals (.interrupted rfl rfl) (.deals (.delivered (.ok ())) (.refl _)))
  have hlife := Lives.called (.called .fresh haccept) (hserve _)
  obtain ⟨-, -, hsaid, -, -, hlate, hrefused, -⟩ := life_of_session hlife
  refine ⟨_, hlife, hsaid.mp rfl, fun plain h ds' p' result h' hrun => ?_⟩
  obtain ⟨hnone, -, hsame, hresult⟩ := (hrefused _ h (hlate rfl _) ds' p' result h').mp hrun
  exact ⟨hnone, hsame, hresult⟩

end Vault.Server
