import Vault.Proofs.Schedule
import Vault.Proofs.Session.Station
import Vault.Proofs.Wire.Response
import Vault.Session.Client

/-!
# Rounds between a client and a server

A client connects to a server and makes its requests one after another (`Vault.Dialogue`). Beside
it stands what each request would have come to had it been carried out right there
(`Vault.Dialogue.direct`).

Every exchange of the two – the keys, and each request with its reply – is one **round**
(`Vault.Dialogue.Round`): the client puts a message on the link, the server takes it and
puts a frame on the link, and the client takes that. So there are few states to tell apart
(`Vault.Dialogue.Sound`): between two rounds, four points within a round, and the calls that
are still made after the server has gone. The moves within a round are gone through here.
-/

namespace Vault

variable {σ : Type}

namespace Dialogue

open Server (Station Post)

/-! ### Requests carried out directly -/

/-- A message is longer than the cipher can take. -/
def unsealed : SessionError := .crypto (.encryption Crypto.Envelope.cipherFailure)

/-- What becomes of one request. -/
inductive Fate (σ : Type) where
  /-- It is too long to be sealed, and is not carried out at all. -/
  | unsent
  /-- It fails, and this is the store that it leaves. -/
  | failed (s : Status) (store : σ)
  /-- It is answered, and this is the host that it leaves. -/
  | answered (response : Response) (h : Host σ)

/-- Carry a request out. A response that is too long to be sealed counts as a failure, and
after any other the random bytes of a nonce are passed over. -/
def carry [Store σ] (t : Timestamp) (h : Host σ) (r : Request) : Fate σ :=
  if Crypto.Envelope.tooLong (Wire.encodeRequest r).size then .unsent
  else
    match Dispatch.dispatch (Wire.encodeRequest r) (h.atTime t) with
    | (.error s, h') => .failed s h'.store
    | (.ok response, h') =>
      if Crypto.Envelope.tooLong (Wire.encodeResponse response).size then
        .failed unsealed.toStatus h'.store
      else .answered response (h'.skip Crypto.Envelope.nonceBytes)

/-- **What calls come to** when their requests are carried out right away, the first of them
at reading `n` of the clock, and the store after them. A request that fails is the last to
be carried out. -/
def direct [Store σ] (clock : ℕ → Timestamp) :
    ℕ → Host σ → List Request → List Client.Outcome × σ
  | _, h, [] => ([], h.store)
  | n, h, r :: requests =>
    match carry (clock n) h r with
    | .unsent =>
      let (outcomes, store) := direct clock n h requests
      (.error unsealed :: outcomes, store)
    | .failed s store => ([.error (.link (.remote s))], store)
    | .answered response h' =>
      let (outcomes, store) := direct clock (n + 1) h' requests
      (.ok (.response response) :: outcomes, store)

section Direct

variable [Store σ] {clock : ℕ → Timestamp} {n : ℕ} {h h' : Host σ} {r : Request}

theorem direct_unsent (hf : carry (clock n) h r = .unsent) (requests : List Request) :
    direct clock n h (r :: requests) =
      (.error unsealed :: (direct clock n h requests).1, (direct clock n h requests).2) := by
  rw [direct, hf]

theorem direct_failed {s : Status} {store : σ} (hf : carry (clock n) h r = .failed s store)
    (requests : List Request) :
    direct clock n h (r :: requests) = ([.error (.link (.remote s))], store) := by
  rw [direct, hf]

theorem direct_answered {response : Response} (hf : carry (clock n) h r = .answered response h')
    (requests : List Request) : direct clock n h (r :: requests) =
      (.ok (.response response) :: (direct clock (n + 1) h' requests).1,
        (direct clock (n + 1) h' requests).2) := by
  rw [direct, hf]

/-- What the time is before the first request is of no account. -/
theorem direct_atTime (t : Timestamp) (requests : List Request) :
    direct clock n (h.atTime t) requests = direct clock n h requests := by
  induction requests with
  | nil => rfl
  | cons r requests ih => rw [direct, direct, ih, carry, Host.atTime_atTime, carry]

/-- Where there is nothing to answer, the store stays as it is. -/
theorem store_direct {requests : List Request} (hnil : (direct clock n h requests).1.length ≤ 0) :
    (direct clock n h requests).2 = h.store := by
  rcases requests with _ | ⟨r, requests⟩
  · rfl
  rcases hf : carry (clock n) h r with _ | ⟨s, store⟩ | ⟨response, h'⟩
  · rw [direct_unsent hf, List.length_cons] at hnil
    omega
  · rw [direct_failed hf, List.length_singleton] at hnil
    omega
  · rw [direct_answered hf, List.length_cons] at hnil
    omega

end Direct

/-! ### A client and a server -/

/-- A client that makes one call after another. -/
structure Caller where
  /-- The call that is being made. -/
  doing : Option Client.Running := none
  /-- The session. -/
  session : Option Client.Session := none
  /-- The requests that are yet to be made. -/
  todo : List Request
  /-- What the requests came to so far. -/
  answers : List Client.Outcome := []
  /-- The client's own random bytes. -/
  entropy : Entropy

/-- The call goes on, or is over. -/
def Caller.goesOn (c : Caller) : Client.Next → Caller
  | .inl waiting => { c with doing := some { waiting } }
  | .inr (.ok (.connected s)) => { c with doing := none, session := some s }
  | .inr outcome => { c with doing := none, answers := c.answers ++ [outcome] }

/-- Try once to get on: with the call that is being made, or by making the next one. -/
def Caller.move (c : Caller) (link : Link) : Caller × Link :=
  match c.doing, c.session, c.todo with
  | some r, _, _ =>
    match Client.attempt r link .left with
    | (link, .waiting r) => ({ c with doing := some r }, link)
    | (link, .ready next) => (c.goesOn next, link)
  | none, some s, r :: todo =>
    let (next, entropy) := Client.start (.request s r) c.entropy
    (Caller.goesOn { c with todo, entropy } next, link)
  | none, _, _ => (c, link)

end Dialogue

/-- A client and a server at the two ends of a link. -/
structure Dialogue (σ : Type) where
  /-- The client. -/
  caller : Dialogue.Caller
  /-- The server. -/
  post : Server.Post σ

namespace Dialogue

open Server (Station Post)

/-- Who moves. -/
inductive Move where
  /-- The client is polled. -/
  | call
  /-- The server is polled. -/
  | serve
  deriving DecidableEq

variable [Store σ]

/-- One move. -/
def step (clock : ℕ → Timestamp) : Move → Dialogue σ → Dialogue σ
  | .call, w =>
    let (caller, link) := w.caller.move w.post.link
    ⟨caller, { w.post with link }⟩
  | .serve, w => { w with post := w.post.poll clock }

/-- The client is about to connect, and the server has been asked to serve. -/
def start (e : Entropy) (requests : List Request) (h : Host σ) : Dialogue σ :=
  let (next, entropy) := Client.start .connect e
  ⟨Caller.goesOn { todo := requests, entropy } next, .start h⟩

/-- What is left to do. -/
def rank (w : Dialogue σ) : ℕ :=
  6 * w.caller.todo.length +
    (match w.caller.doing with
      | some { waiting := .deliver _, .. } => 5
      | some { waiting := .receive _, .. } => 1
      | none => 0) +
    w.post.rank

/-- **The accounts are right**: what the calls have come to so far is what they should come to,
as far as that goes. The calls after that have failed, and have left the store alone. -/
structure Faithful (goal : List Client.Outcome × σ) (w : Dialogue σ) : Prop where
  /-- The calls, one by one. -/
  answers : ∃ lost, w.caller.answers = goal.1.take w.caller.answers.length ++ lost ∧
    ∀ o ∈ lost, ∃ e, o = .error e
  /-- The store, once there is nothing more to carry out. -/
  store : goal.1.length ≤ w.caller.answers.length → w.post.host.store = goal.2

/-! ### Moves of the client -/

section Calls

variable {clock : ℕ → Timestamp} {c : Caller} {F B F' B' : List Frame} {gone : Bool} {st : Station}
  {h : Host σ} {n : ℕ}

theorem step_deliver {d : Client.Delivering} {x : Except LinkError Unit} {next : Client.Next}
    (hlink : d.attempt (.queues F B st.said gone) .left none =
      (.queues F' B' st.said gone, .ready x))
    (hnext : Client.delivered d x = next) :
    step clock .call ⟨c.goesOn (.inl (.deliver d)), st.post F B gone h n⟩ =
      ⟨c.goesOn next, st.post F' B' gone h n⟩ := by
  subst hnext
  simp only [step, Caller.move, Caller.goesOn, Station.post, Client.attempt, hlink]

theorem step_deliver_waiting {d : Client.Delivering}
    (hlink : d.attempt (.queues F B st.said gone) .left none =
      (.queues F B st.said gone, .waiting none)) :
    step clock .call ⟨c.goesOn (.inl (.deliver d)), st.post F B gone h n⟩ =
      ⟨c.goesOn (.inl (.deliver d)), st.post F B gone h n⟩ := by
  simp only [step, Caller.move, Caller.goesOn, Station.post, Client.attempt, hlink]

theorem step_receive {r : Client.Receiving} {x : Except LinkError (Option Frame)}
    {next : Client.Next}
    (hlink : (Link.queues F B st.said gone).receive .left {} =
      (.queues F' B' st.said gone, .ready x))
    (hnext : Client.received r x = next) :
    step clock .call ⟨c.goesOn (.inl (.receive r)), st.post F B gone h n⟩ =
      ⟨c.goesOn next, st.post F' B' gone h n⟩ := by
  subst hnext
  simp only [step, Caller.move, Caller.goesOn, Station.post, Client.attempt, hlink]

theorem step_receive_waiting {r : Client.Receiving}
    (hlink : (Link.queues F B st.said gone).receive .left {} =
      (.queues F B st.said gone, .waiting {})) :
    step clock .call ⟨c.goesOn (.inl (.receive r)), st.post F B gone h n⟩ =
      ⟨c.goesOn (.inl (.receive r)), st.post F B gone h n⟩ := by
  simp only [step, Caller.move, Caller.goesOn, Station.post, Client.attempt, hlink]

theorem step_serve {p p' : Post σ} (hpoll : p.poll clock = p') :
    step clock .serve ⟨c, p⟩ = ⟨c, p'⟩ :=
  congrArg (Dialogue.mk c) hpoll

theorem step_idle (hidle : c.doing = none) (htodo : c.todo = []) (p : Post σ) :
    step clock .call ⟨c, p⟩ = ⟨c, p⟩ := by
  obtain ⟨doing, session, todo, answers, e⟩ := c
  obtain rfl := hidle
  obtain rfl := htodo
  cases session <;> rfl

theorem step_starts {s : Client.Session} {r : Request} {todo : List Request} {next : Client.Next}
    {e : Entropy} (hidle : c.doing = none) (hsession : c.session = some s)
    (htodo : c.todo = r :: todo) (hstart : Client.start (.request s r) c.entropy = (next, e))
    (p : Post σ) :
    step clock .call ⟨c, p⟩ = ⟨Caller.goesOn { c with todo, entropy := e } next, p⟩ := by
  obtain ⟨doing, session, _, answers, entropy⟩ := c
  obtain rfl := hidle
  obtain rfl := hsession
  obtain rfl := htodo
  simp only [step, Caller.move, hstart]

omit [Store σ] in
theorem rank_deliver (d : Client.Delivering) :
    rank ⟨c.goesOn (.inl (.deliver d)), st.post F B gone h n⟩ =
      6 * c.todo.length + 5 + (3 * F.length + B.length + Server.load st gone) := by
  rw [← Server.rank_post st F B gone h n]
  rfl

omit [Store σ] in
theorem rank_receive (r : Client.Receiving) :
    rank ⟨c.goesOn (.inl (.receive r)), st.post F B gone h n⟩ =
      6 * c.todo.length + 1 + (3 * F.length + B.length + Server.load st gone) := by
  rw [← Server.rank_post st F B gone h n]
  rfl

omit [Store σ] in
theorem rank_over (o : Client.Outcome) :
    rank ⟨c.goesOn (.inr o), st.post F B gone h n⟩ =
      6 * c.todo.length + (3 * F.length + B.length + Server.load st gone) := by
  rw [← Server.rank_post st F B gone h n]
  rcases o with _ | (_ | _) <;> rfl

omit [Store σ] in
theorem rank_idle (hidle : c.doing = none) :
    rank ⟨c, st.post F B gone h n⟩ =
      6 * c.todo.length + (3 * F.length + B.length + Server.load st gone) := by
  rw [← Server.rank_post st F B gone h n]
  simp only [rank, hidle, Nat.add_zero]

end Calls

/-! ### Between two rounds -/

/-- The accounts of a client whose server has said its last frame: what its calls should come
to they have come to, and the calls after that have failed. -/
structure Lost (goal : List Client.Outcome × σ) (N pending : ℕ) (c : Caller) (h : Host σ) :
    Prop where
  /-- There is a session to make calls on. -/
  session : ∃ s, c.session = some s
  /-- The calls that there is no server for fail. -/
  errors : ∃ lost, c.answers = goal.1 ++ lost ∧ ∀ o ∈ lost, ∃ e, o = .error e
  /-- No call is forgotten. -/
  count : c.answers.length + pending + c.todo.length = N
  /-- The store stays as it is. -/
  store : h.store = goal.2

/-- **Between two calls**: what the requests that are left come to when they are carried out
directly, after what there was before, is what the requests come to in all. Or else the server
is gone. -/
inductive Settled (clock : ℕ → Timestamp) (goal : List Client.Outcome × σ) (N : ℕ) :
    Dialogue σ → Prop
  /-- The server listens. -/
  | live {c : Caller} {s : Client.Session} {h : Host σ} {n : ℕ} (hidle : c.doing = none)
    (hsession : c.session = some s) (hsig : h.signal.cancelled = false)
    (hcount : c.answers.length + c.todo.length = N)
    (hgoal : (c.answers ++ (direct clock n h c.todo).1, (direct clock n h c.todo).2) = goal) :
    Settled clock goal N ⟨c, (Station.listening s.secret).post [] [] false h n⟩
  /-- The server has said its last frame. -/
  | lost {c : Caller} {F : List Frame} {gone : Bool} {h : Host σ} {n : ℕ}
    {result : Server.Outcome} (hidle : c.doing = none) (hlost : Lost goal N 0 c h) :
    Settled clock goal N ⟨c, (Station.closed result).post F [] gone h n⟩

/-- **A round**: the client delivers a message `m` to a server at station `st` and waits; that
takes the server to station `st'`, where it puts frame `f` on the link; and with that the call
is over and the accounts are settled. -/
structure Round (clock : ℕ → Timestamp) (goal : List Client.Outcome × σ) (N : ℕ) (c : Caller)
    (d : Client.Delivering) (r : Client.Receiving) (m : Bytes) (f : Frame) (st st' : Station)
    (h h' : Host σ) (n : ℕ) : Prop where
  sends : ∀ link rest, d.attempt link .left rest = link.send .left (.message m) rest
  awaits : Client.delivered d (.ok ()) = .inl (.receive r)
  listens : ∃ what, st.next = .inl (.receive what)
  serves : (st.post [.message m] [] false h n).poll clock = st'.post [] [] false h' (n + 1)
  replies : st'.frame? = some f
  signal : h.signal.cancelled = false
  signal' : h'.signal.cancelled = false
  accounts : c.answers <+: goal.1
  unchanged : goal.1.length ≤ c.answers.length → h.store = goal.2 ∧ h'.store = goal.2
  settles : ∃ o, Client.received r (.ok (some f)) = .inr o ∧ ∀ t gone,
    (gone = true → st'.after.said = true) →
      Settled clock goal N ⟨c.goesOn (.inr o), st'.after.post [] [] gone (h'.atTime t) (n + 1)⟩

/-- **How a client and a server can stand to each other.** -/
inductive Sound (clock : ℕ → Timestamp) (goal : List Client.Outcome × σ) (N : ℕ) :
    Dialogue σ → Prop
  /-- Between two rounds. -/
  | settled {w : Dialogue σ} (hs : Settled clock goal N w) : Sound clock goal N w
  /-- The client has a message to deliver. -/
  | offering {c : Caller} {d : Client.Delivering} {r : Client.Receiving} {m : Bytes} {f : Frame}
    {st st' : Station} {h h' : Host σ} {n : ℕ}
    (hr : Round clock goal N c d r m f st st' h h' n) :
    Sound clock goal N ⟨c.goesOn (.inl (.deliver d)), st.post [] [] false h n⟩
  /-- The message is on the link. -/
  | offered {c : Caller} {d : Client.Delivering} {r : Client.Receiving} {m : Bytes} {f : Frame}
    {st st' : Station} {h h' : Host σ} {n : ℕ}
    (hr : Round clock goal N c d r m f st st' h h' n) :
    Sound clock goal N ⟨c.goesOn (.inl (.receive r)), st.post [.message m] [] false h n⟩
  /-- The server has a frame to deliver. -/
  | replying {c : Caller} {d : Client.Delivering} {r : Client.Receiving} {m : Bytes} {f : Frame}
    {st st' : Station} {h h' : Host σ} {n : ℕ}
    (hr : Round clock goal N c d r m f st st' h h' n) :
    Sound clock goal N ⟨c.goesOn (.inl (.receive r)), st'.post [] [] false h' (n + 1)⟩
  /-- That frame is on the link. -/
  | replied {c : Caller} {d : Client.Delivering} {r : Client.Receiving} {m : Bytes} {f : Frame}
    {st st' : Station} {h h' : Host σ} {n : ℕ}
    (hr : Round clock goal N c d r m f st st' h h' n) (t : Timestamp) {gone : Bool}
    (hgone : gone = true → st'.after.said = true) :
    Sound clock goal N
      ⟨c.goesOn (.inl (.receive r)), st'.after.post [] [f] gone (h'.atTime t) (n + 1)⟩
  /-- The client has a request to deliver that nobody will take. -/
  | calling {c : Caller} {secret : Crypto.SharedSecret} {envelope : Bytes} {F : List Frame}
    {gone : Bool} {h : Host σ} {n : ℕ} {result : Server.Outcome} (hlost : Lost goal N 1 c h) :
    Sound clock goal N ⟨c.goesOn (.inl (.deliver (.request secret envelope))),
      (Station.closed result).post F [] gone h n⟩
  /-- The client waits for a response that nobody will give. -/
  | hoping {c : Caller} {secret : Crypto.SharedSecret} {F : List Frame} {gone : Bool} {h : Host σ}
    {n : ℕ} {result : Server.Outcome} (hlost : Lost goal N 1 c h) :
    Sound clock goal N ⟨c.goesOn (.inl (.receive (.response secret))),
      (Station.closed result).post F [] gone h n⟩

/-! ### The moves of a round -/

/-- What a move comes to: all is still sound, and the move did nothing or brought the end
nearer. -/
def Advances (clock : ℕ → Timestamp) (goal : List Client.Outcome × σ) (N : ℕ) (w : Dialogue σ)
    (move : Move) : Prop :=
  Sound clock goal N (step clock move w) ∧
    (step clock move w = w ∨ rank (step clock move w) < rank w)

/-- There is a move that brings the end nearer. -/
def Alive (clock : ℕ → Timestamp) (w : Dialogue σ) : Prop :=
  ∃ move, rank (step clock move w) < rank w

/-- **The two get on**: all moves are sound, and one brings the end nearer. -/
def Proceeds (clock : ℕ → Timestamp) (goal : List Client.Outcome × σ) (N : ℕ) (w : Dialogue σ) :
    Prop :=
  (∀ move, Advances clock goal N w move) ∧ Alive clock w

section Moves

variable {clock : ℕ → Timestamp} {goal : List Client.Outcome × σ} {N : ℕ} {w w' : Dialogue σ}
  {move : Move}

theorem Advances.of_eq (hw : Sound clock goal N w) (he : step clock move w = w) :
    Advances clock goal N w move := by
  refine ⟨?_, Or.inl he⟩
  rw [he]
  exact hw

theorem Advances.of_lt (he : step clock move w = w') (hw : Sound clock goal N w')
    (hlt : rank w' < rank w) : Advances clock goal N w move := by
  subst he
  exact ⟨hw, Or.inr hlt⟩

theorem Advances.both (hcall : Advances clock goal N w .call)
    (hserve : Advances clock goal N w .serve) (move : Move) : Advances clock goal N w move := by
  cases move with
  | call => exact hcall
  | serve => exact hserve

/-- The client gets on, whatever the server does. -/
theorem Proceeds.of_call (he : step clock .call w = w') (hw : Sound clock goal N w')
    (hlt : rank w' < rank w) (hserve : Advances clock goal N w .serve) :
    Proceeds clock goal N w := by
  refine ⟨(Advances.of_lt he hw hlt).both hserve, .call, ?_⟩
  rw [he]
  exact hlt

/-- The server gets on, whatever the client does. -/
theorem Proceeds.of_serve (he : step clock .serve w = w') (hw : Sound clock goal N w')
    (hlt : rank w' < rank w) (hcall : Advances clock goal N w .call) :
    Proceeds clock goal N w := by
  refine ⟨hcall.both (Advances.of_lt he hw hlt), .serve, ?_⟩
  rw [he]
  exact hlt

end Moves

section Rounds

variable {clock : ℕ → Timestamp} {goal : List Client.Outcome × σ} {N : ℕ} {c : Caller}
  {d : Client.Delivering} {r : Client.Receiving} {m : Bytes} {f : Frame} {st st' : Station}
  {h h' : Host σ} {n : ℕ}

variable (hr : Round clock goal N c d r m f st st' h h' n)
include hr

theorem Round.proceeds_offering :
    Proceeds clock goal N ⟨c.goesOn (.inl (.deliver d)), st.post [] [] false h n⟩ := by
  obtain ⟨what, hwhat⟩ := hr.listens
  have hlink : d.attempt (.queues [] [] st.said false) .left none =
      (.queues [.message m] [] st.said false, .ready (.ok ())) := by
    rw [hr.sends]
    exact Link.send_left (by decide) _ _
  refine .of_call (step_deliver hlink hr.awaits) (.offered hr) ?_ ?_
  · rw [rank_deliver, rank_receive, List.length_singleton, List.length_nil]
    omega
  · exact .of_eq (.offering hr) (step_serve (Server.poll_receive_nil hr.signal hwhat))

theorem Round.proceeds_offered :
    Proceeds clock goal N ⟨c.goesOn (.inl (.receive r)), st.post [.message m] [] false h n⟩ := by
  obtain ⟨what, hwhat⟩ := hr.listens
  refine .of_serve (step_serve hr.serves) (.replying hr) ?_ ?_
  · have h1 := Server.load_le st' false
    have h2 := Server.one_le_load st
    rw [rank_receive, rank_receive, List.length_singleton, List.length_nil]
    omega
  · refine .of_eq (.offered hr) (step_receive_waiting ?_)
    rw [Server.Station.said_of_waiting hwhat]
    exact Link.receive_left_nil {}

theorem Round.proceeds_replying :
    Proceeds clock goal N ⟨c.goesOn (.inl (.receive r)), st'.post [] [] false h' (n + 1)⟩ := by
  have hpoll : (st'.post [] [] false h' (n + 1)).poll clock =
      st'.after.post [] [f] false (h'.atTime (clock (n + 1))) (n + 1) :=
    Server.poll_delivers hr.signal' hr.replies (by decide)
  refine .of_serve (step_serve hpoll) (.replied hr _ fun hc => absurd hc Bool.false_ne_true) ?_ ?_
  · obtain ⟨h1, h2⟩ := Server.load_of_frame hr.replies
    rw [rank_receive, rank_receive, List.length_singleton, List.length_nil, h1, h2]
    omega
  · refine .of_eq (.replying hr) (step_receive_waiting ?_)
    rw [Server.Station.said_of_frame hr.replies]
    exact Link.receive_left_nil {}

theorem Round.proceeds_replied (t : Timestamp) {gone : Bool}
    (hgone : gone = true → st'.after.said = true) :
    Proceeds clock goal N
      ⟨c.goesOn (.inl (.receive r)), st'.after.post [] [f] gone (h'.atTime t) (n + 1)⟩ := by
  obtain ⟨o, ho, hsettles⟩ := hr.settles
  refine .of_call (step_receive (Link.receive_left f {}) ho)
    (.settled (hsettles t gone hgone)) ?_ ?_
  · rw [rank_over, rank_receive, List.length_singleton, List.length_nil]
    omega
  · have hpoll : (st'.after.post [] [f] gone (h'.atTime t) (n + 1)).poll clock =
        st'.after.post [] [f] (gone || st'.after.said) (h'.atTime t) (n + 1) :=
      Server.poll_after hr.signal' hr.replies
    by_cases hstays : (gone || st'.after.said) = gone
    · rw [hstays] at hpoll
      exact .of_eq (.replied hr t hgone) (step_serve hpoll)
    · -- the server lets go of its end, which it had not done before
      obtain ⟨rfl, hsaid⟩ : gone = false ∧ st'.after.said = true := by
        cases gone <;> simp_all
      rw [hsaid] at hpoll
      refine .of_lt (step_serve hpoll) (.replied hr t fun _ => hsaid) ?_
      rw [rank_receive, rank_receive]
      exact Nat.add_lt_add_left (Nat.add_lt_add_left (Nat.lt_succ_self _) _) _

end Rounds

end Dialogue

end Vault
