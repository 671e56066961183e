import Vault.Proofs.Crypto.Agreement
import Vault.Proofs.Session.Transparency.Rounds
import Vault.Store.Memory

/-!
# A session is transparent

Between a client and a server lie encodings, envelopes, frames and queues, and yet each call comes
to what it would have come to had its request been carried out right there, on the store that the
requests before it have left. That holds at every moment (`Vault.Dialogue.Faithful`), and in the
end all calls have come to something: in none of the states can both sides be stuck, and every
move that changes anything brings the end nearer.
-/

namespace Vault

variable {σ : Type} [Store σ]

namespace Dialogue

open Server (Station)

/-! ### The start of a call -/

section Starts

variable (s : Client.Session) {r : Request} (e : Entropy)

theorem start_unsent (hlong : Crypto.Envelope.tooLong (Wire.encodeRequest r).size = true) :
    Client.start (.request s r) e =
      (.inr (.error unsealed), (e.draw Crypto.Envelope.nonceBytes).2) := by
  rw [Client.start, Client.sealed, Crypto.Envelope.sealFresh_of_tooLong s.secret hlong]
  rfl

theorem start_sealed (hlong : ¬Crypto.Envelope.tooLong (Wire.encodeRequest r).size = true) :
    ∃ envelope, Client.start (.request s r) e =
        (.inl (.deliver (.request s.secret envelope)), (e.draw Crypto.Envelope.nonceBytes).2) ∧
      Crypto.Envelope.reveal s.secret envelope = .ok (Wire.encodeRequest r) := by
  obtain ⟨envelope, hseals, hreveals, -⟩ :=
    Crypto.Envelope.sealFresh_of_not_tooLong s.secret hlong e
  refine ⟨envelope, ?_, hreveals⟩
  rw [Client.start, Client.sealed, hseals]

end Starts

/-! ### The moves once the server is gone -/

section Gone

variable {clock : ℕ → Timestamp} {goal : List Client.Outcome × σ} {N : ℕ} {c : Caller}
  {F : List Frame} {gone : Bool} {h : Host σ} {n : ℕ} {result : Server.Outcome}

omit [Store σ] in
theorem Lost.fails (hlost : Lost goal N 1 c h) (e : SessionError) :
    Lost goal N 0 (c.goesOn (.inr (.error e))) h where
  session := hlost.session
  errors := by
    obtain ⟨lost, hanswers, hlost⟩ := hlost.errors
    refine ⟨lost ++ [.error e], ?_, ?_⟩
    · rw [← List.append_assoc, ← hanswers]
      rfl
    · intro o ho
      rcases List.mem_append.mp ho with ho | ho
      · exact hlost o ho
      · exact ⟨e, List.mem_singleton.mp ho⟩
  count := by
    rw [← hlost.count]
    exact congrArg (· + c.todo.length) List.length_append
  store := hlost.store

/-- The server lets go of its end, or has done so before. -/
theorem advances_closed (gone : Bool)
    (hs : ∀ gone, Sound clock goal N ⟨c, (Station.closed result).post F [] gone h n⟩) :
    Advances clock goal N ⟨c, (Station.closed result).post F [] gone h n⟩ .serve := by
  have hstep : step clock .serve ⟨c, (Station.closed result).post F [] gone h n⟩ =
      ⟨c, (Station.closed result).post F [] true h n⟩ :=
    step_serve (Server.poll_closed result)
  cases gone with
  | true => exact .of_eq (hs true) hstep
  | false => exact .of_lt hstep (hs true) (Nat.lt_succ_self _)

theorem proceeds_calling (hlost : Lost goal N 1 c h) (secret : Crypto.SharedSecret)
    (envelope : Bytes) :
    Proceeds clock goal N ⟨c.goesOn (.inl (.deliver (.request secret envelope))),
      (Station.closed result).post F [] gone h n⟩ := by
  cases gone with
  | true =>
    have hfails : Client.delivered (.request secret envelope) (.error .closed) =
        .inr (.error (.link .closed)) := rfl
    refine .of_call (step_deliver (Link.send_left_gone (.message envelope) none) hfails)
      (.settled (.lost rfl (hlost.fails (.link .closed)))) ?_
      (advances_closed true fun _ => .calling hlost)
    rw [rank_over, rank_deliver]
    omega
  | false =>
    by_cases hroom : F.length < Queue.capacity
    · have hawaits : Client.delivered (.request secret envelope) (.ok ()) =
          .inl (.receive (.response secret)) := rfl
      refine .of_call (step_deliver (Link.send_left hroom (.message envelope) none) hawaits)
        (.hoping hlost) ?_ (advances_closed false fun _ => .calling hlost)
      rw [rank_receive, rank_deliver, List.length_append, List.length_singleton]
      omega
    · -- nobody makes room any more, and so it is for the server to move
      refine .of_serve (step_serve (Server.poll_closed result)) (.calling hlost)
        (Nat.lt_succ_self _) (.of_eq (.calling hlost) (step_deliver_waiting ?_))
      exact Link.send_left_full hroom (.message envelope) none

theorem proceeds_hoping (hlost : Lost goal N 1 c h) (secret : Crypto.SharedSecret) :
    Proceeds clock goal N ⟨c.goesOn (.inl (.receive (.response secret))),
      (Station.closed result).post F [] gone h n⟩ := by
  have hfails : Client.received (.response secret) (.ok none) = .inr (.error .closed) := rfl
  refine .of_call (step_receive (Link.receive_left_said {}) hfails)
    (.settled (.lost rfl (hlost.fails .closed))) ?_ (advances_closed gone fun _ => .hoping hlost)
  rw [rank_over, rank_receive]
  omega

theorem advances_lost (hidle : c.doing = none) (hlost : Lost goal N 0 c h) (htodo : c.todo = [])
    (move : Move) : Advances clock goal N ⟨c, (Station.closed result).post F [] gone h n⟩ move := by
  refine Advances.both (.of_eq (.settled (.lost hidle hlost)) (step_idle hidle htodo _)) ?_ move
  exact advances_closed gone fun _ => .settled (.lost hidle hlost)

theorem proceeds_lost {r : Request} {todo : List Request} (hidle : c.doing = none)
    (hlost : Lost goal N 0 c h) (htodo : c.todo = r :: todo) :
    Proceeds clock goal N ⟨c, (Station.closed result).post F [] gone h n⟩ := by
  have hserve : Advances clock goal N ⟨c, (Station.closed result).post F [] gone h n⟩ .serve :=
    advances_closed gone fun _ => .settled (.lost hidle hlost)
  obtain ⟨s, hsession⟩ := hlost.session
  have hcalls (e : Entropy) : Lost goal N 1 { c with todo, entropy := e } h := by
    refine ⟨⟨s, hsession⟩, hlost.errors, ?_, hlost.store⟩
    have hcount := hlost.count
    rw [htodo, List.length_cons] at hcount
    dsimp only
    omega
  by_cases hlong : Crypto.Envelope.tooLong (Wire.encodeRequest r).size = true
  · refine .of_call (step_starts hidle hsession htodo (start_unsent s c.entropy hlong) _)
      (.settled (.lost rfl ((hcalls _).fails unsealed))) ?_ hserve
    rw [rank_over, rank_idle hidle, htodo, List.length_cons]
    dsimp only
    omega
  · obtain ⟨envelope, hstart, -⟩ := start_sealed s c.entropy hlong
    refine .of_call (step_starts hidle hsession htodo hstart _) (.calling (hcalls _)) ?_ hserve
    rw [rank_deliver, rank_idle hidle, htodo, List.length_cons]
    dsimp only
    omega

end Gone

/-! ### Requests -/

section Requests

variable {clock : ℕ → Timestamp} {goal : List Client.Outcome × σ} {N : ℕ} {c : Caller}
  {s : Client.Session} {h h' : Host σ} {n : ℕ} {envelope : Bytes}

/-- A request that fails is the last one. -/
theorem round_failed {status : Status} {result : Server.Outcome} (hsession : c.session = some s)
    (hsig : h.signal.cancelled = false) (hsig' : h'.signal.cancelled = false)
    (hcount : c.answers.length + 1 + c.todo.length = N)
    (hgoal : (c.answers ++ [.error (.link (.remote status))], h'.store) = goal)
    (hserves : ((Station.listening s.secret).post [.message envelope] [] false h n).poll clock =
      (Station.closing (.error status) result false).post [] [] false h' (n + 1)) :
    Round clock goal N c (.request s.secret envelope) (.response s.secret) envelope (.abort status)
      (.listening s.secret) (.closing (.error status) result false) h h' n where
  sends _ _ := rfl
  awaits := rfl
  listens := ⟨_, rfl⟩
  serves := hserves
  replies := rfl
  signal := hsig
  signal' := hsig'
  accounts := hgoal ▸ List.prefix_append _ _
  unchanged hle := by
    subst hgoal
    rw [List.length_append, List.length_singleton] at hle
    omega
  settles := by
    subst hgoal
    refine ⟨.error (.link (.remote status)), rfl, fun t gone _ => .lost rfl ?_⟩
    refine ⟨⟨s, hsession⟩, ⟨[], (List.append_nil _).symm, fun _ ho => ?_⟩, ?_, rfl⟩
    · exact absurd ho List.not_mem_nil
    · rw [← hcount]
      exact congrArg (· + c.todo.length) List.length_append

/-- **A request that is answered** comes to its response, and the session goes on. -/
theorem round_answered {response : Response} {reply : Bytes} (hsession : c.session = some s)
    (hsig : h.signal.cancelled = false) (hcount : c.answers.length + 1 + c.todo.length = N)
    (hgoal : (c.answers ++ .ok (.response response) :: (direct clock (n + 1) h' c.todo).1,
      (direct clock (n + 1) h' c.todo).2) = goal)
    (ha : Server.Answers s.secret (clock n) h envelope reply h')
    (hreveals : Crypto.Envelope.reveal s.secret reply = .ok (Wire.encodeResponse response))
    (hsize : (Wire.encodeResponse response).size < 2 ^ 64) :
    Round clock goal N c (.request s.secret envelope) (.response s.secret) envelope
      (.message reply) (.listening s.secret) (.replying s.secret reply) h h' n where
  sends _ _ := rfl
  awaits := rfl
  listens := ⟨_, rfl⟩
  serves := Server.poll_answers hsig ha
  replies := rfl
  signal := hsig
  signal' := by
    rw [Server.signal_answers ha]
    exact hsig
  accounts := hgoal ▸ List.prefix_append _ _
  unchanged hle := by
    subst hgoal
    rw [List.length_append, List.length_cons] at hle
    omega
  settles := by
    subst hgoal
    have hdecodes : Wire.decodeResponse (Wire.encodeResponse response) = .ok response := by
      have hread := Wire.decodeResponse_encodeResponse hsize .empty
      rwa [ByteArray.append_empty] at hread
    refine ⟨.ok (.response response), ?_, fun t gone hgone => ?_⟩
    · simp only [Client.received, Link.inbound, Client.responded, Client.opened, hreveals, hdecodes]
      rfl
    · obtain rfl : gone = false := Bool.eq_false_iff.mpr fun hc => Bool.false_ne_true (hgone hc)
      refine .live rfl hsession ?_ ?_ ?_
      · rw [← hsig, ← Server.signal_answers ha]
        rfl
      · rw [← hcount]
        exact congrArg (· + c.todo.length) List.length_append
      · rw [direct_atTime]
        exact congrArg (·, _) (List.append_assoc _ _ _)

/-- **A request makes a round.** -/
theorem exists_round {r : Request} (hsession : c.session = some s)
    (hsig : h.signal.cancelled = false) (hcount : c.answers.length + 1 + c.todo.length = N)
    (hgoal : (c.answers ++ (direct clock n h (r :: c.todo)).1,
      (direct clock n h (r :: c.todo)).2) = goal)
    (hlong : ¬Crypto.Envelope.tooLong (Wire.encodeRequest r).size = true)
    (hopens : Crypto.Envelope.reveal s.secret envelope = .ok (Wire.encodeRequest r)) :
    ∃ f st' h', Round clock goal N c (.request s.secret envelope) (.response s.secret) envelope f
      (.listening s.secret) st' h h' n := by
  rcases hdispatch : Dispatch.dispatch (Wire.encodeRequest r) (h.atTime (clock n)) with
    ⟨status | response, h'⟩
  · have hsig' : h'.signal.cancelled = false := by
      rw [Dispatch.signal_of_dispatch hdispatch]
      exact hsig
    have hf : carry (clock n) h r = .failed status h'.store := by
      rw [carry, if_neg hlong]
      simp only [hdispatch]
    rw [direct_failed hf] at hgoal
    exact ⟨_, _, h', round_failed hsession hsig hsig' hcount hgoal
      (Server.poll_failed hsig hopens hdispatch)⟩
  have hsig' : h'.signal.cancelled = false := by
    rw [Dispatch.signal_of_dispatch hdispatch]
    exact hsig
  -- the request is carried out, but its response may be too long to be sent
  by_cases hlong' : Crypto.Envelope.tooLong (Wire.encodeResponse response).size = true
  · have hf : carry (clock n) h r = .failed unsealed.toStatus h'.store := by
      rw [carry, if_neg hlong]
      simp only [hdispatch]
      rw [if_pos hlong']
    rw [direct_failed hf] at hgoal
    refine ⟨_, _, _, round_failed hsession hsig ?_ hcount ?_
      (Server.poll_closedlong hsig hopens hdispatch hlong')⟩
    · exact hsig'
    · exact hgoal
  · have hf : carry (clock n) h r =
        .answered response (h'.skip Crypto.Envelope.nonceBytes) := by
      rw [carry, if_neg hlong]
      simp only [hdispatch]
      rw [if_neg hlong']
    rw [direct_answered hf] at hgoal
    obtain ⟨reply, hseals, hreveals, hsize⟩ :=
      Crypto.Envelope.sealFresh_of_not_tooLong s.secret hlong' h'.entropy
    exact ⟨_, _, _, round_answered hsession hsig hcount hgoal
      (.intro hopens hdispatch hseals hreveals) hreveals (by omega)⟩

theorem advances_live (hidle : c.doing = none) (hsession : c.session = some s)
    (hsig : h.signal.cancelled = false) (hcount : c.answers.length + c.todo.length = N)
    (hgoal : (c.answers ++ (direct clock n h c.todo).1, (direct clock n h c.todo).2) = goal) :
    Advances clock goal N ⟨c, (Station.listening s.secret).post [] [] false h n⟩ .serve ∧
      (c.todo = [] →
        Advances clock goal N ⟨c, (Station.listening s.secret).post [] [] false h n⟩ .call) := by
  have hsound : Sound clock goal N ⟨c, (Station.listening s.secret).post [] [] false h n⟩ :=
    .settled (.live hidle hsession hsig hcount hgoal)
  exact ⟨.of_eq hsound (step_serve (Server.poll_receive_nil hsig rfl)),
    fun htodo => .of_eq hsound (step_idle hidle htodo _)⟩

/-- The client makes its next call. -/
theorem proceeds_live {r : Request} {todo : List Request} (hidle : c.doing = none)
    (hsession : c.session = some s) (hsig : h.signal.cancelled = false)
    (hcount : c.answers.length + c.todo.length = N)
    (hgoal : (c.answers ++ (direct clock n h c.todo).1, (direct clock n h c.todo).2) = goal)
    (htodo : c.todo = r :: todo) :
    Proceeds clock goal N ⟨c, (Station.listening s.secret).post [] [] false h n⟩ := by
  have hserve := (advances_live hidle hsession hsig hcount hgoal).1
  rw [htodo] at hcount hgoal
  rw [List.length_cons] at hcount
  by_cases hlong : Crypto.Envelope.tooLong (Wire.encodeRequest r).size = true
  · have hf : carry (clock n) h r = .unsent := by rw [carry, if_pos hlong]
    rw [direct_unsent hf] at hgoal
    refine .of_call (step_starts hidle hsession htodo (start_unsent s c.entropy hlong) _)
      (.settled (.live rfl hsession hsig ?_ ?_)) ?_ hserve
    · rw [← hcount, Nat.add_comm todo.length, ← Nat.add_assoc]
      exact congrArg (· + todo.length) List.length_append
    · rw [← hgoal]
      exact congrArg (·, _) (List.append_assoc _ _ _)
    · rw [rank_over, rank_idle hidle, htodo, List.length_cons]
      dsimp only
      omega
  · obtain ⟨envelope, hstart, hopens⟩ := start_sealed s c.entropy hlong
    rw [Nat.add_comm todo.length, ← Nat.add_assoc] at hcount
    obtain ⟨f, st', h', hr⟩ := exists_round (c := { c with
      todo, entropy := (c.entropy.draw Crypto.Envelope.nonceBytes).2 }) hsession hsig hcount hgoal
      hlong hopens
    refine .of_call (step_starts hidle hsession htodo hstart _) (.offering hr) ?_ hserve
    rw [rank_deliver, rank_idle hidle, htodo, List.length_cons]
    dsimp only
    omega

end Requests

/-! ### The whole session -/

section Sessions

variable {clock : ℕ → Timestamp} {goal : List Client.Outcome × σ} {N : ℕ} {w : Dialogue σ}

/-- **Every move keeps the two in step**, and as long as there are requests left there is a
move that brings the end nearer. -/
theorem sound_step (hw : Sound clock goal N w) :
    (∀ move, Advances clock goal N w move) ∧
      (Alive clock w ∨ Settled clock goal N w ∧ w.caller.todo = []) := by
  cases hw with
  | settled hs =>
    cases hs with
    | @live c s h n hidle hsession hsig hcount hgoal =>
      rcases htodo : c.todo with _ | ⟨r, todo⟩
      · obtain ⟨hserve, hcall⟩ := advances_live hidle hsession hsig hcount hgoal
        exact ⟨(hcall htodo).both hserve, Or.inr ⟨.live hidle hsession hsig hcount hgoal, rfl⟩⟩
      · exact And.imp_right Or.inl (proceeds_live hidle hsession hsig hcount hgoal htodo)
    | @lost c F gone h n result hidle hlost =>
      rcases htodo : c.todo with _ | ⟨r, todo⟩
      · exact ⟨advances_lost hidle hlost htodo, Or.inr ⟨.lost hidle hlost, rfl⟩⟩
      · exact And.imp_right Or.inl (proceeds_lost hidle hlost htodo)
  | offering hr => exact And.imp_right Or.inl hr.proceeds_offering
  | offered hr => exact And.imp_right Or.inl hr.proceeds_offered
  | replying hr => exact And.imp_right Or.inl hr.proceeds_replying
  | replied hr t hgone => exact And.imp_right Or.inl (hr.proceeds_replied t hgone)
  | calling hlost => exact And.imp_right Or.inl (proceeds_calling hlost _ _)
  | hoping hlost => exact And.imp_right Or.inl (proceeds_hoping hlost _)

/-- **The keys make a round**, and once the client has a secret all requests are yet to be
carried out. -/
theorem sound_start {h : Host σ} (hsig : h.signal.cancelled = false) {e : Entropy}
    {secret : Crypto.SharedSecret} (requests : List Request)
    (hagree : (Crypto.KeyPair.generate e).1.agree (Crypto.KeyPair.generate h.entropy).1.publicKey =
      .ok secret) :
    Sound clock (direct clock 1 (h.skip Crypto.scalarBytes) requests) requests.length
      (start e requests h) := by
  -- the secret is the client's; that the server comes to the same one is what makes it a session
  have haccepts : Server.Accepts h (Crypto.KeyPair.generate e).1.publicKey.bytes
      (Crypto.KeyPair.generate h.entropy).1.publicKey secret (h.skip Crypto.scalarBytes) :=
    ⟨rfl, ⟨_, Crypto.PublicKey.ofBytes_bytes _, (Crypto.KeyPair.agree_comm _ _).trans hagree⟩, rfl⟩
  have hconnects : Client.connected (Crypto.KeyPair.generate e).1
      (Crypto.KeyPair.generate h.entropy).1.publicKey.bytes =
        .ok ⟨secret, (Crypto.KeyPair.generate h.entropy).1.publicKey⟩ := by
    simp only [Client.connected, Crypto.PublicKey.ofBytes_bytes, hagree]
  have hr : Round clock (direct clock 1 (h.skip Crypto.scalarBytes) requests) requests.length
      { todo := requests, entropy := (Crypto.KeyPair.generate e).2 }
      (.key (Crypto.KeyPair.generate e).1) (.serverKey (Crypto.KeyPair.generate e).1) _ _
      .awaitingKey _ h _ 0 :=
    { sends := fun _ _ => rfl
      awaits := rfl
      listens := ⟨_, rfl⟩
      serves := Server.poll_accepts hsig haccepts
      replies := rfl
      signal := hsig
      signal' := hsig
      accounts := List.nil_prefix
      unchanged := fun hle => ⟨(store_direct hle).symm, (store_direct hle).symm⟩
      settles := by
        refine ⟨.ok (.connected ⟨secret, (Crypto.KeyPair.generate h.entropy).1.publicKey⟩), ?_,
          fun t gone hgone => ?_⟩
        · simp only [Client.received, Link.inbound, hconnects]
          rfl
        · obtain rfl : gone = false := Bool.eq_false_iff.mpr fun hc => Bool.false_ne_true (hgone hc)
          refine .live (s := ⟨secret, (Crypto.KeyPair.generate h.entropy).1.publicKey⟩)
            rfl rfl hsig ?_ ?_
          · exact Nat.zero_add _
          · rw [direct_atTime, direct_atTime]
            rfl }
  exact .offering hr

omit [Store σ] in
theorem faithful_of_prefix (hpre : w.caller.answers <+: goal.1)
    (hstore : goal.1.length ≤ w.caller.answers.length → w.post.host.store = goal.2) :
    Faithful goal w where
  answers := by
    refine ⟨[], ?_, fun _ ho => absurd ho List.not_mem_nil⟩
    rw [List.append_nil]
    exact List.prefix_iff_eq_take.mp hpre
  store := hstore

omit [Store σ] in
theorem Lost.faithful {pending : ℕ} (hlost : Lost goal N pending w.caller w.post.host) :
    Faithful goal w where
  answers := by
    obtain ⟨lost, hanswers, herrors⟩ := hlost.errors
    refine ⟨lost, ?_, herrors⟩
    rw [List.take_of_length_le (by rw [hanswers, List.length_append]; omega)]
    exact hanswers
  store _ := hlost.store

/-- At every moment the accounts are right. -/
theorem faithful_of_sound (hw : Sound clock goal N w) : Faithful goal w := by
  cases hw with
  | settled hs =>
    cases hs with
    | live hidle hsession hsig hcount hgoal =>
      subst hgoal
      refine faithful_of_prefix (List.prefix_append _ _) fun hle => ?_
      rw [List.length_append] at hle
      exact (store_direct (Nat.le_of_add_le_add_left hle)).symm
    | lost hidle hlost => exact hlost.faithful
  | offering hr => exact faithful_of_prefix hr.accounts fun hle => (hr.unchanged hle).1
  | offered hr => exact faithful_of_prefix hr.accounts fun hle => (hr.unchanged hle).1
  | replying hr => exact faithful_of_prefix hr.accounts fun hle => (hr.unchanged hle).2
  | replied hr t hgone => exact faithful_of_prefix hr.accounts fun hle => (hr.unchanged hle).2
  | calling hlost => exact Lost.faithful ⟨hlost.session, hlost.errors, hlost.count, hlost.store⟩
  | hoping hlost => exact Lost.faithful ⟨hlost.session, hlost.errors, hlost.count, hlost.store⟩

/-- With no requests left the accounts are complete. -/
theorem answers_of_settled (hs : Settled clock goal N w) (htodo : w.caller.todo = []) :
    (∃ lost, w.caller.answers = goal.1 ++ lost ∧ ∀ o ∈ lost, ∃ e, o = .error e) ∧
      w.caller.answers.length = N ∧ w.post.host.store = goal.2 := by
  cases hs with
  | live hidle hsession hsig hcount hgoal =>
    subst hgoal
    rw [htodo] at hcount ⊢
    exact ⟨⟨[], (by simp [direct]), fun _ ho => absurd ho List.not_mem_nil⟩, hcount, rfl⟩
  | lost hidle hlost =>
    have hcount := hlost.count
    rw [htodo] at hcount
    exact ⟨hlost.errors, hcount, hlost.store⟩

/-- **A session is transparent**: when client and server have agreed on a secret, then in
whatever order the two move, the calls come to what the requests come to when they are carried
out directly, up to the first that fails; the calls after that fail too; and once it has failed
the store is the one that the requests leave when they are carried out directly. When both
move again and again, all calls come to an end. -/
theorem calls_come_to_direct (clock : ℕ → Timestamp) {h : Host σ}
    (hsig : h.signal.cancelled = false) {e : Entropy} {secret : Crypto.SharedSecret}
    (requests : List Request)
    (hagree : (Crypto.KeyPair.generate e).1.agree (Crypto.KeyPair.generate h.entropy).1.publicKey =
      .ok secret)
    (sched : ℕ → Move) :
    (∀ k, Faithful (direct clock 1 (h.skip Crypto.scalarBytes) requests)
      (Schedule.after (step clock) sched (start e requests h) k)) ∧
    ((∀ m, Schedule.Again sched (· = m)) → ∃ n, ∀ k, n ≤ k →
      (∃ lost, (Schedule.after (step clock) sched (start e requests h) k).caller.answers =
          (direct clock 1 (h.skip Crypto.scalarBytes) requests).1 ++ lost ∧
        ∀ o ∈ lost, ∃ e, o = .error e) ∧
      (Schedule.after (step clock) sched (start e requests h) k).caller.answers.length =
        requests.length ∧
      (Schedule.after (step clock) sched (start e requests h) k).post.host.store =
        (direct clock 1 (h.skip Crypto.scalarBytes) requests).2) := by
  have hsound (k : ℕ) : Sound clock (direct clock 1 (h.skip Crypto.scalarBytes) requests)
      requests.length (Schedule.after (step clock) sched (start e requests h) k) :=
    Schedule.after_keeps (Sound clock _ _) (fun m w hw => ((sound_step hw).1 m).1)
      (n := 0) (sound_start hsig requests hagree) (Nat.zero_le k)
  refine ⟨fun k => faithful_of_sound (hsound k), fun hfair => ?_⟩
  obtain ⟨n, -, hrest⟩ := Schedule.comes_to_rest (Sound clock _ _) rank
    (fun m w hw => ((sound_step hw).1 m).1) (fun m w hw => ((sound_step hw).1 m).2) hfair (hsound 0)
  refine ⟨n, fun k hk => ?_⟩
  rw [Schedule.after_rest hrest hk]
  -- at rest no move brings the end nearer, so no requests are left
  obtain ⟨move, hlt⟩ | ⟨hs, htodo⟩ := (sound_step (hsound n)).2
  · rw [hrest move] at hlt
    exact absurd hlt (lt_irrefl _)
  · exact answers_of_settled hs htodo

end Sessions

/-- A document is added, another one is not found, and then the same random bytes come up again:
the third request fails, and so does the fourth, which is not carried out. -/
theorem calls_come_to_direct_collision : ∃ n, ∀ k, n ≤ k →
    (Schedule.after (step fun _ => .clamp 0) (Schedule.roundRobin .call [.serve])
      (start ⟨fun _ => 1, 0⟩
        [.add "owner" "content" "name-", .get "other", .add "owner" "content" "name-",
          .list "owner"]
        ({ store := {}, now := .clamp 0, entropy := ⟨fun _ => 7, 0⟩ } : Host Memory))
      k).caller.answers.map Except.isOk = [true, true, false, false] := by
  have hagree : Crypto.Curve25519.multiply (Crypto.KeyPair.generate ⟨fun _ => 1, 0⟩).1.scalar
      (Crypto.KeyPair.generate ⟨fun _ => 7, 0⟩).1.publicKey.bytes ≠ Bytes.replicate 32 0 := by
    decide +kernel
  obtain ⟨n, hn⟩ := (calls_come_to_direct (fun _ => .clamp 0)
    (h := ({ store := {}, now := .clamp 0, entropy := ⟨fun _ => 7, 0⟩ } : Host Memory)) rfl
    [.add "owner" "content" "name-", .get "other", .add "owner" "content" "name-", .list "owner"]
    (Crypto.KeyPair.agree_eq hagree) (Schedule.roundRobin .call [.serve])).2
    (fun m => Schedule.again_roundRobin (by cases m <;> decide))
  have hdirect : (direct (fun _ => .clamp 0) 1
      (({ store := {}, now := .clamp 0, entropy := ⟨fun _ => 7, 0⟩ } : Host Memory).skip
        Crypto.scalarBytes) [.add "owner" "content" "name-", .get "other",
        .add "owner" "content" "name-", .list "owner"]).1.map Except.isOk =
      [true, true, false] := by
    decide +kernel
  refine ⟨n, fun k hk => ?_⟩
  obtain ⟨⟨lost, hanswers, herrors⟩, hlength, -⟩ := hn k hk
  rw [hanswers, List.map_append, hdirect]
  rw [hanswers, List.length_append, ← List.length_map Except.isOk, hdirect] at hlength
  have hone : lost.length = 1 := Nat.add_left_cancel hlength
  obtain ⟨o, rfl⟩ := List.length_eq_one_iff.mp hone
  obtain ⟨e, rfl⟩ := herrors o List.mem_cons_self
  rfl

end Dialogue

end Vault
