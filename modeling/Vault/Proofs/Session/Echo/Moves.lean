import Vault.Proofs.Session.Echo.Machine

/-!
# What a move of the client or of the server does

Each of the two moves one message from one of the four places to the next, or waits, or comes
to the end of the stream. Here every move is shown to keep the account of what was sent, and it
is said along with it when a move changes nothing: a client that waits to send has a full queue
in front of it, one that waits to receive has an empty one, and so has the server.
-/

namespace Vault.Echo

open Crypto.Envelope (reveal tooLong)
open Server (Station)

variable {σ : Type} [Store σ]

/-! ### What a move does -/

section Moves

variable {s : Client.Session} {script past todo : List Act} {act : Act} {st : Station}
  {F : List Bytes} {B : List Frame} {gone : Bool} {w : Parley σ}

omit [Store σ] in
/-- The client is done with something. -/
theorem At.done (h : At s.secret script past st F B gone w) (htodo : w.todo = act :: todo)
    (o : Client.Outcome) {v : Parley σ} {F' : List Bytes} {B' : List Frame}
    (hlink : v.link = .queues (F'.map .message) B' st.said gone) (hstop : v.stop = w.stop)
    (hheard : v.heard = w.heard)
    (haccount : Account s.secret (contents s.secret past ++ (act.content s.secret).toList)
      (w.heard ++ act.heard o) st F' B' gone) :
    At s.secret script (past ++ [act]) st F' B' gone (v.goOn act todo (.inr o)) where
  script := by
    rw [h.script, htodo, List.append_assoc]
    rfl
  link := hlink
  stop := hstop.trans h.stop
  account := by
    rw [contents_concat _ rfl, Parley.goOn, hheard]
    exact haccount
  received := by
    rw [Parley.goOn, hheard, List.length_append, h.received, receives_concat, length_heard]
  underway := fun _ hr => nomatch hr

/-- What is left to do: a message counts for more the farther it has to go. -/
def Parley.rank (w : Parley σ) : ℕ :=
  5 * w.todo.length + (if w.call.isSome then 0 else 1) +
    Server.Post.rank ⟨w.link, w.stop, w.host, 0⟩

omit [Store σ] in
theorem At.rank_eq (h : At s.secret script past st F B gone w) :
    w.rank = 5 * w.todo.length + (if w.call.isSome then 0 else 1) +
      (3 * F.length + B.length + Server.load st gone) := by
  have hpost : Server.Post.rank ⟨w.link, w.stop, w.host, 0⟩ =
      3 * (F.map Frame.message).length + B.length + Server.load st gone := by
    rw [h.link, h.stop]
    cases st <;> cases gone <;> rfl
  rw [Parley.rank, hpost, List.length_map]

omit [Store σ] in
theorem rank_goOn (w : Parley σ) (act : Act) (todo : List Act) (o : Client.Outcome) :
    (w.goOn act todo (.inr o)).rank =
      5 * todo.length + 1 + Server.Post.rank ⟨w.link, w.stop, w.host, 0⟩ := rfl

/-! #### The client -/

theorem step_call {r : Client.Running} {link : Link} {next : Client.Next}
    (htodo : w.todo = act :: todo) (hcall : w.call = some r)
    (hattempt : Client.attempt r w.link .left = (link, .ready next)) :
    step s .call w = { w with link }.goOn act todo next := by
  cases w
  subst htodo hcall
  simp only at hattempt
  simp only [step, hattempt]

theorem step_call_waits {r : Client.Running} (htodo : w.todo = act :: todo)
    (hcall : w.call = some r) (hattempt : Client.attempt r w.link .left = (w.link, .waiting r)) :
    step s .call w = w := by
  cases w
  subst htodo hcall
  simp only at hattempt
  simp only [step, hattempt]

omit [Store σ] in
/-- The client has turned to something. -/
theorem At.begin (h : At s.secret script past st F B gone w) (htodo : w.todo = act :: todo)
    (hcall : w.call = none) (e : Entropy) {r : Client.Running} (hr : Underway s.secret act r) :
    At s.secret script past st F B gone { w with entropy := e, call := some r } ∧
      { w with entropy := e, call := some r }.rank < w.rank := by
  refine ⟨⟨h.script, h.link, h.stop, h.account, h.received, ?_⟩, ?_⟩
  · intro r' hr'
    obtain rfl := Option.some.inj hr'
    exact ⟨act, todo, htodo, hr⟩
  · rw [Parley.rank, Parley.rank, hcall]
    exact Nat.add_lt_add_right (Nat.lt_succ_self _) _

/-- A client that waits for nothing turns to the next thing. -/
theorem At.call_begins (h : At s.secret script past st F B gone w) (htodo : w.todo = act :: todo)
    (hcall : w.call = none) :
    ∃ past', At s.secret script past' st F B gone (step s .call w) ∧
      (step s .call w).rank < w.rank := by
  have hstep : step s .call w = { w with entropy := (act.start s w.entropy).2 }.goOn act todo
      (act.start s w.entropy).1 := by
    simp only [step, htodo, hcall]
  rw [hstep]
  cases act with
  | put m => exact ⟨past, h.begin htodo hcall w.entropy (.deliver rfl rfl)⟩
  | receive => exact ⟨past, h.begin htodo hcall w.entropy .receive⟩
  | send plain =>
    by_cases hlong : tooLong plain.size = true
    · -- a payload that is too long for the cipher is not sent
      have hstart : (Act.send plain).start s w.entropy = (.inr (.error (.crypto
          (.encryption Crypto.Envelope.cipherFailure))),
          (w.entropy.draw Crypto.Envelope.nonceBytes).2) := by
        simp only [Act.start, Client.start, Client.sealed,
          Crypto.Envelope.sealFresh_of_tooLong s.secret hlong]
      have hcontent : (Act.send plain).content s.secret = none := if_pos hlong
      rw [hstart]
      dsimp only
      refine ⟨past ++ [.send plain], h.done htodo _ (v := { w with
        entropy := (w.entropy.draw Crypto.Envelope.nonceBytes).2 }) h.link rfl rfl ?_, ?_⟩
      · rw [hcontent]
        simpa only [Option.toList_none, List.append_nil, Act.heard] using h.account
      · rw [rank_goOn, Parley.rank, htodo, List.length_cons]
        dsimp only
        omega
    · obtain ⟨envelope, hseal, hopens, -⟩ :=
        Crypto.Envelope.sealFresh_of_not_tooLong s.secret hlong w.entropy
      have hstart : (Act.send plain).start s w.entropy = (.inl (.deliver (.message envelope)),
          (w.entropy.draw Crypto.Envelope.nonceBytes).2) := by
        simp only [Act.start, Client.start, Client.sealed, hseal]
      have hcontent : (Act.send plain).content s.secret = some (reveal s.secret envelope) := by
        rw [hopens]
        exact if_neg hlong
      rw [hstart]
      exact ⟨past, h.begin htodo hcall _ (.deliver rfl hcontent)⟩

/-- A client that sends a message is done as soon as there is room for it or nobody to take
it. -/
theorem At.call_sends (h : At s.secret script past st F B gone w) (htodo : w.todo = act :: todo)
    {m : Bytes} (hcall : w.call = some ⟨.deliver (.message m), {}, none⟩)
    (hact : act.receives = false) (hcontent : act.content s.secret = some (reveal s.secret m)) :
    (∃ past' F', At s.secret script past' st F' B gone (step s .call w) ∧
      (step s .call w).rank < w.rank) ∨
    (step s .call w = w ∧ gone = false ∧ Queue.capacity ≤ F.length) := by
  have hheard (o : Client.Outcome) : w.heard ++ act.heard o = w.heard := by
    cases act with
    | receive => nomatch hact
    | _ => exact List.append_nil _
  have hrank := h.rank_eq
  rw [htodo, List.length_cons, hcall] at hrank
  cases gone with
  | true =>
    have hattempt : Client.attempt ⟨.deliver (.message m), {}, none⟩ w.link .left =
        (w.link, .ready (.inr (.error (.link .closed)))) := by
      simp only [Client.attempt, Client.Delivering.attempt, h.link, Link.send_left_gone]
      rfl
    rw [step_call htodo hcall hattempt]
    refine Or.inl ⟨past ++ [act], F, h.done htodo _ h.link rfl rfl ?_, ?_⟩
    · rw [hcontent, hheard]
      exact h.account.pushGone _
    · rw [rank_goOn, Parley.rank, htodo, List.length_cons]
      dsimp only
      omega
  | false =>
    by_cases hroom : F.length < Queue.capacity
    · have hattempt : Client.attempt ⟨.deliver (.message m), {}, none⟩ w.link .left =
          (.queues ((F ++ [m]).map .message) B st.said false, .ready (.inr (.ok .sent))) := by
        have hroom' : (F.map Frame.message).length < Queue.capacity := by
          rwa [List.length_map]
        simp only [Client.attempt, Client.Delivering.attempt, h.link, Link.send_left hroom']
        rw [List.map_append]
        rfl
      rw [step_call htodo hcall hattempt]
      have hat := h.done htodo (.ok .sent) (v :=
        { w with link := .queues ((F ++ [m]).map .message) B st.said false }) rfl rfl rfl
        (by rw [hcontent, hheard]; exact h.account.push m)
      refine Or.inl ⟨past ++ [act], F ++ [m], hat, ?_⟩
      rw [hat.rank_eq, hrank, List.length_append, List.length_singleton]
      simp only [Parley.goOn, Option.isSome_none, Option.isSome_some, if_true, Bool.false_eq_true,
        if_false]
      omega
    · have hattempt : Client.attempt ⟨.deliver (.message m), {}, none⟩ w.link .left =
          (w.link, .waiting ⟨.deliver (.message m), {}, none⟩) := by
        have hfull : ¬(F.map Frame.message).length < Queue.capacity := by
          rwa [List.length_map]
        simp only [Client.attempt, Client.Delivering.attempt, h.link, Link.send_left_full hfull]
      exact Or.inr ⟨step_call_waits htodo hcall hattempt, rfl, Nat.le_of_not_lt hroom⟩

/-- A client that receives takes what there is. -/
theorem At.call_receives (h : At s.secret script past st F B gone w)
    (htodo : w.todo = .receive :: todo)
    (hcall : w.call = some ⟨.receive (.message s.secret), {}, none⟩) :
    (∃ past' B', At s.secret script past' st F B' gone (step s .call w) ∧
      (step s .call w).rank < w.rank) ∨
    (step s .call w = w ∧ B = [] ∧ st.said = false) := by
  have hrank := h.rank_eq
  rw [htodo, List.length_cons, hcall] at hrank
  -- one message less is on the queue, or none
  have htakes {o : Client.Outcome} {B' : List Frame} (hB : B'.length ≤ B.length)
      (hattempt : Client.attempt ⟨.receive (.message s.secret), {}, none⟩ w.link .left =
        (.queues (F.map .message) B' st.said gone, .ready (.inr o)))
      (haccount : Account s.secret (contents s.secret past) (w.heard ++ [o]) st F B' gone) :
      ∃ past' B', At s.secret script past' st F B' gone (step s .call w) ∧
        (step s .call w).rank < w.rank := by
    have hat := h.done htodo o (v :=
      { w with link := .queues (F.map .message) B' st.said gone }) rfl rfl rfl
      (by simpa only [Act.content, Option.toList_none, List.append_nil, Act.heard] using haccount)
    rw [step_call htodo hcall hattempt]
    refine ⟨past ++ [.receive], B', hat, ?_⟩
    rw [hat.rank_eq, hrank]
    simp only [Parley.goOn, Option.isSome_none, Option.isSome_some, if_true, Bool.false_eq_true,
      if_false]
    omega
  cases B with
  | cons f B =>
    refine Or.inl (htakes (Nat.le_succ _) ?_ h.account.take)
    simp only [Client.attempt, h.link, Link.receive_left, received_message]
  | nil =>
    by_cases hsaid : st.said = true
    · refine Or.inl (htakes (Nat.le_refl _) ?_ (h.account.takeEnd hsaid))
      simp only [Client.attempt, h.link, hsaid, Link.receive_left_said]
      rfl
    · have hopen := Bool.eq_false_iff.mpr hsaid
      have hattempt : Client.attempt ⟨.receive (.message s.secret), {}, none⟩ w.link .left =
          (w.link, .waiting ⟨.receive (.message s.secret), {}, none⟩) := by
        simp only [Client.attempt, h.link, hopen, Link.receive_left_nil]
      exact Or.inr ⟨step_call_waits htodo hcall hattempt, rfl, hopen⟩

/-- What the client waits for when a poll of it does nothing. -/
inductive Stuck (secret : Crypto.SharedSecret) (st : Station) (F : List Bytes) (B : List Frame)
    (gone : Bool) : List Act → Prop
  /-- It is done. -/
  | done : Stuck secret st F B gone []
  /-- It waits for room on the queue. -/
  | full {act : Act} {todo : List Act} {m : Bytes} (hact : act.receives = false)
    (hcontent : act.content secret = some (reveal secret m)) (hgone : gone = false)
    (hfull : Queue.capacity ≤ F.length) : Stuck secret st F B gone (act :: todo)
  /-- It waits for a message. -/
  | empty {todo : List Act} (hempty : B = []) (hopen : st.said = false) :
    Stuck secret st F B gone (.receive :: todo)

/-- **A poll of the client.** -/
theorem At.call (h : At s.secret script past st F B gone w) :
    (∃ past' F' B', At s.secret script past' st F' B' gone (step s .call w) ∧
      (step s .call w).rank < w.rank) ∨
    (step s .call w = w ∧ Stuck s.secret st F B gone w.todo) := by
  rcases htodo : w.todo with _ | ⟨act, todo⟩
  · exact Or.inr ⟨by simp only [step, htodo], .done⟩
  rcases hcall : w.call with _ | r
  · obtain ⟨past', hat, hless⟩ := h.call_begins htodo hcall
    exact Or.inl ⟨past', F, B, hat, hless⟩
  obtain ⟨act', todo', htodo', hr⟩ := h.underway r hcall
  obtain ⟨rfl, rfl⟩ := List.cons.inj (htodo.symm.trans htodo')
  cases hr with
  | deliver hact hcontent =>
    rcases h.call_sends htodo hcall hact hcontent with
      ⟨past', F', hat, hless⟩ | ⟨hstep, hgone, hfull⟩
    · exact Or.inl ⟨past', F', B, hat, hless⟩
    · exact Or.inr ⟨hstep, .full hact hcontent hgone hfull⟩
  | receive =>
    rcases h.call_receives htodo hcall with ⟨past', B', hat, hless⟩ | ⟨hstep, hempty, hopen⟩
    · exact Or.inl ⟨past', F, B', hat, hless⟩
    · exact Or.inr ⟨hstep, .empty hempty hopen⟩

/-! #### The server -/

theorem step_serve {t : Timestamp} {signal : Signal} {stop : Server.Stop} {link : Link}
    {host : Host σ} (hpoll : Server.poll t signal w.stop w.link w.host = (stop, link, host)) :
    step s (.serve t signal) w = { w with link, stop, host } := by
  simp only [step, hpoll]

omit [Store σ] in
/-- The server has turned to something. -/
def Parley.turned (w : Parley σ) (st : Station) (F : List Bytes) (B : List Frame) (gone : Bool)
    (host : Host σ) : Parley σ :=
  { w with
    link := .queues (F.map .message) B st.said gone
    stop := stopAt st
    host }

omit [Store σ] in
theorem At.turned (h : At s.secret script past st F B gone w) {st' : Station} {F' : List Bytes}
    {B' : List Frame} {gone' : Bool} (host : Host σ)
    (haccount : Account s.secret (contents s.secret past) w.heard st' F' B' gone')
    (hload : 3 * F'.length + B'.length + Server.load st' gone' <
      3 * F.length + B.length + Server.load st gone) :
    At s.secret script past st' F' B' gone' (w.turned st' F' B' gone' host) ∧
      (w.turned st' F' B' gone' host).rank < w.rank := by
  have hat : At s.secret script past st' F' B' gone' (w.turned st' F' B' gone' host) :=
    ⟨h.script, rfl, rfl, haccount, h.received, h.underway⟩
  refine ⟨hat, ?_⟩
  rw [hat.rank_eq, h.rank_eq]
  exact Nat.add_lt_add_left hload _

/-- **What the server makes of a message**: it returns what it finds in it, or says that it
does not open. -/
theorem received_echo (secret : Crypto.SharedSecret) (host : Host σ) (m : Bytes) :
    (∃ plain envelope host', reveal secret m = .ok plain ∧ reveal secret envelope = .ok plain ∧
      Server.received .echo (.established secret) host .request (.ok (some (.message m))) =
        (Station.replying secret envelope).turn host') ∨
    ∃ e, reveal secret m = .error e ∧
      Server.received .echo (.established secret) host .request (.ok (some (.message m))) =
        (Station.closing (.error (SessionError.decrypt e).toStatus) (.error (.decrypt e))
          true).turn (Server.blamed host (.decrypt e)) := by
  rcases hopens : reveal secret m with e | plain
  · refine Or.inr ⟨e, rfl, ?_⟩
    have hphase : (Server.Phase.established secret).name ≠ .terminated := by simp
    simp only [Server.received, Server.receivedRequest, Link.inbound, hopens, Server.Call.loops]
    exact Server.terminate_eq hphase host (.decrypt e) true
  · obtain ⟨envelope, hseal, hreveal, -⟩ := Crypto.Envelope.sealFresh_of_not_tooLong secret
      (Crypto.Envelope.not_tooLong_of_reveal hopens) host.entropy
    refine Or.inl ⟨plain, envelope, { host with
      entropy := (host.entropy.draw Crypto.Envelope.nonceBytes).2 }, rfl, hreveal, ?_⟩
    simp only [Server.received, Server.receivedRequest, Link.inbound, hopens, Server.opened,
      Server.reply, hseal]
    rfl

variable {t : Timestamp} {signal : Signal}

/-- What the server waits for when a poll of it does nothing. -/
inductive Idle (st : Station) (F : List Bytes) (B : List Frame) (gone : Bool) : Prop
  /-- It waits for a message. -/
  | empty (hframe : st.frame? = none) (hsaid : st.said = false) (hempty : F = [])
  /-- It waits for room on the queue. -/
  | full {f : Frame} (hframe : st.frame? = some f) (hfull : Queue.capacity ≤ B.length)
  /-- It is gone. -/
  | gone (hsaid : st.said = true) (hgone : gone = true)

/-- A server that listens takes the next message. -/
theorem At.serve_listening (hs : signal.cancelled = false)
    (h : At s.secret script past (.listening s.secret) F B false w) :
    (∃ st' F', At s.secret script past st' F' B false (step s (.serve t signal) w) ∧
      (step s (.serve t signal) w).rank < w.rank) ∨
    (step s (.serve t signal) w = w ∧ F = []) := by
  have hstop : w.stop = .waits ⟨.echo, .established s.secret, .receive .request, {}, none⟩ :=
    h.stop
  have hwatched : (Server.watched .echo (.receive .request) && signal.cancelled) = false := by
    rw [hs, Bool.and_false]
  cases F with
  | nil =>
    have hpoll : Server.poll t signal w.stop w.link w.host = (w.stop, w.link, w.host) := by
      rw [hstop, h.link]
      exact Server.poll_receiving hwatched (Link.receive_right_nil {})
    exact Or.inr ⟨step_serve hpoll, rfl⟩
  | cons m F =>
    cases h.account with
    | @listening ps _ _ hpast hheard =>
      rw [List.map_cons] at hpast
      -- the turn that the message leads to, whichever it is
      have hstep (st' : Station) (host : Host σ) (hsaid : st'.said = false)
          (hturn : Server.received .echo (.established s.secret) (w.host.observing t signal)
            .request (.ok (some (.message m))) = st'.turn host) :
          step s (.serve t signal) w = w.turned st' F B false host := by
        have hpoll : Server.poll t signal w.stop w.link w.host =
            (stopAt st', .queues (F.map .message) B false false, host) := by
          rw [hstop, h.link]
          exact Server.poll_received hwatched (Link.receive_right (.message m) {}) hturn
        rw [step_serve hpoll, Parley.turned, hsaid]
      rcases received_echo s.secret (w.host.observing t signal) m with
        ⟨plain, envelope, host, hopens, hreveal, hturn⟩ | ⟨e, hopens, hturn⟩
      · rw [hopens] at hpast
        rw [hstep _ host rfl hturn]
        refine Or.inl ⟨_, F, h.turned host (.replying hpast hreveal hheard) ?_⟩
        rw [List.length_cons, show Server.load (.replying s.secret envelope) false = 3 from rfl,
          show Server.load (.listening s.secret) false = 1 from rfl]
        omega
      · rw [hopens] at hpast
        rw [hstep _ _ rfl hturn]
        refine Or.inl ⟨_, F, h.turned _ (.closing hpast hheard) ?_⟩
        rw [List.length_cons, show Server.load (.listening s.secret) false = 1 from rfl]
        have hload := Server.load_le (.closing (.error (SessionError.decrypt e).toStatus)
          (.error (.decrypt e)) true) false
        omega

/-- A server that returns a payload is done as soon as there is room for it. -/
theorem At.serve_replying (hs : signal.cancelled = false) {envelope : Bytes}
    (h : At s.secret script past (.replying s.secret envelope) F B false w) :
    (∃ B', At s.secret script past (.listening s.secret) F B' false (step s (.serve t signal) w) ∧
      (step s (.serve t signal) w).rank < w.rank) ∨
    (step s (.serve t signal) w = w ∧ Queue.capacity ≤ B.length) := by
  have hstop : w.stop =
      .waits ⟨.echo, .established s.secret, .deliver (.reply envelope), {}, none⟩ := h.stop
  have hwatched :
      (Server.watched .echo (.deliver (.reply envelope)) && signal.cancelled) = false := rfl
  by_cases hroom : B.length < Queue.capacity
  · have hturn : Server.delivered .echo (.established s.secret) (w.host.observing t signal)
        (.reply envelope) (.ok ()) =
          (Station.listening s.secret).turn (w.host.observing t signal) := by
      have hcancelled : ¬(w.host.observing t signal).signal.cancelled = true :=
        Bool.eq_false_iff.mp hs
      exact if_neg hcancelled
    have hpoll : Server.poll t signal w.stop w.link w.host = (stopAt (.listening s.secret),
        .queues (F.map .message) (B ++ [.message envelope]) false false,
        w.host.observing t signal) := by
      rw [hstop, h.link]
      exact Server.poll_delivered hwatched (Link.send_right hroom (.message envelope) none) hturn
    have hstep : step s (.serve t signal) w = w.turned (.listening s.secret) F
        (B ++ [.message envelope]) false (w.host.observing t signal) :=
      step_serve hpoll
    rw [hstep]
    cases h.account with
    | @replying ps _ _ plain _ hpast hopens hheard =>
      refine Or.inl ⟨_, h.turned _ (@Account.listening s.secret _ _ (ps ++ [plain]) _ _ ?_ ?_) ?_⟩
      · rw [hpast, List.map_append, List.append_assoc]
        rfl
      · rw [List.map_append, ← List.append_assoc, hheard, List.map_append, List.map_singleton,
          List.map_singleton, hears_message hopens]
      · rw [List.length_append, List.length_singleton,
          show Server.load (.replying s.secret envelope) false = 3 from rfl,
          show Server.load (.listening s.secret) false = 1 from rfl]
        omega
  · have hpoll : Server.poll t signal w.stop w.link w.host = (w.stop, w.link, w.host) := by
      rw [hstop, h.link]
      exact Server.poll_delivering hwatched (Link.send_right_full hroom (.message envelope) none)
    exact Or.inr ⟨step_serve hpoll, Nat.le_of_not_lt hroom⟩

/-- A server that says what is wrong is done as soon as there is room for that. -/
theorem At.serve_closing (hs : signal.cancelled = false) {e : Crypto.Error}
    (h : At s.secret script past (.closing (.error (SessionError.decrypt e).toStatus)
      (.error (.decrypt e)) true) F B false w) {ps : List Bytes}
    (hpast : contents s.secret past = ps.map .ok ++ .error e :: F.map (reveal s.secret))
    (hheard : w.heard ++ B.map (hears s.secret) = ps.map payload) :
    (∃ B', At s.secret script past (.closed (.error (.decrypt e))) F B' false
      (step s (.serve t signal) w) ∧ (step s (.serve t signal) w).rank < w.rank) ∨
    (step s (.serve t signal) w = w ∧ Queue.capacity ≤ B.length) := by
  have hstop : w.stop = .waits ⟨.echo, .terminated, .deliver (.closing
      (.error (SessionError.decrypt e).toStatus) (.error (.decrypt e)) true), {}, none⟩ := h.stop
  have hwatched : (Server.watched .echo (.deliver (.closing
      (.error (SessionError.decrypt e).toStatus) (.error (.decrypt e)) true)) &&
        signal.cancelled) = false := by
    rw [hs, Bool.and_false]
  by_cases hroom : B.length < Queue.capacity
  · have hpoll : Server.poll t signal w.stop w.link w.host =
        (stopAt (.closed (.error (.decrypt e))), .queues (F.map .message)
          (B ++ [.abort (SessionError.decrypt e).toStatus]) true false,
          w.host.observing t signal) := by
      rw [hstop, h.link]
      exact Server.poll_delivered hwatched (Link.finish_right hroom _ none) rfl
    have hstep : step s (.serve t signal) w = w.turned (.closed (.error (.decrypt e))) F
        (B ++ [.abort (SessionError.decrypt e).toStatus]) false (w.host.observing t signal) :=
      step_serve hpoll
    rw [hstep]
    refine Or.inl ⟨_, h.turned _ (.closed (n := 0) hpast ?_ (absurd rfl)) ?_⟩
    · rw [List.map_append, ← List.append_assoc, hheard, List.map_singleton, hears_refusal]
      rfl
    · rw [List.length_append, List.length_singleton,
        show Server.load (.closing (.error (SessionError.decrypt e).toStatus)
          (.error (.decrypt e)) true) false = 3 from rfl,
        show Server.load (.closed (.error (.decrypt e))) false = 1 from rfl]
      omega
  · have hpoll : Server.poll t signal w.stop w.link w.host = (w.stop, w.link, w.host) := by
      rw [hstop, h.link]
      exact Server.poll_delivering hwatched (Link.finish_right_full hroom _ none)
    exact Or.inr ⟨step_serve hpoll, Nat.le_of_not_lt hroom⟩

/-- A server that is done lets go of its end. -/
theorem At.serve_closed {e : Crypto.Error}
    (h : At s.secret script past (.closed (.error (.decrypt e))) F B gone w) :
    (At s.secret script past (.closed (.error (.decrypt e))) F B true
      (step s (.serve t signal) w) ∧ (step s (.serve t signal) w).rank < w.rank) ∨
    (step s (.serve t signal) w = w ∧ gone = true) := by
  have hstop : w.stop = .ends .terminated (.error (.decrypt e)) := h.stop
  have hstep : step s (.serve t signal) w = { w with link := w.link.dropEnd .right } := by
    refine step_serve ?_
    rw [hstop]
    rfl
  have hdrop : w.link.dropEnd .right = .queues (F.map .message) B true true := by
    rw [h.link]
    rfl
  cases gone with
  | true =>
    refine Or.inr ⟨?_, rfl⟩
    have hsame : w.link.dropEnd .right = w.link := hdrop.trans h.link.symm
    rw [hstep, hsame]
  | false =>
    have hturned : step s (.serve t signal) w =
        w.turned (.closed (.error (.decrypt e))) F B true w.host := by
      rw [hstep, hdrop, Parley.turned, ← h.stop]
      rfl
    rw [hturned]
    cases h.account with
    | closed hpast hheard hn =>
      exact Or.inl (h.turned w.host (.closed hpast hheard hn)
        (Nat.add_lt_add_left (Nat.lt_succ_self 0) _))

/-- **A poll of the server.** -/
theorem At.serve (hs : signal.cancelled = false) (h : At s.secret script past st F B gone w) :
    (∃ st' F' B' gone', At s.secret script past st' F' B' gone' (step s (.serve t signal) w) ∧
      (step s (.serve t signal) w).rank < w.rank) ∨
    (step s (.serve t signal) w = w ∧ Idle st F B gone) := by
  cases h.account with
  | listening =>
    rcases h.serve_listening (t := t) hs with ⟨st', F', hnext⟩ | ⟨hstep, hempty⟩
    · exact Or.inl ⟨st', F', B, false, hnext⟩
    · exact Or.inr ⟨hstep, .empty rfl rfl hempty⟩
  | replying =>
    rcases h.serve_replying (t := t) hs with ⟨B', hnext⟩ | ⟨hstep, hfull⟩
    · exact Or.inl ⟨_, F, B', false, hnext⟩
    · exact Or.inr ⟨hstep, .full rfl hfull⟩
  | closing hpast hheard =>
    rcases h.serve_closing (t := t) hs hpast hheard with ⟨B', hnext⟩ | ⟨hstep, hfull⟩
    · exact Or.inl ⟨_, F, B', false, hnext⟩
    · exact Or.inr ⟨hstep, .full rfl hfull⟩
  | closed =>
    rcases h.serve_closed with hnext | ⟨hstep, hgone⟩
    · exact Or.inl ⟨_, F, B, true, hnext⟩
    · exact Or.inr ⟨hstep, .gone rfl hgone⟩

end Moves

end Vault.Echo
