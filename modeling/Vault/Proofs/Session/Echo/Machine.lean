import Vault.Proofs.Session.Meeting

/-!
# A client and a server that returns what it is sent

A client on one end of a link of queues sends payloads and receives messages, in an order of
its own choice, and a server on the other end returns every message it can open
(`Vault.Echo.step`). The client may also put messages on the link that it has not sealed; what
is in them shows only when the server opens them (`Vault.Echo.Act.content`).

Whatever has been sent is in one of four places: on the queue to the server, in the server's
hands, on the queue to the client, or received. Their order is never changed, so the four
together are what was sent (`Vault.Echo.Account`). A message that does not open is the last one
that the server takes: it says what is wrong, and everything behind the message stays where it
is.
-/

namespace Vault.Crypto.Envelope

/-- What was in an envelope can be put into another one. -/
theorem not_tooLong_of_reveal {s : SharedSecret} {envelope plain : Bytes}
    (h : reveal s envelope = .ok plain) : ¬tooLong plain.size = true := by
  simp only [reveal] at h
  split_ifs at h with hsize hversion hlong htag
  obtain rfl := Except.ok.inj h
  rwa [ChaCha20.size_apply]

end Vault.Crypto.Envelope

namespace Vault.Echo

open Crypto.Envelope (reveal tooLong)
open Duplex (Move)
open Server (Station)

variable {σ : Type} [Store σ]

/-! ### The machine -/

/-- What the client does. -/
inductive Act where
  /-- It sends a payload. -/
  | send (plain : Bytes)
  /-- It puts a message on the link that need not be an envelope. -/
  | put (m : Bytes)
  /-- It receives a message. -/
  | receive

/-- A client that has things to do and a server that returns messages, at the two ends of a
link. -/
structure Parley (σ : Type) where
  /-- What the client has not done yet. -/
  todo : List Act
  /-- How far it has come with the first of that. -/
  call : Option Client.Running
  /-- What it has received. -/
  heard : List Client.Outcome
  /-- The client's random bytes. -/
  entropy : Entropy
  /-- The link. -/
  link : Link
  /-- Where the server's call has got to. -/
  stop : Server.Stop
  /-- The server's host. -/
  host : Host σ

/-- Start to do something. -/
def Act.start (s : Client.Session) (e : Entropy) : Act → Client.Next × Entropy
  | send plain => Client.start (.send s plain) e
  | put m => (.inl (.deliver (.message m)), e)
  | receive => Client.start (.receive s) e

/-- What the client has received when it has done something. -/
def Act.heard : Act → Client.Outcome → List Client.Outcome
  | receive, o => [o]
  | _, _ => []

omit [Store σ] in
/-- The client goes on with the first thing it has to do, or is done with it. -/
def Parley.goOn (w : Parley σ) (act : Act) (todo : List Act) : Client.Next → Parley σ
  | .inl waiting => { w with call := some { waiting } }
  | .inr o => { w with todo, call := none, heard := w.heard ++ act.heard o }

/-- One move: whoever is polled tries once to get past its wait. A client that waits for
nothing turns to the next thing it has to do, and a server whose session is over lets go of its
end. -/
def step (s : Client.Session) : Move → Parley σ → Parley σ
  | .call, w =>
    match w.todo with
    | [] => w
    | act :: todo =>
      match w.call with
      | none => { w with entropy := (act.start s w.entropy).2 }.goOn act todo
          (act.start s w.entropy).1
      | some r =>
        match Client.attempt r w.link .left with
        | (link, .waiting r) => { w with link, call := some r }
        | (link, .ready next) => { w with link }.goOn act todo next
  | .serve t signal, w =>
    match Server.poll t signal w.stop w.link w.host with
    | (stop, link, host) => { w with link, stop, host }

omit [Store σ] in
/-- The two have a session, and the server listens. -/
def start (s : Client.Session) (e : Entropy) (script : List Act) (h : Host σ) : Parley σ where
  todo := script
  call := none
  heard := []
  entropy := e
  link := .inMemory
  stop := .waits { call := .echo, phase := .established s.secret, waiting := .receive .request }
  host := h

/-- Where the two have got to. -/
def parley (s : Client.Session) (e : Entropy) (script : List Act) (h : Host σ) (sched : ℕ → Move)
    (n : ℕ) : Parley σ :=
  Schedule.after (step s) sched (start s e script h) n

/-! ### What is sent and what comes back -/

/-- What the server finds in what the client sends. A payload that is too long for the cipher
is not sent at all. -/
def Act.content (secret : Crypto.SharedSecret) : Act → Option (Except Crypto.Error Bytes)
  | send plain => if tooLong plain.size then none else some (.ok plain)
  | put m => some (reveal secret m)
  | receive => none

/-- What the server finds in all that the client sends. -/
def contents (secret : Crypto.SharedSecret) (script : List Act) :
    List (Except Crypto.Error Bytes) :=
  script.filterMap (Act.content secret)

/-- Whether something is received. -/
def Act.receives : Act → Bool
  | receive => true
  | _ => false

/-- How many messages the client receives. -/
def receives (script : List Act) : ℕ := script.countP Act.receives

/-- A payload that the client receives. -/
def payload (plain : Bytes) : Client.Outcome := .ok (.message (some plain))

/-- What the client receives when nothing more will come. -/
def ended : Client.Outcome := .ok (.message none)

/-- What the client receives when the server could not open a message. -/
def refusal (e : Crypto.Error) : Client.Outcome :=
  .error (.link (.remote (.invalidArgument (SessionError.decrypt e).message)))

/-- What the client receives when a frame arrives. -/
def hears (secret : Crypto.SharedSecret) (f : Frame) : Client.Outcome :=
  match Link.inbound (.ok (some f)) with
  | .error e => .error (.link e)
  | .ok none => ended
  | .ok (some b) => (Client.opened secret b).map fun plain => .message (some plain)

/-- **A client that does not go too far ahead**, where so many messages are ahead already: it
receives nothing that it has not sent, and what it has not received fits on the two queues and
in the server's hands. -/
def Paced (secret : Crypto.SharedSecret) : ℕ → List Act → Prop
  | _, [] => True
  | ahead, act :: script =>
    match act.receives, act.content secret with
    | true, _ => 0 < ahead ∧ Paced secret (ahead - 1) script
    | false, some _ => ahead < 2 * Queue.capacity + 1 ∧ Paced secret (ahead + 1) script
    | false, none => Paced secret ahead script

section Contents

variable {secret : Crypto.SharedSecret} {past todo : List Act} {act : Act}

theorem contents_concat (c : Option (Except Crypto.Error Bytes)) (hc : act.content secret = c) :
    contents secret (past ++ [act]) = contents secret past ++ c.toList := by
  rw [contents, contents, List.filterMap_append]
  congr 1
  rw [List.filterMap_cons, hc, List.filterMap_nil]
  cases c <;> rfl

theorem receives_concat :
    receives (past ++ [act]) = receives past + act.receives.toNat := by
  rw [receives, receives, List.countP_append, List.countP_singleton]
  cases act.receives <;> rfl

theorem length_heard (act : Act) (o : Client.Outcome) :
    (act.heard o).length = act.receives.toNat := by
  cases act <;> rfl

/-- Pace is kept in what is left to do. -/
theorem Paced.rest {ahead : ℕ} (h : Paced secret ahead (past ++ todo)) :
    ∃ ahead', ahead' + receives past = ahead + (contents secret past).length ∧
      Paced secret ahead' todo := by
  induction past generalizing ahead with
  | nil => exact ⟨ahead, rfl, h⟩
  | cons act past ih =>
    have hreceives : receives (act :: past) = receives past + act.receives.toNat := by
      rw [receives, receives, List.countP_cons]
      cases act.receives <;> rfl
    rw [List.cons_append, Paced] at h
    rw [hreceives, contents, List.filterMap_cons]
    cases hact : act.receives with
    | true =>
      have hnone : act.content secret = none := by
        cases act with
        | receive => rfl
        | _ => nomatch hact
      rw [hact, hnone] at h
      obtain ⟨ahead', hsum, hrest⟩ := ih h.2
      refine ⟨ahead', ?_, hrest⟩
      rw [hnone]
      have hpos := h.1
      rw [contents] at hsum
      simp only [Bool.toNat_true]
      omega
    | false =>
      rw [hact] at h
      cases hcontent : act.content secret with
      | none =>
        rw [hcontent] at h
        exact ih h
      | some c =>
        rw [hcontent] at h
        obtain ⟨ahead', hsum, hrest⟩ := ih h.2
        refine ⟨ahead', ?_, hrest⟩
        rw [contents] at hsum
        simp only [Bool.toNat_false, List.length_cons]
        omega

theorem hears_message {envelope plain : Bytes} (h : reveal secret envelope = .ok plain) :
    hears secret (.message envelope) = payload plain := by
  simp only [hears, Link.inbound, Client.opened, h]
  rfl

theorem hears_refusal (e : Crypto.Error) :
    hears secret (.abort (SessionError.decrypt e).toStatus) = refusal e := rfl

theorem received_message (f : Frame) :
    Client.received (.message secret) (.ok (some f)) = .inr (hears secret f) := by
  cases f <;> rfl

end Contents

/-! ### Where everything is -/

section At

/-- The state of the server's call at a station. -/
def stopAt (st : Station) : Server.Stop :=
  match st.next with
  | .inl waiting => .waits { call := .echo, phase := st.phase, waiting }
  | .inr result => .ends st.phase result

/-- **Where everything is** that was sent: what the server has taken is in its hands, on the
queue to the client or received, and the rest is on the queue to the server. Behind a message
that does not open nothing is taken. -/
inductive Account (secret : Crypto.SharedSecret) (past : List (Except Crypto.Error Bytes))
    (heard : List Client.Outcome) : Station → List Bytes → List Frame → Bool → Prop
  /-- The server listens. -/
  | listening {ps F : List Bytes} {B : List Frame}
    (hpast : past = ps.map .ok ++ F.map (reveal secret))
    (hheard : heard ++ B.map (hears secret) = ps.map payload) :
    Account secret past heard (.listening secret) F B false
  /-- The server returns a payload. -/
  | replying {ps F : List Bytes} {B : List Frame} {plain envelope : Bytes}
    (hpast : past = ps.map .ok ++ .ok plain :: F.map (reveal secret))
    (hopens : reveal secret envelope = .ok plain)
    (hheard : heard ++ B.map (hears secret) = ps.map payload) :
    Account secret past heard (.replying secret envelope) F B false
  /-- The server says that a message does not open. -/
  | closing {ps F : List Bytes} {B : List Frame} {e : Crypto.Error}
    (hpast : past = ps.map .ok ++ .error e :: F.map (reveal secret))
    (hheard : heard ++ B.map (hears secret) = ps.map payload) :
    Account secret past heard
      (.closing (.error (SessionError.decrypt e).toStatus) (.error (.decrypt e)) true) F B false
  /-- The server has said so. -/
  | closed {ps F : List Bytes} {B : List Frame} {e : Crypto.Error} {gone : Bool} {n : ℕ}
    {later : List (Except Crypto.Error Bytes)} (hpast : past = ps.map .ok ++ .error e :: later)
    (hheard : heard ++ B.map (hears secret) =
      ps.map payload ++ refusal e :: List.replicate n ended) (hn : n ≠ 0 → B = []) :
    Account secret past heard (.closed (.error (.decrypt e))) F B gone

/-- A call of the client that is under way. -/
inductive Underway (secret : Crypto.SharedSecret) : Act → Client.Running → Prop
  /-- A message is sent. -/
  | deliver {act : Act} {m : Bytes} (hact : act.receives = false)
    (hcontent : act.content secret = some (reveal secret m)) :
    Underway secret act ⟨.deliver (.message m), {}, none⟩
  /-- A message is received. -/
  | receive : Underway secret .receive ⟨.receive (.message secret), {}, none⟩

/-- **What can be seen** at a moment at which the client has done this much, the server is at
this station, and these are the messages on the two queues. -/
structure At (secret : Crypto.SharedSecret) (script past : List Act) (st : Station)
    (F : List Bytes) (B : List Frame) (gone : Bool) (w : Parley σ) : Prop where
  script : script = past ++ w.todo
  link : w.link = .queues (F.map .message) B st.said gone
  stop : w.stop = stopAt st
  account : Account secret (contents secret past) w.heard st F B gone
  received : w.heard.length = receives past
  underway : ∀ r, w.call = some r → ∃ act todo, w.todo = act :: todo ∧ Underway secret act r

variable {secret : Crypto.SharedSecret} {past : List (Except Crypto.Error Bytes)}
  {heard : List Client.Outcome} {st : Station} {F : List Bytes} {B : List Frame} {gone : Bool}

omit [Store σ] in
theorem at_start (s : Client.Session) (e : Entropy) (script : List Act) (h : Host σ) :
    At s.secret script [] (.listening s.secret) [] [] false (start s e script h) where
  script := rfl
  link := rfl
  stop := rfl
  account := @Account.listening s.secret _ _ [] [] [] rfl rfl
  received := rfl
  underway := fun _ hr => nomatch hr

/-- One more message is sent. -/
theorem Account.push (h : Account secret past heard st F B false) (m : Bytes) :
    Account secret (past ++ [reveal secret m]) heard st (F ++ [m]) B false := by
  cases h with
  | listening hpast hheard =>
    refine .listening ?_ hheard
    rw [hpast, List.map_append, List.append_assoc, List.map_singleton]
  | replying hpast hopens hheard =>
    refine .replying ?_ hopens hheard
    rw [hpast, List.map_append, List.append_assoc, List.cons_append, List.map_singleton]
  | closing hpast hheard =>
    refine .closing ?_ hheard
    rw [hpast, List.map_append, List.append_assoc, List.cons_append, List.map_singleton]
  | closed hpast hheard hn =>
    refine .closed (by rw [hpast, List.append_assoc, List.cons_append]) hheard hn

/-- Nobody takes what is sent to a server that is gone. -/
theorem Account.pushGone (h : Account secret past heard st F B true)
    (c : Except Crypto.Error Bytes) : Account secret (past ++ [c]) heard st F B true := by
  cases h with
  | closed hpast hheard hn =>
    exact .closed (by rw [hpast, List.append_assoc, List.cons_append]) hheard hn

/-- The client takes the next frame. -/
theorem Account.take {f : Frame} (h : Account secret past heard st F (f :: B) gone) :
    Account secret past (heard ++ [hears secret f]) st F B gone := by
  have hmove (os : List Client.Outcome) (hos : heard ++ (f :: B).map (hears secret) = os) :
      heard ++ [hears secret f] ++ B.map (hears secret) = os := by
    rw [List.append_assoc]
    exact hos
  cases h with
  | listening hpast hheard => exact .listening hpast (hmove _ hheard)
  | replying hpast hopens hheard => exact .replying hpast hopens (hmove _ hheard)
  | closing hpast hheard => exact .closing hpast (hmove _ hheard)
  | closed hpast hheard hn => exact .closed hpast (hmove _ hheard) fun hc => nomatch hn hc

/-- The client learns that nothing more will come. -/
theorem Account.takeEnd (h : Account secret past heard st F [] gone) (hsaid : st.said = true) :
    Account secret past (heard ++ [ended]) st F [] gone := by
  cases h with
  | @closed ps _ _ e _ n later hpast hheard hn =>
    refine .closed (n := n + 1) hpast ?_ fun _ => rfl
    rw [List.map_nil, List.append_nil] at hheard ⊢
    rw [hheard, List.append_assoc, List.cons_append, ← List.replicate_succ']
  | listening => nomatch hsaid
  | replying => nomatch hsaid
  | closing => nomatch hsaid

end At

end Vault.Echo
