import Vault.Proofs.Session.Echo.Moves

/-!
# A server that returns what it is sent

The two queues and the server's hands hold 64, 64 and 1 of the messages. A client that goes
further ahead without receiving anything may wait for ever, and so may one that receives more
than it has sent. One that does neither (`Vault.Echo.Paced`) gets through, however the two are
polled: as long as it waits, it or the server can move. What it receives is what it has sent, in
its order, up to the first message that does not open (`Vault.Echo.echo_returns_payloads`).
-/

namespace Vault.Echo

open Duplex (Move)
open Server (Station)

variable {σ : Type} [Store σ]

/-! ### Nobody waits for ever -/

section Rest

variable {s : Client.Session} {script past : List Act} {st : Station} {F : List Bytes}
  {B : List Frame} {gone : Bool} {w : Parley σ} {e : Entropy} {h : Host σ} {sched : ℕ → Move}

/-- **Nothing is lost**: until the server has said that something is wrong, whatever was sent is
received, or on one of the queues, or in the server's hands. -/
theorem Account.length_eq {secret : Crypto.SharedSecret} {sent : List (Except Crypto.Error Bytes)}
    {heard : List Client.Outcome} (ha : Account secret sent heard st F B gone)
    (hsaid : st.said = false) :
    sent.length = heard.length + B.length + F.length + st.frame?.toList.length := by
  cases ha with
  | listening hpast hheard =>
    have hlength := congrArg List.length hheard
    simp only [List.length_append, List.length_map] at hlength
    simp only [hpast, List.length_append, List.length_map, hlength]
    rfl
  | replying hpast hopens hheard =>
    have hlength := congrArg List.length hheard
    simp only [List.length_append, List.length_map] at hlength
    simp only [hpast, List.length_append, List.length_map, List.length_cons, hlength]
    rfl
  | closing hpast hheard =>
    have hlength := congrArg List.length hheard
    simp only [List.length_append, List.length_map] at hlength
    simp only [hpast, List.length_append, List.length_map, List.length_cons, hlength]
    rfl
  | closed hpast hheard hn => nomatch hsaid

omit [Store σ] in
/-- **The two do not both wait** while the client has something to do: where it waits for room,
the queues and the server's hands are not all full, and where it waits for a message, one is
on its way. -/
theorem At.not_stuck (hat : At s.secret script past st F B gone w)
    (hpaced : Paced s.secret 0 script) (htodo : w.todo ≠ []) (hidle : Idle st F B gone) :
    ¬Stuck s.secret st F B gone w.todo := by
  have hcapacity : Queue.capacity = 64 := rfl
  have hreceived := hat.received
  rw [hat.script] at hpaced
  obtain ⟨ahead, hahead, hrest⟩ := hpaced.rest
  intro hstuck
  cases hstuck' : w.todo with
  | nil => exact htodo hstuck'
  | cons act todo =>
    rw [hstuck'] at hstuck hrest
    cases hstuck with
    | full hact hcontent hgone hfull =>
      simp only [Paced, hact, hcontent] at hrest
      cases hidle with
      | empty hframe hsaid hempty =>
        rw [hempty, List.length_nil] at hfull
        omega
      | @full f hframe hfull' =>
        have hsaid : st.said = false := Server.Station.said_of_frame hframe
        have hlength := hat.account.length_eq hsaid
        rw [hframe, Option.toList_some, List.length_singleton] at hlength
        omega
      | gone hsaid hgone' => cases hgone.symm.trans hgone'
    | empty hempty hopen =>
      simp only [Paced, Act.receives] at hrest
      cases hidle with
      | empty hframe hsaid hempty' =>
        have hlength := hat.account.length_eq hsaid
        rw [hframe, hempty, hempty', Option.toList_none] at hlength
        simp only [List.length_nil] at hlength
        omega
      | full hframe hfull =>
        rw [hempty, List.length_nil] at hfull
        omega
      | gone hsaid hgone => cases hopen.symm.trans hsaid

/-- What can be seen at a moment. -/
def Sound (s : Client.Session) (script : List Act) (w : Parley σ) : Prop :=
  ∃ past st F B gone, At s.secret script past st F B gone w

/-- Every move does nothing or brings the end nearer. -/
theorem Sound.step {m : Move} (hcalm : m.Calm) (hw : Sound s script w) :
    Sound s script (step s m w) ∧ (Echo.step s m w = w ∨ (Echo.step s m w).rank < w.rank) := by
  obtain ⟨past, st, F, B, gone, hat⟩ := hw
  cases m with
  | call =>
    rcases hat.call with ⟨past', F', B', hnext, hless⟩ | ⟨hstep, -⟩
    · exact ⟨⟨past', st, F', B', gone, hnext⟩, Or.inr hless⟩
    · rw [hstep]
      exact ⟨⟨past, st, F, B, gone, hat⟩, Or.inl rfl⟩
  | serve t signal =>
    rcases hat.serve (t := t) hcalm with ⟨st', F', B', gone', hnext, hless⟩ | ⟨hstep, -⟩
    · exact ⟨⟨past, st', F', B', gone', hnext⟩, Or.inr hless⟩
    · rw [hstep]
      exact ⟨⟨past, st, F, B, gone, hat⟩, Or.inl rfl⟩

theorem sound_parley (s : Client.Session) (e : Entropy) (script : List Act) (h : Host σ)
    (hcalm : ∀ n, (sched n).Calm) (n : ℕ) : Sound s script (parley s e script h sched n) := by
  induction n with
  | zero => exact ⟨_, _, _, _, _, at_start s e script h⟩
  | succ n ih => exact (ih.step (hcalm n)).1

theorem todo_step (m : Move) (hw : w.todo = []) : (step s m w).todo = [] := by
  cases m with
  | call => simp only [step, hw]
  | serve t signal => exact hw

/-- What is left to do as long as the client is not done. -/
def Parley.left (w : Parley σ) : ℕ := if w.todo = [] then 0 else w.rank

omit [Store σ] in
theorem left_eq_zero : w.left = 0 ↔ w.todo = [] := by
  rw [Parley.left]
  split_ifs with htodo
  · exact ⟨fun _ => htodo, fun _ => rfl⟩
  · refine ⟨fun hrank => ?_, fun hc => absurd hc htodo⟩
    have hpos := List.length_pos_iff.mpr htodo
    rw [Parley.rank] at hrank
    omega

theorem left_step {m : Move} (hless : (step s m w).rank < w.rank) (htodo : w.todo ≠ []) :
    (step s m w).left < w.left := by
  rw [Parley.left, Parley.left, if_neg htodo]
  split_ifs
  · exact Nat.zero_lt_of_lt hless
  · exact hless

/-- **A client that does not go too far ahead gets through.** -/
theorem comes_through (s : Client.Session) (e : Entropy) (script : List Act) (h : Host σ)
    (hpaced : Paced s.secret 0 script) (hcalm : ∀ n, (sched n).Calm)
    (hcall : Schedule.Again sched (· = .call))
    (hserve : Schedule.Again sched fun m => ∃ t signal, m = .serve t signal) :
    ∃ n, ∀ k, n ≤ k → (parley s e script h sched k).todo = [] := by
  have hzero : ∃ n, 0 ≤ n ∧ (Schedule.after (fun m : { m : Move // m.Calm } => step s m.1)
      (fun n => ⟨sched n, hcalm n⟩) (start s e script h) n).left = 0 := by
    refine Schedule.reaches_rank_zero (Sound s script) Parley.left
      (fun w m => w.todo ≠ [] ∧ step s m.1 w ≠ w) (fun m w hw => (hw.step m.2).1) ?_ ?_ ?_ ?_
      ⟨_, _, _, _, _, at_start s e script h⟩
    · intro m w hw
      by_cases htodo : w.todo = []
      · rw [left_eq_zero.mpr (todo_step m.1 htodo)]
        exact Nat.zero_le _
      · rcases (hw.step m.2).2 with hstay | hless
        · rw [hstay]
        · exact Nat.le_of_lt (left_step hless htodo)
    · rintro m w hw hsame m' ⟨htodo, hhelps⟩
      rcases (hw.step m.2).2 with hstay | hless
      · rw [hstay]
        exact ⟨htodo, hhelps⟩
      · exact absurd hsame (Nat.ne_of_lt (left_step hless htodo))
    · rintro m w hw ⟨htodo, hhelps⟩
      rcases (hw.step m.2).2 with hstay | hless
      · exact absurd hstay hhelps
      · exact left_step hless htodo
    · -- the client can move, or else every poll of the server helps
      intro w hw hpos n
      have htodo : w.todo ≠ [] := fun hc => Nat.ne_of_gt hpos (left_eq_zero.mpr hc)
      obtain ⟨past, st, F, B, gone, hat⟩ := hw
      rcases hat.call with ⟨-, -, -, -, hless⟩ | ⟨-, hstuck⟩
      · obtain ⟨k, hk, hmove⟩ := hcall n
        refine ⟨k, hk, htodo, fun hsame : step s (sched k) w = w => ?_⟩
        rw [hmove] at hsame
        exact absurd (congrArg Parley.rank hsame) (Nat.ne_of_lt hless)
      · obtain ⟨k, hk, t, signal, hmove⟩ := hserve n
        refine ⟨k, hk, htodo, fun hsame : step s (sched k) w = w => ?_⟩
        have hs := hcalm k
        rw [hmove] at hs hsame
        rcases hat.serve (t := t) hs with ⟨-, -, -, -, -, hless⟩ | ⟨-, hidle⟩
        · exact absurd (congrArg Parley.rank hsame) (Nat.ne_of_lt hless)
        · exact hat.not_stuck hpaced htodo hidle hstuck
  obtain ⟨n, -, hn⟩ := hzero
  rw [Schedule.after_subtype] at hn
  exact ⟨n, fun k hk => Schedule.after_keeps (fun w : Parley σ => w.todo = [])
    (fun m _ hw => todo_step m hw) (left_eq_zero.mp hn) hk⟩

end Rest

/-! ### What the client receives -/

section Received

/-- What is found in the messages before the first one that does not open. -/
def good : List (Except Crypto.Error Bytes) → List Bytes
  | [] => []
  | .ok plain :: cs => plain :: good cs
  | .error _ :: _ => []

/-- Why the first message that does not open does not. -/
def failure? : List (Except Crypto.Error Bytes) → Option Crypto.Error
  | [] => none
  | .ok _ :: cs => failure? cs
  | .error e :: _ => some e

theorem good_append (ps : List Bytes) (cs : List (Except Crypto.Error Bytes)) :
    good (ps.map .ok ++ cs) = ps ++ good cs := by
  induction ps with
  | nil => rfl
  | cons p ps ih => exact congrArg (p :: ·) ih

theorem failure?_append (ps : List Bytes) (cs : List (Except Crypto.Error Bytes)) :
    failure? (ps.map .ok ++ cs) = failure? cs := by
  induction ps with
  | nil => rfl
  | cons p ps ih => exact ih

/-- **What a client has received**: some of what was found in the messages before the first that
does not open, or all of it, the server's refusal of that one, and nothing after that. Only
then is the server's call over. -/
inductive Received (cs : List (Except Crypto.Error Bytes)) (heard : List Client.Outcome)
    (stop : Server.Stop) : Prop
  /-- The server has not refused anything. -/
  | payloads (hheard : heard <+: (good cs).map payload)
    (hstop : ∀ phase result, stop ≠ .ends phase result)
  /-- The server has refused a message. -/
  | refused {e : Crypto.Error} (n : ℕ) (hfailure : failure? cs = some e)
    (hheard : heard <+: (good cs).map payload ++ refusal e :: List.replicate n ended)
    (hn : n ≤ heard.length) (hstop : stop = .ends .terminated (.error (.decrypt e)))

variable {s : Client.Session} {script past : List Act} {st : Station} {F : List Bytes}
  {B : List Frame} {gone : Bool} {w : Parley σ}

omit [Store σ] in
theorem At.received_all (hat : At s.secret script past st F B gone w) :
    Received (contents s.secret script) w.heard w.stop := by
  have hcontents : contents s.secret script =
      contents s.secret past ++ contents s.secret w.todo := by
    rw [hat.script, contents, contents, contents, List.filterMap_append]
  -- as long as the server is at work, the client has some of what the server has taken
  have hopen {ps : List Bytes} {more : List (Except Crypto.Error Bytes)}
      (hpast : contents s.secret past = ps.map .ok ++ more)
      (hheard : w.heard ++ B.map (hears s.secret) = ps.map payload)
      (hstop : ∀ phase result, w.stop ≠ .ends phase result) :
      Received (contents s.secret script) w.heard w.stop := by
    refine .payloads ?_ hstop
    rw [hcontents, hpast, List.append_assoc, good_append, List.map_append, ← hheard,
      List.append_assoc]
    exact List.prefix_append _ _
  cases hat.account with
  | listening hpast hheard =>
    refine hopen hpast hheard fun phase result hc => ?_
    cases hat.stop.symm.trans hc
  | replying hpast hopens hheard =>
    refine hopen hpast hheard fun phase result hc => ?_
    cases hat.stop.symm.trans hc
  | closing hpast hheard =>
    refine hopen hpast hheard fun phase result hc => ?_
    cases hat.stop.symm.trans hc
  | @closed ps _ _ e _ n later hpast hheard hn =>
    have hcs : contents s.secret script =
        ps.map .ok ++ (.error e :: (later ++ contents s.secret w.todo)) := by
      rw [hcontents, hpast, List.append_assoc, List.cons_append]
    refine .refused n ?_ ?_ ?_ hat.stop
    · rw [hcs, failure?_append]
      rfl
    · rw [hcs, good_append, good, List.append_nil, ← hheard]
      exact List.prefix_append _ _
    · rcases Nat.eq_zero_or_pos n with hzero | hpos
      · rw [hzero]
        exact Nat.zero_le _
      · have hlength := congrArg List.length hheard
        rw [hn (Nat.ne_of_gt hpos)] at hlength
        simp only [List.map_nil, List.append_nil, List.length_append, List.length_map,
          List.length_cons, List.length_replicate] at hlength
        omega

omit [Store σ] in
theorem At.length_heard_le (hat : At s.secret script past st F B gone w) :
    w.heard.length ≤ receives script := by
  rw [hat.received, hat.script, receives, receives, List.countP_append]
  exact Nat.le_add_right _ _

/-- **A server that returns messages returns every payload**, byte for byte and in order: what
the client has received is, at every moment and however the two are polled, the first few of
the payloads it sends. If a message does not open, exactly the payloads before it are
returned; then the client receives an abort of kind `invalid_argument` and afterwards only the
end of the stream, and the server's call has come to the failure to open the message. A client
that goes no further ahead than the queues allow receives as many messages as it wants to. -/
theorem echo_returns_payloads (s : Client.Session) (e : Entropy) (script : List Act) (h : Host σ)
    (sched : ℕ → Move) (hcalm : ∀ n, (sched n).Calm) :
    (∀ ps : List Bytes, contents s.secret script = ps.map .ok →
      ∀ n, (parley s e script h sched n).heard <+: ps.map payload) ∧
    (∀ (ps : List Bytes) (err : Crypto.Error) (later : List (Except Crypto.Error Bytes)),
      contents s.secret script = ps.map .ok ++ .error err :: later →
      ∀ n, (parley s e script h sched n).heard <+:
          ps.map payload ++ refusal err :: List.replicate (receives script) ended ∧
        (ps.length < (parley s e script h sched n).heard.length →
          (parley s e script h sched n).stop = .ends .terminated (.error (.decrypt err)))) ∧
    (Paced s.secret 0 script → Schedule.Again sched (· = .call) →
      (Schedule.Again sched fun m => ∃ t signal, m = .serve t signal) →
      ∃ n, ∀ k, n ≤ k → (parley s e script h sched k).todo = [] ∧
        (parley s e script h sched k).heard.length = receives script) := by
  refine ⟨?_, ?_, ?_⟩
  · intro ps hps n
    obtain ⟨past, st, F, B, gone, hat⟩ := sound_parley s e script h hcalm n
    have hgood : good (contents s.secret script) = ps := by
      rw [hps, ← List.append_nil (ps.map _), good_append, good, List.append_nil]
    have hnone : failure? (contents s.secret script) = none := by
      rw [hps, ← List.append_nil (ps.map _), failure?_append, failure?]
    cases hat.received_all with
    | payloads hheard hstop => rwa [hgood] at hheard
    | refused n hfailure hheard hn hstop => exact nomatch hnone.symm.trans hfailure
  · intro ps err later hps n
    obtain ⟨past, st, F, B, gone, hat⟩ := sound_parley s e script h hcalm n
    have hgood : good (contents s.secret script) = ps := by
      rw [hps, good_append, good, List.append_nil]
    have hsome : failure? (contents s.secret script) = some err := by
      rw [hps, failure?_append, failure?]
    cases hat.received_all with
    | payloads hheard hstop =>
      rw [hgood] at hheard
      refine ⟨hheard.trans (List.prefix_append _ _), fun hlonger => ?_⟩
      have hle := hheard.length_le
      rw [List.length_map] at hle
      omega
    | @refused e n hfailure hheard hn hstop =>
      obtain rfl := Option.some.inj (hsome.symm.trans hfailure)
      rw [hgood] at hheard
      refine ⟨hheard.trans ?_, fun _ => hstop⟩
      obtain ⟨k, hk⟩ := Nat.exists_eq_add_of_le (hn.trans hat.length_heard_le)
      rw [hk, List.replicate_add, ← List.cons_append, ← List.append_assoc]
      exact List.prefix_append _ _
  · intro hpaced hcall hserve
    obtain ⟨n, hn⟩ := comes_through s e script h hpaced hcalm hcall hserve
    refine ⟨n, fun k hk => ⟨hn k hk, ?_⟩⟩
    obtain ⟨past, st, F, B, gone, hat⟩ := sound_parley s e script h hcalm k
    rw [hat.received, hat.script, hn k hk, List.append_nil]

end Received

/-- A client that sends an empty payload, a message that is no envelope and another payload,
and then receives three messages. -/
def garbled : List Act :=
  [.send .empty, .put .empty, .send (Bytes.replicate 3 7), .receive, .receive, .receive]

/-- The empty payload comes back, then the refusal, and then nothing. -/
theorem echo_returns_payloads_until_garbled :
    ∃ n, (parley Duplex.someSession ⟨fun _ => 1, 0⟩ garbled Duplex.emptyHost Duplex.turns n).heard =
        [payload .empty, refusal (.malformedEnvelope "expected at least 29 bytes, got 0"),
          ended] ∧
      (parley Duplex.someSession ⟨fun _ => 1, 0⟩ garbled Duplex.emptyHost Duplex.turns n).stop =
        .ends .terminated
          (.error (.decrypt (.malformedEnvelope "expected at least 29 bytes, got 0"))) := by
  have hcontents : contents Duplex.someSession.secret garbled =
      List.map .ok [.empty] ++ .error (.malformedEnvelope "expected at least 29 bytes, got 0") ::
        [.ok (Bytes.replicate 3 7)] := rfl
  have hpaced : Paced Duplex.someSession.secret 0 garbled :=
    ⟨by decide, by decide, by decide, by decide, by decide, by decide, trivial⟩
  obtain ⟨-, hrefused, hthrough⟩ := echo_returns_payloads Duplex.someSession ⟨fun _ => 1, 0⟩
    garbled Duplex.emptyHost Duplex.turns Duplex.calm_turns
  obtain ⟨n, hn⟩ := hthrough hpaced Duplex.again_call_turns Duplex.again_serve_turns
  obtain ⟨-, hlength⟩ := hn n (Nat.le_refl n)
  obtain ⟨hheard, hstop⟩ := hrefused _ _ _ hcontents n
  refine ⟨n, ?_, hstop (by rw [hlength]; decide)⟩
  rw [List.prefix_iff_eq_take.mp hheard, hlength]
  rfl

end Vault.Echo
