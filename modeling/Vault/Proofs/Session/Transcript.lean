import Vault.Proofs.Schedule
import Vault.Proofs.Session.Station
import Vault.Store.Memory

/-!
# What a server says to anybody

A peer may send a server anything: keys and envelopes, ends and aborts, in any order, and
messages that are neither. What the server says to it is determined all the same
(`Vault.Server.Output`): one abort when there is no handshake, and otherwise its own key,
one envelope for each request as long as they can be answered, and one last frame for the
frame that cannot (`Vault.Server.Transcript`).

The peer, the link and the server move as they like, and the two queues between them fill
up and run empty. The argument keeps, for every moment, what the server still **owes**
(`Vault.Server.Owes`): whatever it would say to the frames that have not reached it yet,
said after what it has said so far, is what it says in all. Every move keeps this, and
every move that changes anything brings the end nearer, so all comes to rest – with
nothing owed.
-/

namespace Vault.Server

variable {σ : Type} [Store σ]

/-- **What a listening server says** to the frames that arrive, the first of which is the
`n`-th that it takes: an envelope for each message that can be answered, up to the first
frame that ends the session; for that the last frame, and nothing to the frames after it. -/
inductive Transcript (clock : ℕ → Timestamp) (secret : Crypto.SharedSecret) :
    ℕ → Host σ → List Frame → List Frame → Prop
  /-- Nothing more arrives. -/
  | quiet (n : ℕ) (h : Host σ) : Transcript clock secret n h [] []
  /-- A message is answered. -/
  | answered {n : ℕ} {h h' : Host σ} {m envelope : Bytes} {inbound out : List Frame}
    (ha : Answers secret (clock n) h m envelope h')
    (ht : Transcript clock secret (n + 1) h' inbound out) :
    Transcript clock secret n h (.message m :: inbound) (.message envelope :: out)
  /-- A frame ends the session. -/
  | broken {n : ℕ} {h : Host σ} {f last : Frame} (hb : Breaks secret (clock n) h f last)
    (inbound : List Frame) : Transcript clock secret n h (f :: inbound) [last]

/-- **What a server says**, from the first frame on. -/
inductive Output (clock : ℕ → Timestamp) (h : Host σ) : List Frame → List Frame → Prop
  /-- Nothing arrives. -/
  | silent : Output clock h [] []
  /-- There is no handshake. -/
  | refused {f : Frame} {e : SessionError} (hr : Refuses h f e) (inbound : List Frame) :
    Output clock h (f :: inbound) [.abort e.toStatus]
  /-- The keys are exchanged. -/
  | accepted {peer : Bytes} {key : Crypto.PublicKey} {secret : Crypto.SharedSecret} {h' : Host σ}
    {inbound out : List Frame} (ha : Accepts h peer key secret h')
    (ht : Transcript clock secret 1 h' inbound out) :
    Output clock h (.message peer :: inbound) (.message key.bytes :: out)

/-! ### There is one thing to say -/

section Unique

variable {clock : ℕ → Timestamp} {secret : Crypto.SharedSecret} {t : Timestamp} {h h₁ h₂ : Host σ}

theorem Answers.unique {m e₁ e₂ : Bytes} (ha₁ : Answers secret t h m e₁ h₁)
    (ha₂ : Answers secret t h m e₂ h₂) : e₁ = e₂ ∧ h₁ = h₂ := by
  cases ha₁ with
  | intro hopens₁ hdispatch₁ hseals₁ _ =>
    cases ha₂ with
    | intro hopens₂ hdispatch₂ hseals₂ _ =>
      obtain rfl := Except.ok.inj (hopens₁.symm.trans hopens₂)
      obtain ⟨hr, rfl⟩ := Prod.ext_iff.mp (hdispatch₁.symm.trans hdispatch₂)
      obtain rfl := Except.ok.inj hr
      obtain ⟨he, rfl⟩ := Prod.ext_iff.mp (hseals₁.symm.trans hseals₂)
      exact ⟨Except.ok.inj he, rfl⟩

/-- What can be answered does not end the session. -/
theorem Answers.not_breaks {m envelope : Bytes} {last : Frame}
    (ha : Answers secret t h m envelope h₁) : ¬Breaks secret t h (.message m) last := by
  intro hb
  cases ha with
  | intro hopens hdispatch hseals _ =>
    cases hb with
    | sealed hopens' => nomatch hopens.symm.trans hopens'
    | failed hopens' hdispatch' =>
      obtain rfl := Except.ok.inj (hopens.symm.trans hopens')
      nomatch hdispatch.symm.trans hdispatch'
    | overlong hopens' hdispatch' hlong =>
      obtain rfl := Except.ok.inj (hopens.symm.trans hopens')
      obtain ⟨hr, rfl⟩ := Prod.ext_iff.mp (hdispatch.symm.trans hdispatch')
      obtain rfl := Except.ok.inj hr
      nomatch hseals.symm.trans (Crypto.Envelope.sealFresh_of_tooLong secret hlong _)

theorem Breaks.unique {f c₁ c₂ : Frame} (hb₁ : Breaks secret t h f c₁)
    (hb₂ : Breaks secret t h f c₂) : c₁ = c₂ := by
  cases hb₁ with
  | ended => cases hb₂ with | ended => rfl
  | aborted s => cases hb₂ with | aborted s => rfl
  | opened m => cases hb₂ with | opened m => rfl
  | sealed hopens₁ =>
    cases hb₂ with
    | sealed hopens₂ =>
      obtain rfl := Except.error.inj (hopens₁.symm.trans hopens₂)
      rfl
    | failed hopens₂ _ => nomatch hopens₁.symm.trans hopens₂
    | overlong hopens₂ _ _ => nomatch hopens₁.symm.trans hopens₂
  | failed hopens₁ hdispatch₁ =>
    cases hb₂ with
    | sealed hopens₂ => nomatch hopens₁.symm.trans hopens₂
    | failed hopens₂ hdispatch₂ =>
      obtain rfl := Except.ok.inj (hopens₁.symm.trans hopens₂)
      obtain ⟨hs, -⟩ := Prod.ext_iff.mp (hdispatch₁.symm.trans hdispatch₂)
      obtain rfl := Except.error.inj hs
      rfl
    | overlong hopens₂ hdispatch₂ _ =>
      obtain rfl := Except.ok.inj (hopens₁.symm.trans hopens₂)
      nomatch hdispatch₁.symm.trans hdispatch₂
  | overlong hopens₁ hdispatch₁ _ =>
    cases hb₂ with
    | sealed hopens₂ => nomatch hopens₁.symm.trans hopens₂
    | failed hopens₂ hdispatch₂ =>
      obtain rfl := Except.ok.inj (hopens₁.symm.trans hopens₂)
      nomatch hdispatch₁.symm.trans hdispatch₂
    | overlong _ _ _ => rfl

omit [Store σ] in
theorem Accepts.unique {peer : Bytes} {k₁ k₂ : Crypto.PublicKey} {s₁ s₂ : Crypto.SharedSecret}
    (ha₁ : Accepts h peer k₁ s₁ h₁) (ha₂ : Accepts h peer k₂ s₂ h₂) :
    k₁ = k₂ ∧ s₁ = s₂ ∧ h₁ = h₂ := by
  obtain ⟨rfl, ⟨p₁, hp₁, hs₁⟩, rfl⟩ := ha₁
  obtain ⟨rfl, ⟨p₂, hp₂, hs₂⟩, rfl⟩ := ha₂
  obtain rfl := Except.ok.inj (hp₁.symm.trans hp₂)
  exact ⟨rfl, Except.ok.inj (hs₁.symm.trans hs₂), rfl⟩

omit [Store σ] in
theorem Accepts.not_refuses {peer : Bytes} {key : Crypto.PublicKey} {e : SessionError}
    (ha : Accepts h peer key secret h₁) : ¬Refuses h (.message peer) e := by
  intro hr
  obtain ⟨p, hp, hs⟩ := ha.agree
  cases hr with
  | malformed hkey => nomatch hp.symm.trans hkey
  | weak hkey hagree =>
    obtain rfl := Except.ok.inj (hp.symm.trans hkey)
    nomatch hs.symm.trans hagree

omit [Store σ] in
theorem Refuses.unique {f : Frame} {e₁ e₂ : SessionError} (hr₁ : Refuses h f e₁)
    (hr₂ : Refuses h f e₂) : e₁ = e₂ := by
  cases hr₁ with
  | ended => cases hr₂ with | ended => rfl
  | aborted s => cases hr₂ with | aborted s => rfl
  | opened m => cases hr₂ with | opened m => rfl
  | malformed hkey₁ =>
    cases hr₂ with
    | malformed hkey₂ => rw [Except.error.inj (hkey₁.symm.trans hkey₂)]
    | weak hkey₂ _ => nomatch hkey₁.symm.trans hkey₂
  | weak hkey₁ hagree₁ =>
    cases hr₂ with
    | malformed hkey₂ => nomatch hkey₁.symm.trans hkey₂
    | weak hkey₂ hagree₂ =>
      obtain rfl := Except.ok.inj (hkey₁.symm.trans hkey₂)
      rw [Except.error.inj (hagree₁.symm.trans hagree₂)]

theorem Transcript.unique {n : ℕ} {inbound o₁ o₂ : List Frame}
    (ht₁ : Transcript clock secret n h inbound o₁) (ht₂ : Transcript clock secret n h inbound o₂) :
    o₁ = o₂ := by
  induction ht₁ generalizing o₂ with
  | quiet => cases ht₂ with | quiet => rfl
  | answered ha₁ _ ih =>
    cases ht₂ with
    | answered ha₂ ht₂ =>
      obtain ⟨rfl, rfl⟩ := ha₁.unique ha₂
      rw [ih ht₂]
    | broken hb₂ => exact absurd hb₂ ha₁.not_breaks
  | broken hb₁ =>
    cases ht₂ with
    | answered ha₂ _ => exact absurd hb₁ ha₂.not_breaks
    | broken hb₂ => rw [hb₁.unique hb₂]

/-- **What a server says is determined** by what arrives. -/
theorem Output.unique {inbound o₁ o₂ : List Frame} (ho₁ : Output clock h inbound o₁)
    (ho₂ : Output clock h inbound o₂) : o₁ = o₂ := by
  cases ho₁ with
  | silent => cases ho₂ with | silent => rfl
  | refused hr₁ =>
    cases ho₂ with
    | refused hr₂ => rw [hr₁.unique hr₂]
    | accepted ha₂ _ => exact absurd hr₁ ha₂.not_refuses
  | accepted ha₁ ht₁ =>
    cases ho₂ with
    | refused hr₂ => exact absurd hr₂ ha₁.not_refuses
    | accepted ha₂ ht₂ =>
      obtain ⟨rfl, rfl, rfl⟩ := ha₁.unique ha₂
      rw [ht₁.unique ht₂]

end Unique

/-! ### What is owed -/

/-- What a server at a station still says, to frames that arrive from then on. -/
def Owes (clock : ℕ → Timestamp) (h : Host σ) (n : ℕ) (inbound out : List Frame) :
    Station → Prop
  | .awaitingKey => n = 0 ∧ Output clock h inbound out
  | .greeting key secret =>
    ∃ rest, out = .message key.bytes :: rest ∧ Transcript clock secret n h inbound rest
  | .listening secret => Transcript clock secret n h inbound out
  | .replying secret envelope =>
    ∃ rest, out = .message envelope :: rest ∧ Transcript clock secret n h inbound rest
  | .closing last _ _ => out = [Link.closingFrame last]
  | .closed _ => out = []

/-- Who listens does not mind what time it was. -/
theorem Transcript.of_atTime {clock : ℕ → Timestamp} {secret : Crypto.SharedSecret} {n : ℕ}
    {h : Host σ} {t : Timestamp} {inbound out : List Frame}
    (ht : Transcript clock secret n (h.atTime t) inbound out) :
    Transcript clock secret n h inbound out := by
  cases ht with
  | quiet => exact .quiet n h
  | answered ha ht =>
    cases ha with
    | intro hopens hdispatch hseals hreveals =>
      exact .answered (.intro hopens hdispatch hseals hreveals) ht
  | broken hb =>
    refine .broken ?_ _
    cases hb with
    | ended => exact .ended
    | aborted s => exact .aborted s
    | opened m => exact .opened m
    | sealed hopens => exact .sealed hopens
    | failed hopens hdispatch => exact .failed hopens hdispatch
    | overlong hopens hdispatch hlong => exact .overlong hopens hdispatch hlong

/-- What a poll can do: nothing, or something that brings the end nearer, where `E` are
the frames it puts on the link. Who is gone has said the last frame. -/
structure Moves (clock : ℕ → Timestamp) (st st' : Station) (F F' E : List Frame)
    (gone gone' : Bool) (h h' : Host σ) (n n' : ℕ) : Prop where
  signal : h'.signal = h.signal
  begun : st' ≠ .awaitingKey
  left : gone' = true → st'.said = true
  owes : ∀ todo out, Owes clock h' n' (F' ++ todo) out st' →
    Owes clock h n (F ++ todo) (E ++ out) st
  nearer : 3 * F'.length + E.length + load st' gone' < 3 * F.length + load st gone

/-- A frame that was taken weighs more than anything it can lead to. -/
theorem nearer_of_received (st st' : Station) (f : Frame) (F : List Frame) :
    3 * F.length + ([] : List Frame).length + load st' false <
      3 * (f :: F).length + load st false := by
  have h1 := load_le st' false
  have h2 := one_le_load st
  rw [List.length_cons, List.length_nil]
  omega

variable {clock : ℕ → Timestamp} {F B : List Frame} {gone : Bool} {h : Host σ} {n : ℕ}

theorem poll_moves_awaitingKey (hsig : h.signal.cancelled = false) (hgone : gone = false)
    (hn : n = 0) (f : Frame) :
    ∃ st' h', (Station.awaitingKey.post (f :: F) B gone h n).poll clock =
        st'.post F B gone h' (n + 1) ∧
      Moves clock .awaitingKey st' (f :: F) F [] gone gone h h' n (n + 1) := by
  subst hgone hn
  obtain ⟨peer, key, secret, h', rfl, ha⟩ | ⟨e, hr⟩ := accepts_or_refuses h f
  · refine ⟨_, _, poll_accepts hsig ha, ?_, nofun, nofun, ?_, ?_⟩
    · rw [ha.host_eq]
      rfl
    · rintro todo out ⟨rest, rfl, ht⟩
      exact ⟨rfl, .accepted ha ht.of_atTime⟩
    · exact nearer_of_received .awaitingKey _ _ F
  · obtain ⟨h', hpoll, hs⟩ := poll_refuses F B false hsig hr
    refine ⟨_, h', hpoll, hs, nofun, nofun, ?_, ?_⟩
    · rintro todo out rfl
      exact ⟨rfl, .refused hr _⟩
    · exact nearer_of_received .awaitingKey _ f F

theorem poll_moves_listening (hsig : h.signal.cancelled = false) (hgone : gone = false)
    (secret : Crypto.SharedSecret) (f : Frame) :
    ∃ st' h', ((Station.listening secret).post (f :: F) B gone h n).poll clock =
        st'.post F B gone h' (n + 1) ∧
      Moves clock (.listening secret) st' (f :: F) F [] gone gone h h' n (n + 1) := by
  subst hgone
  obtain ⟨m, envelope, h', rfl, ha⟩ | ⟨last, hb⟩ := answers_or_breaks secret (clock n) h f
  · refine ⟨_, _, poll_answers hsig ha, signal_answers ha, nofun, nofun, ?_, ?_⟩
    · rintro todo out ⟨rest, rfl, ht⟩
      exact .answered ha ht
    · exact nearer_of_received (.listening secret) _ _ F
  · obtain ⟨_, result, watched, h', hpoll, rfl, hs⟩ :=
      poll_breaks F B false hsig hb
    refine ⟨_, h', hpoll, hs, nofun, nofun, ?_, ?_⟩
    · rintro todo out rfl
      exact .broken hb _
    · exact nearer_of_received (.listening secret) _ f F

theorem poll_moves_delivery (hsig : h.signal.cancelled = false) (hgone : gone = false)
    {st : Station} {f : Frame} (hf : st.frame? = some f) (hroom : B.length < Queue.capacity) :
    ∃ h', (st.post F B gone h n).poll clock = st.after.post F (B ++ [f]) gone h' n ∧
      Moves clock st st.after F F [f] gone gone h h' n n := by
  subst hgone
  refine ⟨_, poll_delivers hsig hf hroom, rfl, ?_, nofun, ?_, ?_⟩
  · cases st with
    | awaitingKey => nomatch hf
    | _ => nofun
  · intro todo out ho
    cases st with
    | greeting key secret =>
      obtain rfl := Option.some.inj hf
      exact ⟨out, rfl, ho.of_atTime⟩
    | replying secret envelope =>
      obtain rfl := Option.some.inj hf
      exact ⟨out, rfl, ho.of_atTime⟩
    | closing last result watched =>
      obtain rfl := Option.some.inj hf
      obtain rfl := ho
      rfl
    | awaitingKey => nomatch hf
    | listening secret => nomatch hf
    | closed result => nomatch hf
  · obtain ⟨h1, h2⟩ := load_of_frame hf
    rw [h1, h2, List.length_singleton]
    omega

/-- **A poll says what is owed and brings the end nearer**, or it does nothing; and when there
is room on the link it does nothing only with nothing to do. -/
theorem poll_moves (clock : ℕ → Timestamp) (hsig : h.signal.cancelled = false) {st : Station}
    (hgone : gone = true → st.said = true) (hn : st = .awaitingKey → n = 0) :
    (∃ st' F' E gone' h' n', (st.post F B gone h n).poll clock = st'.post F' (B ++ E) gone' h' n' ∧
        Moves clock st st' F F' E gone gone' h h' n n') ∨
      (st.post F B gone h n).poll clock = st.post F B gone h n ∧
        (B.length < Queue.capacity →
          F = [] ∧ Owes clock h n [] [] st ∨ ∀ inbound, Owes clock h n inbound [] st) := by
  have hstays (hs : st.said = false) : gone = false := by
    rcases hg : gone with _ | _
    · rfl
    · exact absurd (hs.symm.trans (hgone hg)) Bool.false_ne_true
  rcases hframe : st.frame? with _ | f
  · cases st with
    | awaitingKey =>
      rcases F with _ | ⟨f, F⟩
      · exact Or.inr ⟨poll_receive_nil hsig rfl, fun _ => Or.inl ⟨rfl, hn rfl, .silent⟩⟩
      · obtain ⟨st', h', hpoll, hmoves⟩ :=
          poll_moves_awaitingKey (F := F) (B := B) hsig (hstays rfl) (hn rfl) f
        exact Or.inl ⟨st', F, [], gone, h', n + 1, by rw [List.append_nil, hpoll], hmoves⟩
    | listening secret =>
      rcases F with _ | ⟨f, F⟩
      · exact Or.inr ⟨poll_receive_nil hsig rfl, fun _ => Or.inl ⟨rfl, .quiet n h⟩⟩
      · obtain ⟨st', h', hpoll, hmoves⟩ :=
          poll_moves_listening (F := F) (B := B) hsig (hstays rfl) secret f
        exact Or.inl ⟨st', F, [], gone, h', n + 1, by rw [List.append_nil, hpoll], hmoves⟩
    | closed result =>
      cases gone with
      | true => exact Or.inr ⟨poll_closed result, fun _ => Or.inr fun _ => rfl⟩
      | false =>
        refine Or.inl ⟨.closed result, F, [], true, h, n, ?_, rfl, nofun, fun _ => rfl,
          fun _ _ ho => ho, ?_⟩
        · rw [List.append_nil, poll_closed]
        · simp [load, Station.frame?]
    | greeting key secret => exact absurd hframe (Option.some_ne_none _)
    | replying secret envelope => exact absurd hframe (Option.some_ne_none _)
    | closing last result watched => exact absurd hframe (Option.some_ne_none _)
  · have hsaid := Station.said_of_frame hframe
    by_cases hroom : B.length < Queue.capacity
    · obtain ⟨h', hpoll, hmoves⟩ :=
        poll_moves_delivery (F := F) hsig (hstays hsaid) hframe hroom
      exact Or.inl ⟨_, _, _, _, _, _, hpoll, hmoves⟩
    · exact Or.inr ⟨poll_delivers_full hsig hframe hroom, fun h => absurd h hroom⟩

/-! ### A peer and a server -/

/-- A server at its post, and a peer with frames to send that reads what it is told. -/
structure Audience (σ : Type) where
  /-- The frames that the peer has yet to send. -/
  todo : List Frame
  /-- The frames that the peer has read. -/
  seen : List Frame := []
  /-- The server. -/
  post : Post σ

/-- Who moves. -/
inductive Move where
  /-- The peer tries to send a frame. -/
  | push
  /-- The peer tries to read a frame. -/
  | pull
  /-- The server is polled. -/
  | serve
  deriving DecidableEq

namespace Audience

/-- One move. A frame that cannot be sent any more is lost. -/
def step (clock : ℕ → Timestamp) : Move → Audience σ → Audience σ
  | .push, w =>
    match w.todo with
    | [] => w
    | f :: todo =>
      match w.post.link.send .left f none with
      | (link, .ready _) => { w with todo, post := { w.post with link } }
      | (link, .waiting _) => { w with post := { w.post with link } }
  | .pull, w =>
    match w.post.link.receive .left {} with
    | (link, .ready (.ok (some f))) =>
      { w with seen := w.seen ++ [f], post := { w.post with link } }
    | (link, _) => { w with post := { w.post with link } }
  | .serve, w => { w with post := w.post.poll clock }

/-- Nothing is sent. -/
def start (inbound : List Frame) (h : Host σ) : Audience σ := { todo := inbound, post := .start h }

/-- Whatever the server owes, said after what it has said so far, is what it says in all. -/
def Sound (clock : ℕ → Timestamp) (h₀ : Host σ) (inbound : List Frame) (w : Audience σ) : Prop :=
  ∃ st F B gone h n, w.post = st.post F B gone h n ∧ h.signal.cancelled = false ∧
    (gone = true → st.said = true) ∧ (st = .awaitingKey → n = 0) ∧
    ∀ out, Owes clock h n (F ++ w.todo) out st → Output clock h₀ inbound (w.seen ++ B ++ out)

/-- What is left to do: a frame that is not sent yet counts for most. -/
def rank (w : Audience σ) : ℕ := 4 * w.todo.length + w.post.rank

omit [Store σ] in
theorem rank_mk (todo seen : List Frame) (st : Station) (F B : List Frame) (gone : Bool)
    (h : Host σ) (n : ℕ) : rank ⟨todo, seen, st.post F B gone h n⟩ =
      4 * todo.length + (3 * F.length + B.length + load st gone) := by
  rw [rank, rank_post]

section Moves

variable {todo seen : List Frame} {st : Station} {f : Frame}

theorem step_push_gone : step clock .push ⟨f :: todo, seen, st.post F B true h n⟩ =
    ⟨todo, seen, st.post F B true h n⟩ := by
  simp only [step, Station.post, Link.send_left_gone]

theorem step_push (hroom : F.length < Queue.capacity) :
    step clock .push ⟨f :: todo, seen, st.post F B false h n⟩ =
      ⟨todo, seen, st.post (F ++ [f]) B false h n⟩ := by
  simp only [step, Station.post, Link.send_left hroom]

theorem step_push_full (hroom : ¬F.length < Queue.capacity) :
    step clock .push ⟨f :: todo, seen, st.post F B false h n⟩ =
      ⟨f :: todo, seen, st.post F B false h n⟩ := by
  simp only [step, Station.post, Link.send_left_full hroom]

theorem step_pull : step clock .pull ⟨todo, seen, st.post F (f :: B) gone h n⟩ =
    ⟨todo, seen ++ [f], st.post F B gone h n⟩ := rfl

theorem step_pull_nil : step clock .pull ⟨todo, seen, st.post F [] gone h n⟩ =
    ⟨todo, seen, st.post F [] gone h n⟩ := by
  cases st <;> rfl

end Moves

variable {h₀ : Host σ} {inbound : List Frame} {w : Audience σ}

/-- Sending keeps what is owed, for the frame stands in the same place as before. -/
theorem sound_push (hw : Sound clock h₀ inbound w) : Sound clock h₀ inbound (step clock .push w) ∧
    (step clock .push w = w ∨ rank (step clock .push w) < rank w) := by
  obtain ⟨todo, seen, post⟩ := w
  obtain ⟨st, F, B, gone, h, n, rfl, hsig, hgone, hn, howes⟩ := hw
  rcases todo with _ | ⟨f, todo⟩
  · exact ⟨⟨st, F, B, gone, h, n, rfl, hsig, hgone, hn, howes⟩, Or.inl rfl⟩
  cases gone with
  | true =>
    -- the frame is lost, but a server that is gone has said all it had to say
    rw [step_push_gone, rank_mk, rank_mk]
    refine ⟨⟨st, F, B, true, h, n, rfl, hsig, hgone, hn, fun out ho => howes out ?_⟩, ?_⟩
    · cases st with
      | closed result => exact ho
      | _ => nomatch hgone rfl
    · rw [List.length_cons]
      exact Or.inr (by omega)
  | false =>
    by_cases hroom : F.length < Queue.capacity
    · rw [step_push hroom, rank_mk, rank_mk]
      refine ⟨⟨st, F ++ [f], B, false, h, n, rfl, hsig, hgone, hn, fun out ho => howes out ?_⟩, ?_⟩
      · rw [List.append_assoc] at ho
        exact ho
      · rw [List.length_append, List.length_singleton, List.length_cons]
        exact Or.inr (by omega)
    · rw [step_push_full hroom]
      exact ⟨⟨st, F, B, false, h, n, rfl, hsig, hgone, hn, howes⟩, Or.inl rfl⟩

theorem sound_pull (hw : Sound clock h₀ inbound w) : Sound clock h₀ inbound (step clock .pull w) ∧
    (step clock .pull w = w ∨ rank (step clock .pull w) < rank w) := by
  obtain ⟨todo, seen, post⟩ := w
  obtain ⟨st, F, B, gone, h, n, rfl, hsig, hgone, hn, howes⟩ := hw
  rcases B with _ | ⟨f, B⟩
  · rw [step_pull_nil]
    exact ⟨⟨st, F, [], gone, h, n, rfl, hsig, hgone, hn, howes⟩, Or.inl rfl⟩
  · rw [step_pull, rank_mk, rank_mk]
    refine ⟨⟨st, F, B, gone, h, n, rfl, hsig, hgone, hn, fun out ho => ?_⟩, ?_⟩
    · have hall := howes out ho
      rw [List.append_cons] at hall
      exact hall
    · rw [List.length_cons]
      exact Or.inr (by omega)

theorem sound_serve (hw : Sound clock h₀ inbound w) :
    Sound clock h₀ inbound (step clock .serve w) ∧
      (step clock .serve w = w ∨ rank (step clock .serve w) < rank w) := by
  obtain ⟨todo, seen, post⟩ := w
  obtain ⟨st, F, B, gone, h, n, rfl, hsig, hgone, hn, howes⟩ := hw
  rw [step]
  dsimp only
  obtain ⟨st', F', E, gone', h', n', hpoll, hmoves⟩ | ⟨hpoll, -⟩ :=
    poll_moves clock (F := F) (B := B) hsig hgone hn
  · rw [hpoll, rank_mk, rank_mk]
    refine ⟨⟨st', F', B ++ E, gone', h', n', rfl, ?_, hmoves.left,
      fun hc => absurd hc hmoves.begun, fun out ho => ?_⟩, ?_⟩
    · rw [hmoves.signal]
      exact hsig
    · have hall := howes (E ++ out) (hmoves.owes todo out ho)
      simp only [List.append_assoc] at hall ⊢
      exact hall
    · have hnearer := hmoves.nearer
      rw [List.length_append]
      exact Or.inr (by omega)
  · rw [hpoll]
    exact ⟨⟨st, F, B, gone, h, n, rfl, hsig, hgone, hn, howes⟩, Or.inl rfl⟩

theorem sound_step (m : Move) (hw : Sound clock h₀ inbound w) :
    Sound clock h₀ inbound (step clock m w) ∧
      (step clock m w = w ∨ rank (step clock m w) < rank w) := by
  cases m with
  | push => exact sound_push hw
  | pull => exact sound_pull hw
  | serve => exact sound_serve hw

theorem sound_start (hsig : h₀.signal.cancelled = false) :
    Sound clock h₀ inbound (start inbound h₀) :=
  ⟨.awaitingKey, [], [], false, h₀, 0, Station.post_start h₀, hsig, nofun, fun _ => rfl,
    fun _ ho => ho.2⟩

/-- **At rest nothing is owed**: all that the server says has been read. -/
theorem output_of_rest (hw : Sound clock h₀ inbound w) (hrest : ∀ m, step clock m w = w) :
    Output clock h₀ inbound w.seen := by
  obtain ⟨todo, seen, post⟩ := w
  obtain ⟨st, F, B, gone, h, n, rfl, hsig, hgone, hn, howes⟩ := hw
  have hB : B = [] := by
    rcases B with _ | ⟨f, B⟩
    · rfl
    · have hpull := congrArg (fun w => w.seen.length) (hrest .pull)
      rw [step_pull] at hpull
      simp at hpull
  subst hB
  have hserve : (st.post F [] gone h n).poll clock = st.post F [] gone h n :=
    congrArg Audience.post (hrest .serve)
  suffices howed : Owes clock h n (F ++ todo) [] st by
    have hout := howes [] howed
    rwa [List.append_nil, List.append_nil] at hout
  obtain ⟨st', F', E, gone', h', n', hpoll, hmoves⟩ | ⟨-, hidle⟩ :=
    poll_moves clock (F := F) (B := []) hsig hgone hn
  · have hnearer := hmoves.nearer
    have hsame := congrArg Post.rank (hpoll.symm.trans hserve)
    rw [rank_post, rank_post, List.nil_append, List.length_nil] at hsame
    omega
  · rcases hidle (by decide) with ⟨rfl, howed⟩ | howed
    · rcases todo with _ | ⟨f, todo⟩
      · exact howed
      · have hpush := congrArg (fun w => w.todo.length) (hrest .push)
        cases gone with
        | true =>
          rw [step_push_gone] at hpush
          simp at hpush
        | false =>
          rw [step_push (by decide)] at hpush
          simp at hpush
    · exact howed _

/-- What was read stays read. -/
theorem seen_prefix_step (m : Move) (w : Audience σ) : w.seen <+: (step clock m w).seen := by
  cases m with
  | push =>
    rw [step]
    split
    · exact List.prefix_refl _
    · split <;> exact List.prefix_refl _
  | pull =>
    rw [step]
    split
    · exact List.prefix_append _ _
    · exact List.prefix_refl _
  | serve => exact List.prefix_refl _

theorem seen_prefix_after {sched : ℕ → Move} {j k : ℕ} (hjk : j ≤ k) :
    (Schedule.after (step clock) sched w j).seen <+:
      (Schedule.after (step clock) sched w k).seen := by
  induction k, hjk using Nat.le_induction with
  | base => exact List.prefix_refl _
  | succ k _ ih => exact ih.trans (seen_prefix_step _ _)

/-- What was read so far is the beginning of what there is to say: if everybody moved in turn
from now on, all of it would be read. -/
theorem exists_output (hw : Sound clock h₀ inbound w) :
    ∃ out, Output clock h₀ inbound out ∧ w.seen <+: out := by
  have hsound (k : ℕ) : Sound clock h₀ inbound
      (Schedule.after (step clock) (Schedule.roundRobin .push [.pull, .serve]) w k) :=
    Schedule.after_keeps (Sound clock h₀ inbound) (fun m w hw => (sound_step m hw).1)
      (n := 0) hw (Nat.zero_le k)
  obtain ⟨n, hn, hrest⟩ := Schedule.comes_to_rest (Sound clock h₀ inbound) rank
    (fun m w hw => (sound_step m hw).1) (fun m w hw => (sound_step m hw).2)
    (fun m => Schedule.again_roundRobin (by cases m <;> decide)) (hsound 0)
  exact ⟨_, output_of_rest (hsound n) hrest, seen_prefix_after hn⟩

/-- **What a server says to anybody**: whatever a peer sends, there is one thing to say. In
whatever order the peer and the server move, the peer never reads anything but the beginning of
it, and when both move again and again it comes to read all of it. -/
theorem reads_output (clock : ℕ → Timestamp) (h : Host σ) (hsig : h.signal.cancelled = false)
    (inbound : List Frame) :
    ∃ out, (∀ out', Output clock h inbound out' ↔ out' = out) ∧ ∀ sched : ℕ → Move,
      (∀ k, (Schedule.after (step clock) sched (start inbound h) k).seen <+: out) ∧
      ((∀ m, Schedule.Again sched (· = m)) → ∃ n, ∀ k, n ≤ k →
        (Schedule.after (step clock) sched (start inbound h) k).seen = out) := by
  have hsound (sched : ℕ → Move) (k : ℕ) : Sound clock h inbound
      (Schedule.after (step clock) sched (start inbound h) k) :=
    Schedule.after_keeps (Sound clock h inbound) (fun m w hw => (sound_step m hw).1)
      (n := 0) (sound_start hsig) (Nat.zero_le k)
  obtain ⟨out, hout, -⟩ := exists_output (sound_start hsig : Sound clock h inbound _)
  refine ⟨out, fun out' => ⟨fun ho => ho.unique hout, ?_⟩, fun sched => ⟨fun k => ?_, ?_⟩⟩
  · rintro rfl
    exact hout
  · obtain ⟨out', hout', hseen⟩ := exists_output (hsound sched k)
    rw [hout.unique hout']
    exact hseen
  · intro hfair
    obtain ⟨n, -, hrest⟩ := Schedule.comes_to_rest (Sound clock h inbound) rank
      (fun m w hw => (sound_step m hw).1) (fun m w hw => (sound_step m hw).2) hfair
      (hsound sched 0)
    refine ⟨n, fun k hk => ?_⟩
    rw [Schedule.after_rest hrest hk]
    exact (output_of_rest (hsound sched n) hrest).unique hout

/-- A peer with a key and no envelopes is told the server's key and that its message does not
open. To what it sends after that it is told nothing. -/
theorem reads_output_of_unsealed : ∃ n, ∀ k, n ≤ k → (Schedule.after (step fun _ => .clamp 0)
      (Schedule.roundRobin .push [.pull, .serve])
      (start [.message (Crypto.publicOf .empty).bytes, .message .empty, .open .session, .end]
        ({ store := {}, now := .clamp 0, entropy := ⟨fun _ => 7, 0⟩ } : Host Memory)) k).seen =
    [.message (Crypto.KeyPair.generate ⟨fun _ => 7, 0⟩).1.publicKey.bytes,
      .abort (.invalidArgument
        "cannot decrypt message: malformed envelope: expected at least 29 bytes, got 0")] := by
  obtain ⟨out, hout, hreads⟩ := reads_output (fun _ => .clamp 0)
    ({ store := {}, now := .clamp 0, entropy := ⟨fun _ => 7, 0⟩ } : Host Memory) rfl
    [.message (Crypto.publicOf .empty).bytes, .message .empty, .open .session, .end]
  have hseen := (hreads (Schedule.roundRobin .push [.pull, .serve])).2
    fun m => Schedule.again_roundRobin (by cases m <;> decide)
  have hagree : Crypto.Curve25519.multiply (Crypto.KeyPair.generate ⟨fun _ => 7, 0⟩).1.scalar
      (Crypto.publicOf .empty).bytes ≠ Bytes.replicate 32 0 := by
    decide +kernel
  have haccepts : Accepts
      ({ store := {}, now := .clamp 0, entropy := ⟨fun _ => 7, 0⟩ } : Host Memory)
      (Crypto.publicOf .empty).bytes _ _ _ :=
    ⟨rfl, ⟨_, Crypto.PublicKey.ofBytes_bytes _, Crypto.KeyPair.agree_eq hagree⟩, rfl⟩
  have hone := (hout _).mp (.accepted haccepts (.broken (.sealed rfl) _))
  rw [← hone] at hseen
  exact hseen

end Audience

end Vault.Server
