import Vault.Proofs.Service.Traffic
import Vault.Proofs.Store.Observed
import Vault.Proofs.Wire.Size

/-!
# What the frames of a session do to the store

A frame asks for a call of the store if it is a message whose envelope opens under the secret
of the session, and holds a request that passes the check (`Vault.Frame.storeCall?`). On a
store that keeps a record of its calls (`Vault.Observed`) it is seen that a connection makes
these calls and no others.

The invariant follows the stages of the connection (`Vault.Connection.Effects`). As long as
the session goes on, every frame so far was answered (`Vault.Connection.Answered`). The frame
that ends it may have called the store as well; after that the connection makes no calls,
because only a session that is established takes a frame (`Vault.Connection.invariant_over`).
-/

namespace Vault

open Server (Call Dealing Poised)

variable {σ : Type}

/-! ### Requests and calls -/

/-- The call that a request makes. -/
def Request.storeCall : Request → StoreCall
  | .add owner content name => .insert ⟨owner, content, name⟩
  | .get id => .get id
  | .list owner => .list owner

namespace Frame

/-- **The request in an authentic frame**: a message whose envelope opens under the secret,
and decodes. -/
def request? (secret : Crypto.SharedSecret) : Frame → Option Request
  | .message m =>
    (Crypto.Envelope.reveal secret m).toOption.bind fun b => (Wire.decodeRequest b).toOption
  | _ => none

/-- **The call that a frame asks for**: that of its request, if it passes the check. -/
def storeCall? (secret : Crypto.SharedSecret) (f : Frame) : Option StoreCall :=
  (f.request? secret).bind fun r => r.validate.toOption.map fun _ => r.storeCall

end Frame

/-- A call whose failure ends a session. -/
def Called.Fatal (c : Called) : Prop := ∃ e, c.failure = some e ∧ e.isNotFound = false

namespace Dispatch

variable [Store σ]

/-- What comes of a call: if it failed for good, a failure that is not the caller's. -/
def Outcome (c : Called) (x : Except Status Response) : Prop :=
  c.Fatal ∧ (∃ s, x = .error s ∧ s.kind.isClientError = false) ∨
    ¬c.Fatal ∧ ((∃ r, x = .ok r) ∨ ∃ s, x = .error s ∧ s.kind.isClientError = true)

omit [Store σ] in
theorem calls_answer {α : Type} {g : α → Host (Observed σ) → Response × Host (Observed σ)}
    (hg : ∀ a h, (g a h).2.store = h.store) {x : Except StoreError α} {h : Host (Observed σ)}
    {calls : List Called} {call : StoreCall}
    (hcalls : h.store.calls = calls ++ [⟨call, failureOf x⟩]) :
    ∃ c, c.call = call ∧ (answer g (x, h)).2.store.calls = calls ++ [c] ∧
      Outcome c (answer g (x, h)).1 := by
  refine ⟨⟨call, failureOf x⟩, rfl, ?_, ?_⟩
  · rcases x with e | a
    · cases e <;> exact hcalls
    · simp only [answer, hg, hcalls]
  · rcases x with e | a
    · cases e with
      | notFound id =>
        refine Or.inr ⟨?_, Or.inr ⟨_, rfl, rfl⟩⟩
        rintro ⟨e, he, hfound⟩
        rw [← Option.some.inj he] at hfound
        cases hfound
      | _ => exact Or.inl ⟨⟨_, rfl, rfl⟩, _, rfl, rfl⟩
    · refine Or.inr ⟨?_, Or.inl ⟨_, rfl⟩⟩
      rintro ⟨e, he, -⟩
      cases he

theorem calls_perform (r : Request) (h : Host (Observed σ)) :
    ∃ c, c.call = r.storeCall ∧ (perform r h).2.store.calls = h.store.calls ++ [c] ∧
      Outcome c (perform r h).1 := by
  cases r with
  | add owner content name => exact calls_answer (fun _ _ => rfl) rfl
  | get id => exact calls_answer (fun _ _ => rfl) rfl
  | list owner =>
    refine calls_answer (fun ds h => ?_) rfl
    dsimp only [trim]
    split_ifs <;> rfl

/-- **The calls of a message that was opened**: none if it is no request, or one that does not
pass the check; otherwise the call of the request. A message that is not answered is no
request, or its call failed for good. -/
theorem calls_dispatch (b : Bytes) (h : Host (Observed σ)) :
    match Wire.decodeRequest b with
    | .error _ => (dispatch b h).2.store.calls = h.store.calls ∧ ∃ s, (dispatch b h).1 = .error s
    | .ok r =>
      match r.validate with
      | .error _ => (dispatch b h).2.store.calls = h.store.calls ∧
        ∃ response, (dispatch b h).1 = .ok response
      | .ok _ => ∃ c, c.call = r.storeCall ∧ (dispatch b h).2.store.calls = h.store.calls ++ [c] ∧
        (c.Fatal ∧ (∃ s, (dispatch b h).1 = .error s) ∨
          ¬c.Fatal ∧ ∃ response, (dispatch b h).1 = .ok response) := by
  rw [dispatch]
  rcases Wire.decodeRequest b with e | r
  · exact ⟨rfl, _, rfl⟩
  dsimp only
  rw [handle]
  rcases hvalid : r.validate with s | _
  · -- a request that does not pass is the caller's fault, and is answered
    have hkind : s.kind.isClientError = true := by
      rw [Request.validate] at hvalid
      split at hvalid
      · rw [← Except.error.inj hvalid]
        rfl
      · cases hvalid
    dsimp only
    rw [if_pos hkind]
    exact ⟨rfl, _, rfl⟩
  · dsimp only
    obtain ⟨c, hcall, hcalls, houtcome⟩ := calls_perform r h
    refine ⟨c, hcall, ?_⟩
    rcases hperform : perform r h with ⟨x, h'⟩
    rw [hperform] at hcalls houtcome
    obtain ⟨hfatal, s, rfl, hkind⟩ | ⟨hfatal, ⟨response, rfl⟩ | ⟨s, rfl, hkind⟩⟩ := houtcome
    · dsimp only
      rw [hkind, if_neg Bool.false_ne_true]
      exact ⟨hcalls, Or.inl ⟨hfatal, _, rfl⟩⟩
    · exact ⟨hcalls, Or.inr ⟨hfatal, _, rfl⟩⟩
    · dsimp only
      rw [hkind, if_pos rfl]
      exact ⟨hcalls, Or.inr ⟨hfatal, _, rfl⟩⟩

end Dispatch

namespace Connection

/-! ### What a session has done -/

/-- **These frames were answered, with these calls**: every frame held a request, the calls are
those that the frames ask for, and none of them failed for good. -/
structure Answered (secret : Crypto.SharedSecret) (fs : List Frame) (calls : List Called) :
    Prop where
  asked : calls.map Called.call = fs.filterMap (Frame.storeCall? secret)
  authentic : ∀ f ∈ fs, (f.request? secret).isSome = true
  served : ∀ c ∈ calls, ¬c.Fatal

theorem answered_nil (secret : Crypto.SharedSecret) : Answered secret [] [] :=
  ⟨rfl, by simp, by simp⟩

theorem Answered.concat {secret : Crypto.SharedSecret} {fs : List Frame} {calls : List Called}
    (h : Answered secret fs calls) {f : Frame} {r : Request} (hf : f.request? secret = some r)
    {more : List Called} (hmore : more.map Called.call = (f.storeCall? secret).toList)
    (hserved : ∀ c ∈ more, ¬c.Fatal) : Answered secret (fs ++ [f]) (calls ++ more) where
  asked := by
    rw [List.map_append, h.asked, hmore, List.filterMap_append]
    rfl
  authentic g hg := by
    rcases List.mem_append.mp hg with hg | hg
    · exact h.authentic g hg
    · rw [List.mem_singleton.mp hg, hf]
      rfl
  served c hc := by
    rcases List.mem_append.mp hc with hc | hc
    · exact h.served c hc
    · exact hserved c hc

/-- **The keys of a session**: the first frame that was heard opens the session, the second is the
peer's key, and the first frame that was said is the key of the pair that gives the
secret. -/
structure Keyed (ds : List Dealing) (peer : Bytes) (pair : Crypto.KeyPair)
    (secret : Crypto.SharedSecret) (handled : List Frame) : Prop where
  heard : Server.heard ds = .open .session :: .message peer :: handled
  agreed : ∃ key, Crypto.PublicKey.ofBytes peer = .ok key ∧ pair.agree key = .ok secret
  said : ∃ more, Server.said ds = .message pair.publicKey.bytes :: more

/-- **There is no frame that could ask for a call**: the first one does not open a session, or
none comes after the second. -/
def Unasked (fs : List Frame) : Prop := fs.head? ≠ some (.open .session) ∨ fs.length ≤ 2

/-- **What a session that is over has done**: nothing, because nothing could be asked for; or all
frames but the last were answered, and the last one made the call it asks for. -/
def Settled (ds : List Dealing) (calls : List Called) : Prop :=
  calls = [] ∧ Unasked (Server.heard ds) ∨
  ∃ peer pair secret fs last before more, Keyed ds peer pair secret (fs ++ last) ∧
    last.length ≤ 1 ∧ Answered secret fs before ∧ calls = before ++ more ∧
    more.map Called.call = last.filterMap (Frame.storeCall? secret)

/-- **What a connection has done**, by its stage. -/
def Effects (ds : List Dealing) (calls : List Called) : Stage → Prop
  | .opening => ds = [] ∧ calls = []
  | .session .serve .awaitingPeerKey _ =>
    Server.heard ds = [.open .session] ∧ Server.said ds = [] ∧ calls = []
  | .session .serve .handshaking (.deliver (.key k secret)) =>
    ∃ (peer : Bytes) (pair : Crypto.KeyPair),
      Server.heard ds = [.open .session, .message peer] ∧ Server.said ds = [] ∧
      (∃ key, Crypto.PublicKey.ofBytes peer = .ok key ∧ pair.agree key = .ok secret) ∧
      k = pair.publicKey ∧ calls = []
  | .session .serve (.established secret) _ =>
    ∃ peer pair handled, Keyed ds peer pair secret handled ∧ Answered secret handled calls
  | .session .serve _ _ => Settled ds calls
  | .session _ _ _ => calls = [] ∧ (Server.heard ds).head? = some (.open .echo)
  | _ => Settled ds calls

section Keyed

variable {ds : List Dealing} {peer : Bytes} {pair : Crypto.KeyPair} {secret : Crypto.SharedSecret}
  {handled : List Frame} {calls : List Called} {d : Dealing}

/-- A dealing in which nothing is heard. -/
theorem Keyed.concat_of_none (h : Keyed ds peer pair secret handled) (hd : d.heard? = none) :
    Keyed (ds ++ [d]) peer pair secret handled := by
  obtain ⟨more, hmore⟩ := h.said
  refine ⟨by rw [Server.heard_concat_of_none ds hd, h.heard], h.agreed, more ++ d.said?.toList, ?_⟩
  rcases hs : d.said? with _ | f
  · rw [Server.said_concat_of_none ds hs, hmore]
    simp
  · rw [Server.said_concat ds hs, hmore]
    simp

/-- A dealing in which a frame is heard. -/
theorem Keyed.concat (h : Keyed ds peer pair secret handled) {f : Frame} (hd : d.heard? = some f)
    (hs : d.said? = none) : Keyed (ds ++ [d]) peer pair secret (handled ++ [f]) := by
  refine ⟨?_, h.agreed, by rw [Server.said_concat_of_none ds hs]; exact h.said⟩
  rw [Server.heard_concat ds hd, h.heard]
  rfl

theorem Settled.concat (h : Settled ds calls) (hd : d.heard? = none) :
    Settled (ds ++ [d]) calls := by
  obtain ⟨rfl, hunasked⟩ | ⟨peer, pair, secret, fs, last, before, more, hkeyed, hrest⟩ := h
  · rw [← Server.heard_concat_of_none ds hd] at hunasked
    exact Or.inl ⟨rfl, hunasked⟩
  · exact Or.inr ⟨peer, pair, secret, fs, last, before, more, hkeyed.concat_of_none hd, hrest⟩

/-- All frames were answered. -/
theorem settled_of_answered (hkeyed : Keyed ds peer pair secret handled)
    (h : Answered secret handled calls) : Settled ds calls := by
  rw [← List.append_nil handled] at hkeyed
  exact Or.inr ⟨peer, pair, secret, handled, [], calls, [], hkeyed, Nat.zero_le 1, h,
    (List.append_nil calls).symm, rfl⟩

/-- All frames but the last were answered. -/
theorem settled_of_last {f : Frame} {more : List Called}
    (hkeyed : Keyed ds peer pair secret (handled ++ [f])) (h : Answered secret handled calls)
    (hmore : more.map Called.call = (f.storeCall? secret).toList) : Settled ds (calls ++ more) := by
  refine Or.inr ⟨peer, pair, secret, handled, [f], calls, more, hkeyed, Nat.le_refl 1, h, rfl, ?_⟩
  rw [hmore]
  rcases hcall : f.storeCall? secret with _ | c <;> simp [hcall]

end Keyed

/-! ### One dealing -/

section Deals

variable {ds : List Dealing} {h : Host (Observed σ)} {secret : Crypto.SharedSecret}

theorem effects_close (hs : Settled ds h.store.calls) (p : Server.Phase)
    (last : Except Status Unit) (result : Server.Outcome) (watched : Bool) :
    Effects ds (Server.close p h last result watched).host.store.calls
      (ofTurn .serve (Server.close p h last result watched)) := by
  by_cases hp : p.name = .terminated
  · rw [Server.close_of_over hp]
    cases result <;> exact hs
  · rw [Server.close_of_open hp]
    exact hs

theorem effects_terminate (hs : Settled ds h.store.calls) (p : Server.Phase) (e : SessionError)
    (watched : Bool) : Effects ds (Server.terminate p h e watched).host.store.calls
      (ofTurn .serve (Server.terminate p h e watched)) := by
  unfold Server.terminate
  dsimp only
  refine effects_close ?_ p _ _ _
  cases e <;> exact hs

/-- A session goes on with the next frame, unless the shutdown signal is raised. -/
theorem effects_proceed {peer : Bytes} {pair : Crypto.KeyPair} {handled : List Frame}
    (hkeyed : Keyed ds peer pair secret handled) (ha : Answered secret handled h.store.calls) :
    Effects ds (Server.proceed .serve (.established secret) h).host.store.calls
      (ofTurn .serve (Server.proceed .serve (.established secret) h)) := by
  rw [Server.proceed, if_pos (show Call.serve.loops = true from rfl), Server.nextInbound]
  split_ifs
  · exact effects_close (settled_of_answered hkeyed ha) _ _ _ _
  · exact ⟨peer, pair, handled, hkeyed, ha⟩

/-- The peer's key, or something in its place. -/
theorem effects_receivedKey [Store σ] (x : Except LinkError (Option Frame))
    (hheard : Server.heard ds = [.open .session]) (hsaid : Server.said ds = [])
    (hcalls : h.store.calls = []) :
    Effects (ds ++ [.receive (some x)])
      (Server.received .serve .awaitingPeerKey h .peerKey x).host.store.calls
      (ofTurn .serve (Server.received .serve .awaitingPeerKey h .peerKey x)) := by
  have hnone : Settled (ds ++ [.receive (some x)]) h.store.calls := by
    refine Or.inl ⟨hcalls, Or.inr ?_⟩
    have hlength := Server.length_heard_concat ds (.receive (some x))
    rwa [hheard] at hlength
  unfold Server.received Server.receivedKey
  dsimp only
  rcases x with e | _ | f
  · cases e <;> exact effects_terminate hnone _ _ _
  · exact effects_terminate hnone _ _ _
  cases f with
  | message peer =>
    dsimp only [Link.inbound]
    have hdrawn : Settled (ds ++ [.receive (some (.ok (some (.message peer))))])
        ({ h with entropy := (Crypto.KeyPair.generate h.entropy).2 }).store.calls := hnone
    rw [Server.handshake]
    rcases hkey : Crypto.PublicKey.ofBytes peer with e | key
    · exact effects_terminate hdrawn _ _ _
    dsimp only
    rcases hagree : (Crypto.KeyPair.generate h.entropy).1.agree key with e | secret
    · exact effects_terminate hdrawn _ _ _
    · refine ⟨peer, (Crypto.KeyPair.generate h.entropy).1, ?_, ?_, ⟨key, hkey, hagree⟩, rfl, hcalls⟩
      · rw [Server.heard_concat ds rfl, hheard]
        rfl
      · rw [Server.said_concat_of_none ds rfl, hsaid]
  | _ => exact effects_terminate hnone _ _ _

/-- A message that was opened. -/
theorem effects_opened [Store σ] {peer m plain : Bytes} {pair : Crypto.KeyPair}
    {handled : List Frame} (hkeyed : Keyed ds peer pair secret (handled ++ [.message m]))
    (ha : Answered secret handled h.store.calls)
    (hopens : Crypto.Envelope.reveal secret m = .ok plain) :
    Effects ds (Server.opened .serve (.established secret) h plain).host.store.calls
      (ofTurn .serve (Server.opened .serve (.established secret) h plain)) := by
  have hrequest : Frame.request? secret (.message m) = (Wire.decodeRequest plain).toOption := by
    rw [Frame.request?, hopens]
    rfl
  -- a response is sealed and sent, or cannot be sealed, which ends the session
  have hreply (h' : Host (Observed σ)) {r : Request} (more : List Called) (b : Bytes)
      (hr : Frame.request? secret (.message m) = some r)
      (hcalls : h'.store.calls = h.store.calls ++ more)
      (hmore : more.map Called.call = (Frame.storeCall? secret (.message m)).toList)
      (hserved : (∀ c ∈ more, ¬c.Fatal)) :
      Effects ds (Server.reply (.established secret) h' b).host.store.calls
        (ofTurn .serve (Server.reply (.established secret) h' b)) := by
    have hanswered := ha.concat hr hmore hserved
    rw [← hcalls] at hanswered
    rw [Server.reply_established]
    rcases Crypto.Envelope.sealFresh secret b h'.entropy with ⟨e | envelope, entropy⟩
    · exact effects_terminate (h := { h' with entropy }) (settled_of_answered hkeyed hanswered)
        _ _ _
    · exact ⟨peer, pair, _, hkeyed, hanswered⟩
  have hends (h' : Host (Observed σ)) (more : List Called) (s : Status)
      (hcalls : h'.store.calls = h.store.calls ++ more)
      (hmore : more.map Called.call = (Frame.storeCall? secret (.message m)).toList) :
      Effects ds (Server.terminate (.established secret) h' (.status s) false).host.store.calls
        (ofTurn .serve (Server.terminate (.established secret) h' (.status s) false)) := by
    have hsettled := settled_of_last hkeyed ha hmore
    rw [← hcalls] at hsettled
    exact effects_terminate hsettled _ _ _
  have hcalls := Dispatch.calls_dispatch plain h
  rw [Server.opened]
  rcases hdispatch : Dispatch.dispatch plain h with ⟨x, h'⟩
  rw [hdispatch] at hcalls
  rcases hdecode : Wire.decodeRequest plain with e | r
  · -- no request
    rw [hdecode] at hcalls hrequest
    obtain ⟨hcalls, s, rfl⟩ := hcalls
    refine hends h' [] s (by rw [hcalls, List.append_nil]) ?_
    rw [Frame.storeCall?, hrequest]
    rfl
  rw [hdecode] at hcalls hrequest
  dsimp only at hcalls
  rcases hvalid : r.validate with s | u
  · -- a request that does not pass the check
    rw [hvalid] at hcalls
    obtain ⟨hcalls, response, rfl⟩ := hcalls
    refine hreply h' [] _ hrequest (by rw [hcalls, List.append_nil]) ?_ (by simp)
    rw [Frame.storeCall?, hrequest]
    simp [Except.toOption, hvalid]
  · -- a request that passes
    rw [hvalid] at hcalls
    obtain ⟨c, hcall, hcalls, hanswer⟩ := hcalls
    have hmore : [c].map Called.call = (Frame.storeCall? secret (.message m)).toList := by
      rw [Frame.storeCall?, hrequest]
      simp [Except.toOption, hvalid, hcall]
    obtain ⟨-, s, rfl⟩ | ⟨hserved, response, rfl⟩ := hanswer
    · exact hends h' [c] s hcalls hmore
    · refine hreply h' [c] _ hrequest hcalls hmore fun c' hc' => ?_
      rw [List.mem_singleton.mp hc']
      exact hserved

/-- A frame, or something in its place. -/
theorem effects_receivedRequest [Store σ] {peer : Bytes} {pair : Crypto.KeyPair}
    {handled : List Frame} (x : Except LinkError (Option Frame))
    (hkeyed : Keyed ds peer pair secret handled) (ha : Answered secret handled h.store.calls) :
    Effects (ds ++ [.receive (some x)])
      (Server.received .serve (.established secret) h .request x).host.store.calls
      (ofTurn .serve (Server.received .serve (.established secret) h .request x)) := by
  unfold Server.received Server.receivedRequest
  dsimp only
  rcases x with e | _ | f
  · exact effects_terminate (settled_of_answered (hkeyed.concat_of_none rfl) ha) _ _ _
  · exact effects_close (settled_of_answered (hkeyed.concat_of_none rfl) ha) _ _ _ _
  have hheard := hkeyed.concat (d := .receive (some (.ok (some f)))) rfl rfl
  -- a frame that asks for no call and ends the session
  have hlast (hcall : f.storeCall? secret = none) :
      Settled (ds ++ [.receive (some (.ok (some f)))]) h.store.calls := by
    have hmore : ([] : List Called).map Called.call = (f.storeCall? secret).toList := by
      rw [hcall]
      rfl
    have hsettled := settled_of_last hheard ha hmore
    rwa [List.append_nil] at hsettled
  cases f with
  | message m =>
    dsimp only [Link.inbound]
    rcases hopens : Crypto.Envelope.reveal secret m with e | plain
    · refine effects_terminate (hlast ?_) _ _ _
      rw [Frame.storeCall?, Frame.request?, hopens]
      rfl
    · exact effects_opened hheard ha hopens
  | «end» => exact effects_close (hlast rfl) _ _ _ _
  | abort s => exact effects_terminate (hlast rfl) _ _ _
  | «open» m => exact effects_terminate (hlast rfl) _ _ _

/-- **One dealing of a session of requests.** -/
theorem effects_deals_serve [Store σ] {p : Server.Phase} {w : Server.Waiting} {d : Dealing}
    {t : Server.Turn (Observed σ)} (hp : Poised p (.inl w))
    (he : Effects ds h.store.calls (.session .serve p w))
    (hd : Server.Deals .serve ⟨p, h, .inl w⟩ d t) :
    Effects (ds ++ [d]) t.host.store.calls (ofTurn .serve t) := by
  cases hd with
  | received x =>
    cases hp with
    | key =>
      obtain ⟨hheard, hsaid, hcalls⟩ := he
      exact effects_receivedKey x hheard hsaid hcalls
    | request secret =>
      obtain ⟨peer, pair, handled, hkeyed, ha⟩ := he
      exact effects_receivedRequest x hkeyed ha
  | @delivered _ _ d x =>
    cases hp with
    | greeting k secret =>
      obtain ⟨peer, pair, hheard, hsaid, hagreed, rfl, hcalls⟩ := he
      unfold Server.delivered
      rcases x with e | _
      · refine effects_terminate (Or.inl ⟨hcalls, Or.inr ?_⟩) _ _ _
        rw [Server.heard_concat_of_none ds rfl, hheard]
        exact Nat.le_refl 2
      · -- the peer has the key, and no frame under the secret has been heard yet
        have hkeyed : Keyed (ds ++ [.send pair.publicKey.bytes (some (.ok ()))]) peer pair secret
            [] := by
          refine ⟨?_, hagreed, [], ?_⟩
          · rw [Server.heard_concat_of_none ds rfl, hheard]
          · rw [Server.said_concat ds rfl, hsaid]
            rfl
        refine effects_proceed hkeyed ?_
        rw [hcalls]
        exact answered_nil secret
    | reply secret envelope =>
      obtain ⟨peer, pair, handled, hkeyed, ha⟩ := he
      have hkeyed' := hkeyed.concat_of_none (d := .send envelope (some x)) rfl
      unfold Server.delivered
      rcases x with e | _
      · exact effects_terminate (settled_of_answered hkeyed' ha) _ _ _
      · exact effects_proceed hkeyed' ha
    | closing last result watched =>
      have hsettled : Settled (ds ++ [.finish last (some x)]) h.store.calls := Settled.concat he rfl
      rcases result with e | a
      · exact hsettled
      · exact hsettled
  | interrupted hw hc =>
    cases hp with
    | key => exact absurd hw Bool.false_ne_true
    | greeting k secret => exact absurd hw Bool.false_ne_true
    | request secret =>
      obtain ⟨peer, pair, handled, hkeyed, ha⟩ := he
      exact effects_close (settled_of_answered (hkeyed.concat_of_none rfl) ha) _ _ _ _
    | reply secret envelope => exact absurd hw Bool.false_ne_true
    | closing last result watched => exact Settled.concat he rfl

end Deals

end Connection

/-! ### Sessions that leave the store alone -/

namespace Server

theorem store_close (p : Phase) (h : Host σ) (last : Except Status Unit) (result : Outcome)
    (watched : Bool) : (close p h last result watched).host.store = h.store := by
  rw [close]
  cases p.name <;> rfl

theorem store_terminate (p : Phase) (h : Host σ) (e : SessionError) (watched : Bool) :
    (terminate p h e watched).host.store = h.store := by
  unfold terminate
  dsimp only
  rw [store_close]
  cases e <;> rfl

theorem store_nextInbound (p : Phase) (h : Host σ) : (nextInbound p h).host.store = h.store := by
  unfold nextInbound
  split_ifs
  · exact store_close p h _ _ _
  · cases p.name <;> rfl

theorem store_proceed (call : Call) (p : Phase) (h : Host σ) :
    (proceed call p h).host.store = h.store := by
  rw [proceed]
  split_ifs
  · exact store_nextInbound p h
  · rfl

theorem store_reply (p : Phase) (h : Host σ) (plain : Bytes) :
    (reply p h plain).host.store = h.store := by
  obtain ⟨name, _ | secret⟩ := p
  · cases name <;> rfl
  cases name with
  | established =>
    rw [reply_established]
    rcases Crypto.Envelope.sealFresh secret plain h.entropy with ⟨e | envelope, entropy⟩
    · exact store_terminate (.established secret) { h with entropy } _ _
    · rfl
  | _ => rfl

theorem store_delivered (call : Call) (p : Phase) (h : Host σ) (d : Delivering)
    (x : Except LinkError Unit) : (delivered call p h d x).host.store = h.store := by
  unfold delivered
  cases d with
  | closing last result watched => rfl
  | key k secret =>
    cases x with
    | ok u => exact store_proceed call _ h
    | error e => exact store_terminate p h _ _
  | reply envelope =>
    cases x with
    | ok u => exact store_proceed call p h
    | error e => exact store_terminate p h _ _

theorem store_receivedKey (p : Phase) (h : Host σ) (x : Except LinkError (Option Bytes)) :
    (receivedKey p h x).host.store = h.store := by
  unfold receivedKey
  rcases x with e | _ | peer
  · cases e <;> exact store_terminate p h _ _
  · exact store_terminate p h _ _
  · dsimp only [handshake]
    rcases Crypto.PublicKey.ofBytes peer with e | key
    · exact store_terminate _ _ _ _
    · dsimp only
      rcases (Crypto.KeyPair.generate h.entropy).1.agree key with e | secret
      · exact store_terminate _ _ _ _
      · rfl

variable [Store σ]

/-- **Only requests touch the store.** A session that does not serve them leaves it alone, and so
does one that is over. -/
theorem store_of_deals {call : Call} {p : Phase} {w : Waiting} {h : Host σ} {d : Dealing}
    {t : Turn σ} (hcall : call ≠ .serve ∨ ∃ what, w = .deliver what)
    (hd : Deals call ⟨p, h, .inl w⟩ d t) : t.host.store = h.store := by
  cases hd with
  | interrupted hw hc => exact store_close p h _ _ _
  | delivered x => exact store_delivered call p h _ x
  | @received _ _ r x =>
    have hserve : call ≠ .serve := by
      obtain hcall | ⟨what, hw⟩ := hcall
      · exact hcall
      · cases hw
    cases r with
    | peerKey => exact store_receivedKey p h _
    | request =>
      unfold received receivedRequest
      dsimp only
      rcases Link.inbound x with e | _ | envelope
      · exact store_terminate p h _ _
      · exact store_close p h _ _ _
      · obtain ⟨name, _ | secret⟩ := p
        · rfl
        dsimp only
        rcases Crypto.Envelope.reveal secret envelope with e | plain
        · exact store_terminate ⟨name, some secret⟩ h _ _
        · cases call with
          | serve => exact absurd rfl hserve
          | echo => exact store_reply ⟨name, some secret⟩ h plain
          | _ => rfl

end Server

namespace Connection

/-! ### All dealings -/

/-- A connection that will take no more frames: its session has come to an end, or there is
none. -/
def Stage.Over : Stage → Prop
  | .opening => False
  | .session _ p _ => p.name = .terminated
  | _ => True

/-- The secret under which a session works. -/
def Stage.secret? : Stage → Option Crypto.SharedSecret
  | .session _ p _ => p.shared
  | _ => none

/-- Others leave the record of the calls alone. -/
def KeepsRecord (h h' : Host (Observed σ)) : Prop := h'.store.calls = h.store.calls

variable [Store σ]

/-- **What a connection has done is what its stage says**, after every dealing. -/
theorem invariant_effects : Invariant (KeepsRecord (σ := σ))
    fun ds s h => Effects ds h.store.calls s where
  others := by
    intro ds s h h' he hm
    have hcalls : h'.store.calls = h.store.calls := hm
    rw [hcalls]
    exact he
  deals := by
    intro ds s h d s' h' hsane he hd _
    cases hd with
    | opened x =>
      obtain ⟨rfl, hcalls⟩ := he
      have hsettled : Settled [.receive (some x)] h.store.calls :=
        Or.inl ⟨hcalls, Or.inr ((Server.length_heard_concat [] _).trans (Nat.le_succ 1))⟩
      rcases x with e | _ | f
      · exact hsettled
      · exact hsettled
      rcases f with m | m | _ | s
      · cases m with
        | ping => exact hsettled
        | echo => exact ⟨hcalls, rfl⟩
        | session => exact ⟨rfl, rfl, hcalls⟩
      · exact hsettled
      · exact hsettled
      · exact hsettled
    | acknowledged x => exact Settled.concat he rfl
    | refused x => exact Settled.concat he rfl
    | @session _ call p w _ t hd =>
      cases call with
      | serve => exact effects_deals_serve hsane.2 he hd
      | echo =>
        obtain ⟨hcalls, hfirst⟩ := he
        have hnone : t.host.store.calls = [] := by
          rw [Server.store_of_deals (Or.inl (by simp)) hd]
          exact hcalls
        have hecho := Server.head?_heard_concat ds d hfirst
        have hunasked : Unasked (Server.heard (ds ++ [d])) := Or.inl (by rw [hecho]; simp)
        obtain ⟨p', h', w' | e | a⟩ := t
        · exact ⟨hnone, hecho⟩
        · exact Or.inl ⟨hnone, hunasked⟩
        · exact Or.inl ⟨hnone, hunasked⟩
      | _ => exact absurd hsane.1 Bool.false_ne_true

omit [Store σ] in
/-- No calls, because none could be asked for, or those of frames that were answered, and of one
more if the connection is over. -/
theorem Effects.cases {ds : List Dealing} {calls : List Called} {s : Stage} (hs : s.Sane)
    (h : Effects ds calls s) : calls = [] ∧ Unasked (Server.heard ds) ∨
      ∃ peer pair secret fs last before more, Keyed ds peer pair secret (fs ++ last) ∧
      last.length ≤ 1 ∧ Answered secret fs before ∧ calls = before ++ more ∧
      more.map Called.call = last.filterMap (Frame.storeCall? secret) ∧ (last ≠ [] → s.Over) ∧
      ∀ other ∈ s.secret?, other = secret := by
  have hsettled (h : Settled ds calls) (hover : s.Over) (hnone : s.secret? = none) :
      calls = [] ∧ Unasked (Server.heard ds) ∨
      ∃ peer pair secret fs last before more, Keyed ds peer pair secret (fs ++ last) ∧
        last.length ≤ 1 ∧ Answered secret fs before ∧ calls = before ++ more ∧
        more.map Called.call = last.filterMap (Frame.storeCall? secret) ∧ (last ≠ [] → s.Over) ∧
        ∀ other ∈ s.secret?, other = secret := by
    obtain hunasked |
      ⟨peer, pair, secret, fs, last, before, more, hkeyed, hlast, ha, hcalls, hmore⟩ := h
    · exact Or.inl hunasked
    · exact Or.inr ⟨peer, pair, secret, fs, last, before, more, hkeyed, hlast, ha, hcalls, hmore,
        fun _ => hover, by simp [hnone]⟩
  cases s with
  | opening =>
    obtain ⟨rfl, hcalls⟩ := h
    exact Or.inl ⟨hcalls, Or.inr (Nat.zero_le 2)⟩
  | acknowledging => exact hsettled h trivial rfl
  | refusing e s => exact hsettled h trivial rfl
  | ended result => exact hsettled h trivial rfl
  | session call p w =>
    cases call with
    | serve =>
      obtain ⟨-, hpoised⟩ := hs
      cases hpoised with
      | key =>
        obtain ⟨hheard, -, hcalls⟩ := h
        refine Or.inl ⟨hcalls, Or.inr ?_⟩
        rw [hheard]
        exact Nat.le_succ 1
      | greeting k secret =>
        obtain ⟨peer, pair, hheard, -, -, -, hcalls⟩ := h
        refine Or.inl ⟨hcalls, Or.inr ?_⟩
        rw [hheard]
        exact Nat.le_refl 2
      | request secret | reply secret envelope =>
        -- every frame has its answer, and none is left over as the last one
        obtain ⟨peer, pair, handled, hkeyed, ha⟩ := h
        rw [← List.append_nil handled] at hkeyed
        exact Or.inr ⟨peer, pair, secret, handled, [], calls, [], hkeyed, Nat.zero_le 1, ha,
          (List.append_nil calls).symm, rfl, by simp,
          fun other hother => (Option.some.inj hother).symm⟩
      | closing last result watched => exact hsettled h rfl rfl
    | _ =>
      refine Or.inl ⟨h.1, Or.inl ?_⟩
      rw [h.2]
      simp

/-- **A connection that takes no more frames makes no more calls.** -/
theorem invariant_over (calls : List Called) : Invariant (KeepsRecord (σ := σ))
    fun _ s h => s.Over ∧ h.store.calls = calls where
  others := by
    intro ds s h h' he hm
    exact ⟨he.1, hm.trans he.2⟩
  deals := by
    intro ds s h d s' h' hsane he hd _
    obtain ⟨hover, hcalls⟩ := he
    cases hd with
    | opened x => exact hover.elim
    | acknowledged x => exact ⟨trivial, hcalls⟩
    | refused x => exact ⟨trivial, hcalls⟩
    | @session _ call p w _ t hd =>
      obtain ⟨-, hpoised⟩ := hsane
      obtain ⟨hgoes, -, -⟩ | ⟨rfl, -, h₁, result, rfl⟩ := Server.deals_cases hd hpoised
      · exact absurd hover hgoes
      · have hw : ∃ what, w = .deliver what := by
          cases hpoised with
          | closing last result watched => exact ⟨_, rfl⟩
        have hstore := Server.store_of_deals (Or.inr hw) hd
        dsimp only at hstore
        rcases result with e | a
        · exact ⟨trivial, by rw [hstore, hcalls]⟩
        · exact ⟨trivial, by rw [hstore, hcalls]⟩

end Connection

end Vault
