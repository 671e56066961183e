import Vault.Proofs.Service.Effects
import Vault.Proofs.Service.Visit

/-!
# The store is called for authentic requests only

A connection runs on a store that keeps a record of its calls (`Vault.Observed`), while
bytes of all kinds arrive on it; observation changes nothing
(`Vault.Traffic.unobserved_observed`). What is shown is where the calls come from
(`Vault.Traffic.calls_of_authentic_frames`): the connection takes frames, the first opens a
session, the second is the peer's key, and the calls are those that the frames taken after it
ask for, one by one and in order. There is no call without such a frame, and no such frame is
taken without its call.
-/

namespace Vault

variable {σ : Type}

namespace Traffic

/-! ### Connections under observation -/

/-- The same move on an observed store. Others use the store without being observed. -/
def Move.observed : Move σ → Move (Observed σ)
  | .arrive b => .arrive b
  | .hangUp => .hangUp
  | .take n => .take n
  | .others f =>
    .others fun h => (f (h.mapStore Observed.store)).mapStore fun s => ⟨s, h.store.calls⟩
  | .run => .run

/-- The connection on the store itself. -/
def unobserved (w : Traffic (Observed σ)) : Traffic σ where
  exchange := ⟨w.exchange.host.mapStore Observed.store, w.exchange.link, w.exchange.connection⟩
  arrived := w.arrived
  taken := w.taken

/-- The calls that the connection has made. -/
def calls (w : Traffic (Observed σ)) : List Called := w.exchange.host.store.calls

/-- The connection takes no more frames. -/
def Over (w : Traffic σ) : Prop := w.exchange.connection.stage.Over

variable [Store σ]

/-- **A connection that is run under observation**, for `n` moves. -/
def observed (capacity : ℕ) (h : Host σ) (sched : ℕ → Move σ) (n : ℕ) : Traffic (Observed σ) :=
  Schedule.after step (fun k => (sched k).observed) (start capacity (h.mapStore fun s => ⟨s, []⟩)) n

theorem unobserved_step (m : Move σ) (w : Traffic (Observed σ)) :
    (step m.observed w).unobserved = step m w.unobserved := by
  obtain ⟨⟨h, ⟨forth, back, leftDone, rightDone⟩, c⟩, arrived, taken⟩ := w
  cases m with
  | run =>
    simp only [Move.observed, step, unobserved,
      Connection.advance_mapStore Observed.morphism_store]
    rfl
  | arrive b => cases forth <;> rfl
  | _ => rfl

/-- **Observation changes nothing.** -/
theorem unobserved_observed (capacity : ℕ) (h : Host σ) (sched : ℕ → Move σ) (n : ℕ) :
    (observed capacity h sched n).unobserved =
      Schedule.after step sched (start capacity h) n := by
  induction n with
  | zero => rfl
  | succ n ih =>
    rw [observed, Schedule.after_succ, unobserved_step, Schedule.after_succ, ← ih]
    rfl

omit [Store σ] in
theorem keeps_observed (m : Move σ) : m.observed.Keeps Connection.KeepsRecord := by
  cases m with
  | others f => exact fun h => rfl
  | _ => exact trivial

/-! ### Calls and frames -/

/-- The secret under which the session of the connection works. -/
def secret? (w : Traffic σ) : Option Crypto.SharedSecret := w.exchange.connection.stage.secret?

/-- **The calls and the authentic frames are one to one.** There are no calls, and no frame was
taken that could ask for one: the first does not open a session, or none was taken after the
peer's key. Or the frames that were taken are one that opens a session, the peer's key, frames
`fs` that were all answered, and at most one more; and the calls are those that `fs` and this
frame ask for, one by one and in order, under the secret that the connection's own key pair makes
with the peer's key, which is the one the session works under. The pair is its own because its
public key is what the connection said first. There is a frame that was not answered only if the
connection takes no more. -/
def Authentic (w : Traffic (Observed σ)) : Prop :=
  w.calls = [] ∧ (w.heard.head? ≠ some (.open .session) ∨ w.heard.length ≤ 2) ∨
  ∃ (peer : Bytes) (pair : Crypto.KeyPair) (key : Crypto.PublicKey)
    (secret : Crypto.SharedSecret) (fs last : List Frame) (before more : List Called),
    w.heard = .open .session :: .message peer :: (fs ++ last) ∧
    Crypto.PublicKey.ofBytes peer = .ok key ∧ pair.agree key = .ok secret ∧
    (∀ other ∈ w.secret?, other = secret) ∧
    (∃ rest, w.written = (Frame.message pair.publicKey.bytes).onWire ++ rest) ∧
    Connection.Answered secret fs before ∧ last.length ≤ 1 ∧ (last ≠ [] → w.Over) ∧
    w.calls = before ++ more ∧ more.map Called.call = last.filterMap (Frame.storeCall? secret)

omit [Store σ] in
theorem authentic_of_sound {w : Traffic (Observed σ)}
    (hw : Sound (fun ds s h => Connection.Effects ds h.store.calls s) w) : w.Authentic := by
  obtain ⟨hsane, ds, heffects, -, p, q, said, hlink, hin, hout⟩ := hw
  have hheard := heard_eq hlink hin
  obtain ⟨hnone, hunasked⟩ | ⟨peer, pair, secret, fs, last, before, more, hkeyed, hlast, ha,
    hcalls, hmore, hover, hsecret⟩ := heffects.cases hsane
  · rw [← hheard] at hunasked
    exact Or.inl ⟨hnone, hunasked⟩
  obtain ⟨key, hkey, hagree⟩ := hkeyed.agreed
  obtain ⟨rest, hrest⟩ := hout.front
  obtain ⟨others, hothers⟩ := hkeyed.said
  refine Or.inr ⟨peer, pair, key, secret, fs, last, before, more, hheard.trans hkeyed.heard, hkey,
    hagree, hsecret, ⟨Frame.wire others ++ rest, ?_⟩, ha, hlast, hover, hcalls, hmore⟩
  · rw [written_eq hlink, hrest, hothers, Frame.wire_cons_of_fits (Frame.fits_key pair.publicKey),
      ByteArray.append_assoc]

/-- A frame never asks to delete documents. -/
theorem storeCall?_ne_deleteBefore (secret : Crypto.SharedSecret) (f : Frame) (cutoff : Timestamp) :
    f.storeCall? secret ≠ some (.deleteBefore cutoff) := by
  intro hcall
  obtain ⟨r, -, hr⟩ := Option.bind_eq_some_iff.mp hcall
  obtain ⟨u, -, hu⟩ := Option.map_eq_some_iff.mp hr
  cases r <;> cases hu

/-- **Store calls and authentic frames are one to one.** Whatever bytes arrive on a connection, in
whatever portions, and whatever the store does and others do to it: the frames that the connection
has taken stand in front of those that arrived, and the calls that it has made are those that they
ask for (`Vault.Traffic.Authentic`); once it takes no more frames it makes no more calls; it makes
none if the first frame does not open a session; and it never deletes documents. The record of the
calls is kept by a store under observation, and the connection does what it does without. -/
theorem calls_of_authentic_frames (capacity : ℕ) (h : Host σ) (sched : ℕ → Move σ) (n : ℕ) :
    (observed capacity h sched n).unobserved = Schedule.after step sched (start capacity h) n ∧
    (observed capacity h sched n).heard <+: (observed capacity h sched n).frames ∧
    (observed capacity h sched n).Authentic ∧
    ((observed capacity h sched n).Over →
      ∀ k, n ≤ k → (observed capacity h sched k).calls = (observed capacity h sched n).calls) ∧
    ((observed capacity h sched n).frames.head? ≠ some (.open .session) →
      (observed capacity h sched n).calls = []) ∧
    ∀ c ∈ (observed capacity h sched n).calls, ∀ cutoff, c.call ≠ .deleteBefore cutoff := by
  have hkeeps (k : ℕ) : (sched k).observed.Keeps Connection.KeepsRecord := keeps_observed (sched k)
  have hsound : Sound (fun ds s h => Connection.Effects ds h.store.calls s)
      (observed capacity h sched n) :=
    sound_after Connection.invariant_effects ⟨rfl, rfl⟩ hkeeps capacity n
  have hauthentic := authentic_of_sound hsound
  have hfront : (observed capacity h sched n).heard <+: (observed capacity h sched n).frames := by
    obtain ⟨-, ds, -, -, p, q, said, hlink, hin, -⟩ := hsound
    rw [heard_eq hlink hin]
    exact hin.frames .eof
  refine ⟨unobserved_observed capacity h sched n, hfront, hauthentic, fun hover k hk => ?_,
    fun hfirst => ?_, fun c hc cutoff hcall => ?_⟩
  · -- the run from here on is sound for another invariant: the calls are those made so far
    have hstill : Sound (fun _ s h' => s.Over ∧
        h'.store.calls = (observed capacity h sched n).calls) (observed capacity h sched n) := by
      obtain ⟨hsane, ds, -, hfaithful, htracks⟩ := hsound
      exact ⟨hsane, ds, ⟨hover, rfl⟩, hfaithful, htracks⟩
    obtain ⟨-, ds, ⟨-, hcalls⟩, -⟩ :=
      sound_after_of_le (Connection.invariant_over _) hkeeps hstill hk
    exact hcalls
  · obtain ⟨hnone, -⟩ | ⟨peer, pair, key, secret, fs, last, before, more, hheard, -⟩ := hauthentic
    · exact hnone
    · obtain ⟨later, hlater⟩ := hfront
      rw [← hlater, hheard] at hfirst
      exact absurd rfl hfirst
  · obtain ⟨hnone, -⟩ | ⟨peer, pair, key, secret, fs, last, before, more, -, -, -, -, -, ha, -, -,
      hcalls, hmore⟩ := hauthentic
    · rw [hnone] at hc
      cases hc
    · have hasked : c.call ∈ (fs ++ last).filterMap (Frame.storeCall? secret) := by
        rw [List.filterMap_append, ← ha.asked, ← hmore, ← List.map_append, ← hcalls]
        exact List.mem_map_of_mem hc
      obtain ⟨f, -, hf⟩ := List.mem_filterMap.mp hasked
      rw [hcall] at hf
      exact storeCall?_ne_deleteBefore secret f cutoff hf

/-! ### A visitor with two requests -/

/-- Two frames after the first two, one by one. -/
theorem observed_two (h : Host σ) (f g first second : Frame) :
    observed Exchange.window h (oneByOne [f, g, first, second]) (2 * 4) =
      step .run (step (.arrive second.onWire) (step .run (step (.arrive first.onWire)
        (Schedule.after step (oneByOne [f, g, first, second])
          (start Exchange.window (h.mapStore fun s => ⟨s, []⟩)) (2 * 2))))) := by
  have hsched : (fun k => (oneByOne [f, g, first, second] k : Move σ).observed) =
      oneByOne [f, g, first, second] := by
    funext k
    rw [oneByOne, oneByOne]
    split_ifs <;> rfl
  rw [observed, hsched, after_oneByOne _ _ 3, after_oneByOne _ _ 2]
  simp only [List.getD_cons_succ, List.getD_cons_zero]

/-- A visitor can send any request that a frame can carry. -/
theorem exists_request (secret : Crypto.SharedSecret) {r : Request}
    (hr : Frame.Carries (Wire.encodeRequest r).size) :
    ∃ m, (Frame.message m).Fits ∧
      Crypto.Envelope.reveal secret m = .ok (Wire.encodeRequest r) ∧
      Wire.decodeRequest (Wire.encodeRequest r) = .ok r ∧
      (Frame.message m).request? secret = some r := by
  have hsize : (Wire.encodeRequest r).size < 2 ^ 64 := by
    have hmax : Frame.maxLength = 4194304 := rfl
    rw [Frame.Carries, Frame.sealedSize] at hr
    omega
  have hdecode := Wire.decodeRequest_encodeRequest hsize
  obtain ⟨m, -, -, hopens, hfits⟩ := Frame.exists_sealed_of_carries secret hr ⟨fun _ => 0, 0⟩
  refine ⟨m, hfits, hopens, hdecode, ?_⟩
  rw [Frame.request?, hopens]
  simp only [Except.toOption, Option.bind_some, hdecode]

/-- A request that fails because of the caller is answered. -/
theorem dispatch_of_client_error {plain : Bytes} {r : Request} {s : Status} {h h' : Host σ}
    (hdecode : Wire.decodeRequest plain = .ok r) (hhandle : Dispatch.handle r h = (.error s, h'))
    (hkind : s.kind.isClientError = true) :
    Dispatch.dispatch plain h = (.ok (.error s), h'.recordStatus s) := by
  simp only [Dispatch.dispatch, hdecode, hhandle, hkind, if_true]

/-- Nothing is found in an empty store. -/
theorem handle_get_empty {h : Host (Observed Memory)} (hempty : h.store.store = {}) {id : String}
    (hvalid : (Request.get id).validate = .ok ()) :
    ∃ h', Dispatch.handle (.get id) h = (.error (.notFound "document not found"), h') ∧
      h'.signal = h.signal := by
  obtain ⟨⟨store, calls⟩, now, entropy, log, signal⟩ := h
  obtain rfl : store = {} := hempty
  rw [Dispatch.handle, hvalid]
  exact ⟨_, rfl, rfl⟩

/-- **A visitor with two requests**: for a document that is not there, and for one by an id that is
too short. Both are answered. -/
theorem exists_two_requests : ∃ (first second : Bytes) (secret : Crypto.SharedSecret)
    (w : Traffic (Observed Memory)) (h : Host (Observed Memory)) (b : Bytes),
      w = observed Exchange.window Duplex.emptyHost (oneByOne [.open .session,
        .message visitorKey.bytes, .message first, .message second]) (2 * 4) ∧
      w.exchange = serving secret h b ∧
      w.frames = [.open .session, .message visitorKey.bytes, .message first, .message second] ∧
      (Frame.message first).request? secret = some (.get "absent") ∧
      (Frame.message second).request? secret = some (.get "none") := by
  obtain ⟨secret, hagree⟩ : ∃ secret,
      (Crypto.KeyPair.generate Duplex.emptyHost.entropy).1.agree visitorKey = .ok secret :=
    ⟨_, Crypto.KeyPair.agree_eq (by decide +kernel)⟩
  have hvalid : (Request.get "absent").validate = .ok () := by decide
  have hshort : (Request.get "none").validate = .error (.invalidArgument "id is too short") := by
    decide
  obtain ⟨first, hfits, hopens, hdecode, hfirst⟩ :=
    exists_request secret (r := .get "absent") (by rw [Frame.Carries]; decide +kernel)
  obtain ⟨second, hfits', hopens', hdecode', hsecond⟩ :=
    exists_request secret (r := .get "none") (by rw [Frame.Carries]; decide +kernel)
  have hsize {f : Frame} (hf : f.Fits) : f.onWire.size ≤ 4194308 := by
    have hmax : Frame.maxLength = 4194304 := rfl
    have hlength : Frame.lengthBytes = 4 := rfl
    rw [Frame.Fits] at hf
    rw [Frame.size_onWire]
    omega
  have hroom {b : Bytes} (hb : b.size ≤ 2 * 4194308) :
      b.size + (Frame.lengthBytes + Frame.maxLength) ≤ Exchange.window := by
    have hwindow : Exchange.window = 16777216 := rfl
    have hmost : Frame.lengthBytes + Frame.maxLength = 4194308 := rfl
    omega
  -- the first request finds nothing, and the second is not carried out; both are answered
  obtain ⟨hkeys, harrived, -⟩ := after_keys
    (h := Duplex.emptyHost.mapStore fun s => (⟨s, []⟩ : Observed Memory)) rfl hagree
    [.message first, .message second]
  have hkey := hsize (Frame.fits_key hostKey)
  obtain ⟨h', hhandle, hsignal⟩ := handle_get_empty (h := { Duplex.emptyHost.mapStore
    (fun s => (⟨s, []⟩ : Observed Memory)) with
      entropy := (Crypto.KeyPair.generate Duplex.emptyHost.entropy).2 }) rfl hvalid
  obtain ⟨envelope, entropy, henvelope, hserving, harrived'⟩ := step_request hkeys hfits hopens
    (dispatch_of_client_error hdecode hhandle rfl)
    (Status.Brief.carries (by rw [Status.Brief]; decide)) rfl
    (congrArg Signal.cancelled hsignal) (hroom (hkey.trans (by decide)))
  have hboth : ((Frame.message hostKey.bytes).onWire ++ (Frame.message envelope).onWire).size ≤
      2 * 4194308 := by
    have henvelope' := hsize henvelope
    rw [ByteArray.size_append]
    omega
  have hhandle' (h : Host (Observed Memory)) : Dispatch.handle (.get "none") h =
      (.error (.invalidArgument "id is too short"), h) := by
    rw [Dispatch.handle, hshort]
  obtain ⟨envelope', entropy', -, hserving', harrived''⟩ := step_request hserving hfits' hopens'
    (dispatch_of_client_error hdecode' (hhandle' _) rfl)
    (Status.Brief.carries (by rw [Status.Brief]; decide)) (congrArg Signal.cancelled hsignal)
    (congrArg Signal.cancelled hsignal) (hroom hboth)
  rw [harrived', harrived] at harrived''
  rw [← observed_two] at hserving' harrived''
  refine ⟨first, second, secret, _, _, _, rfl, hserving', ?_, hfirst, hsecond⟩
  have hframes := Frame.framesOf_onWire .eof hfits' ByteArray.empty
  rw [ByteArray.append_empty, Frame.framesOf_empty] at hframes
  rw [frames, harrived'', ByteArray.append_assoc, ByteArray.append_assoc,
    Frame.framesOf_onWire .eof (by decide), Frame.framesOf_onWire .eof (Frame.fits_key visitorKey),
    Frame.framesOf_onWire .eof hfits, hframes]

/-- **Two authentic frames and one call.** A visitor asks for a document that is not there, and
then for one by an id that is too short. Both frames are taken, and the store is called for the
first alone. -/
theorem calls_of_authentic_frames_short_id :
    ∃ (first second : Bytes) (secret : Crypto.SharedSecret) (w : Traffic (Observed Memory)),
      w = observed Exchange.window Duplex.emptyHost (oneByOne [.open .session,
        .message visitorKey.bytes, .message first, .message second]) (2 * 4) ∧
      w.heard = [.open .session, .message visitorKey.bytes, .message first, .message second] ∧
      w.secret? = some secret ∧
      (Frame.message first).request? secret = some (.get "absent") ∧
      (Frame.message second).request? secret = some (.get "none") ∧
      (Frame.message second).storeCall? secret = none ∧
      w.calls.map Called.call = [.get "absent"] := by
  obtain ⟨first, second, secret, w, h, b, hw, hserving, hframes, hfirst, hsecond⟩ :=
    exists_two_requests
  have hheard := (heard_serving hserving).trans hframes
  have hsecret : w.secret? = some secret := by
    rw [secret?, hserving]
    rfl
  have hone : (Frame.message first).storeCall? secret = some (.get "absent") := by
    rw [Frame.storeCall?, hfirst]
    rfl
  have hnone : (Frame.message second).storeCall? secret = none := by
    rw [Frame.storeCall?, hsecond]
    rfl
  refine ⟨first, second, secret, w, hw, hheard, hsecret, hfirst, hsecond, hnone, ?_⟩
  obtain ⟨-, -, hauthentic, -⟩ := calls_of_authentic_frames Exchange.window Duplex.emptyHost
    (oneByOne [.open .session, .message visitorKey.bytes, .message first, .message second]) (2 * 4)
  rw [← hw] at hauthentic
  obtain ⟨-, hc | hc⟩ | ⟨peer, pair, key, secret', fs, last, before, more, htaken, -, -, hsame, -,
    ha, -, -, hcalls, hmore⟩ := hauthentic
  · rw [hheard] at hc
    exact absurd rfl hc
  · rw [hheard] at hc
    simp at hc
  · obtain rfl := hsame secret hsecret
    have hasked : fs ++ last = [.message first, .message second] := by
      rw [hheard] at htaken
      exact (List.cons.inj (List.cons.inj htaken).2).2.symm
    rw [hcalls, List.map_append, ha.asked, hmore, ← List.filterMap_append, hasked]
    simp [hone, hnone]

end Traffic

end Vault
