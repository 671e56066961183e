import Vault.Proofs.Cbor.Complaint.Frames
import Vault.Proofs.Service.Visit

/-!
# The last word of a failed session

A session that fails says why: its last frame is the status of the failure. The frame is
written unless it is too long for a frame, and then the peer sees the stream end as if all
were well. What is shown is when that can happen (`Vault.Traffic.failure_told_unless_quoted`):
only when the failure quotes the peer at length (`Vault.Server.Quotes`), which is to say when
it complains about a request in the peer's words, or passes on the status with which the
peer itself gave up. Every other failure is told: that of the handshake, of an envelope, of a
frame, of the store.

The invariant follows the stages of the connection (`Vault.Connection.LastWord`). A session that
has something to say has said nothing final yet, and what it will say belongs to what it
will come to.
-/

namespace Vault

open Server (Call Dealing Poised)

variable {σ : Type}

/-! ### Failures that are short in words -/

/-- A status of no more than so many characters fits a frame. -/
theorem Frame.fits_abort_of_length {s : Status} (h : s.message.length ≤ 100000) :
    (abort s).Fits := by
  have hsize := size_abort_le s
  have htext := Utf8.size_encode_le s.message
  have hwidth := Cbor.Head.width_le (Utf8.encode s.message).size
  have hmax : maxLength = 4194304 := rfl
  rw [Cbor.textSize] at hsize
  rw [Fits]
  omega

/-- What bytes make of a frame: it announces too much, or it is what its body says. -/
theorem Frame.Reading.Exact.settled {r : Frame.Reading} (hr : r.Exact)
    {x : Except LinkError (Option Frame)} (h : r.progress = .done x) :
    (∃ n < 2 ^ 32, x = .error (.frameTooLarge n Frame.maxLength)) ∨
      ∃ b, ByteArray.size b < 10 ^ 20 ∧ x = (Frame.decodeBody b).map some := by
  have hannounced : r.announced < 2 ^ 32 := by
    have hsize : (Bytes.take r.taken Frame.lengthBytes).size ≤ 4 := by
      rw [Bytes.size_take]
      exact Nat.min_le_left _ _
    calc r.announced < 256 ^ (Bytes.take r.taken Frame.lengthBytes).size := Bytes.natBE_lt _
      _ ≤ 256 ^ 4 := Nat.pow_le_pow_right (by decide) hsize
      _ = 2 ^ 32 := by decide
  have hlength : Frame.lengthBytes = 4 := rfl
  rw [Frame.Reading.progress] at h
  split_ifs at h with hshort hlong hpart
  · exact Or.inl ⟨_, hannounced, (Frame.Progress.done.inj h).symm⟩
  · refine Or.inr ⟨_, ?_, (Frame.Progress.done.inj h).symm⟩
    rw [Bytes.size_drop]
    rcases hr with hr | hr <;> omega

theorem LinkError.length_message_frameTooLarge {n : ℕ} (hn : n < 2 ^ 32) :
    (frameTooLarge n Frame.maxLength).message.length ≤ 70000 := by
  have hdigits : (toString n).length ≤ 10 := length_toString_le (by decide) (by omega)
  have hwords : "frame too large: ".length = 17 ∧ " bytes (max ".length = 12 ∧
      (toString Frame.maxLength).length = 7 ∧ ")".length = 1 := by
    decide
  change ("frame too large: " ++ toString n ++ " bytes (max " ++ toString Frame.maxLength ++
    ")").length ≤ 70000
  rw [String.length_append, String.length_append, String.length_append, String.length_append]
  omega

theorem LinkError.length_message_codec {text : String} (htext : text.length ≤ 60000) :
    (codec text).message.length ≤ 70000 := by
  have hwords : "frame codec error: ".length = 19 := by decide
  change ("frame codec error: " ++ text).length ≤ 70000
  rw [String.length_append]
  omega

theorem LinkError.length_message_outboundTooLarge {n : ℕ} (hn : n < 10 ^ 20) :
    (SessionError.link (outboundTooLarge n Frame.maxLength)).toStatus.message.length ≤ 100000 := by
  have hdigits : (toString n).length ≤ 20 := length_toString_le (by decide) hn
  have hwords : "outbound frame too large: ".length = 26 ∧ " bytes (max ".length = 12 ∧
      (toString Frame.maxLength).length = 7 ∧ ")".length = 1 := by
    decide
  change ("outbound frame too large: " ++ toString n ++ " bytes (max " ++
    toString Frame.maxLength ++ ")").length ≤ 100000
  rw [String.length_append, String.length_append, String.length_append, String.length_append]
  omega

/-- **What cannot be received is told in few words.** -/
theorem Server.Dealing.Faithful.length_message {e : LinkError}
    (h : (Dealing.receive (some (.error e))).Faithful) :
    (∀ s, e ≠ .remote s) ∧ e.message.length ≤ 70000 := by
  obtain ⟨r, hr, hend | hdone⟩ := h
  · rw [Frame.Reading.atEnd] at hend
    split_ifs at hend
    all_goals
      rw [← Except.error.inj hend]
      exact ⟨by simp, by decide⟩
  · obtain ⟨n, hn, hx⟩ | ⟨b, hb, hx⟩ := hr.settled hdone
    · rw [Except.error.inj hx]
      exact ⟨by simp, LinkError.length_message_frameTooLarge hn⟩
    · obtain ⟨text, hdecode, htext⟩ | ⟨f, hdecode, -⟩ := Frame.decodeBody_cases hb
      · rw [hdecode] at hx
        rw [Except.error.inj hx]
        exact ⟨by simp, LinkError.length_message_codec htext⟩
      · rw [hdecode] at hx
        cases hx

/-- The size of a message that was received has few digits. -/
theorem Server.Dealing.Faithful.size_message {m : Bytes}
    (h : (Dealing.receive (some (.ok (some (.message m))))).Faithful) : m.size ≤ 10 ^ 40 := by
  obtain ⟨r, hr, hend | hdone⟩ := h
  · exact absurd hend (Frame.Ending.stop_ne_some .eof r _)
  · obtain ⟨n, hn, hx⟩ | ⟨b, hb, hx⟩ := hr.settled hdone
    · cases hx
    · obtain ⟨text, hdecode, htext⟩ | ⟨f, hdecode, hf⟩ := Frame.decodeBody_cases hb
      · rw [hdecode] at hx
        cases hx
      · rw [hdecode] at hx
        exact hf m (Option.some.inj (Except.ok.inj hx)).symm

/-- A request fails by the caller's fault, or because the store failed. -/
theorem Dispatch.internal_of_handle [Store σ] {r : Request} {h h' : Host σ} {s : Status}
    (hs : handle r h = (.error s, h')) (hkind : ¬s.kind.isClientError = true) :
    s = .internal "storage failure" := by
  have hstore (e : StoreError) (h : Host σ) (hs : (storeStatus e h).1 = s) :
      s = .internal "storage failure" := by
    cases e with
    | notFound id => exact absurd (hs ▸ rfl) hkind
    | _ => exact hs.symm
  have hanswer {α : Type} {f : α → Host σ → Response × Host σ} {x : Except StoreError α × Host σ}
      (hx : answer f x = (.error s, h')) : s = .internal "storage failure" := by
    obtain ⟨e | a, h''⟩ := x
    · exact hstore e h'' (Except.error.inj (Prod.mk.inj hx).1)
    · cases hx
  rw [handle] at hs
  rcases hvalid : r.validate with s' | u
  · rw [hvalid] at hs
    obtain rfl := Except.error.inj (Prod.mk.inj hs).1
    rw [Request.validate] at hvalid
    split at hvalid
    · exact absurd (Except.error.inj hvalid ▸ rfl) hkind
    · cases hvalid
  · rw [hvalid] at hs
    change perform r h = _ at hs
    cases r with
    | add owner content name =>
      rw [perform] at hs
      exact hanswer hs
    | get id =>
      rw [perform] at hs
      exact hanswer hs
    | list owner =>
      rw [perform] at hs
      exact hanswer hs

/-- **A message that ends a session** is no request, or the store failed. -/
theorem Dispatch.error_cases [Store σ] {plain : Bytes} {h h' : Host σ} {s : Status}
    (hd : dispatch plain h = (.error s, h')) :
    (∃ d, Wire.decodeRequest plain = .error d ∧ s = d.status) ∨
      s = .internal "storage failure" := by
  rw [dispatch] at hd
  rcases hdecode : Wire.decodeRequest plain with d | r
  · rw [hdecode] at hd
    exact Or.inl ⟨d, rfl, (Except.error.inj (Prod.mk.inj hd).1).symm⟩
  rw [hdecode] at hd
  dsimp only at hd
  rcases hhandle : handle r h with ⟨s' | response, h''⟩
  · -- only a failure that is not the caller's ends the session
    rw [hhandle] at hd
    dsimp only at hd
    split_ifs at hd with hkind
    · cases hd
    · obtain rfl := Except.error.inj (Prod.mk.inj hd).1
      exact Or.inr (internal_of_handle hhandle hkind)
  · rw [hhandle] at hd
    cases hd

namespace Server

/-! ### Quoting the peer -/

/-- **A failure that quotes the peer**: it passes on the status with which the peer gave up, or it
is the complaint about a message that the peer sealed and that is no request. -/
def Quotes (fs : List Frame) (e : SessionError) : Prop :=
  (∃ s, .abort s ∈ fs ∧ e = .link (.remote s)) ∨
    fs.head? = some (.open .session) ∧ ∃ m secret plain d, .message m ∈ fs ∧
      Crypto.Envelope.reveal secret m = .ok plain ∧ Wire.decodeRequest plain = .error d ∧
      e = .status d.status

theorem Quotes.mono {fs gs : List Frame} {e : SessionError} (h : Quotes fs e) (hgs : fs <+: gs) :
    Quotes gs e := by
  obtain ⟨s, hs, he⟩ | ⟨hhead, m, secret, plain, d, hm, hrest⟩ := h
  · exact Or.inl ⟨s, hgs.subset hs, he⟩
  · refine Or.inr ⟨?_, m, secret, plain, d, hgs.subset hm, hrest⟩
    obtain ⟨more, rfl⟩ := hgs
    rw [List.head?_append, hhead]
    rfl

/-- A failure that can be told, or quotes the peer. -/
def Tellable (fs : List Frame) (e : SessionError) : Prop :=
  (Frame.abort e.toStatus).Fits ∨ Quotes fs e

theorem tellable_of_length (fs : List Frame) {e : SessionError}
    (h : e.toStatus.message.length ≤ 100000) : Tellable fs e :=
  Or.inl (Frame.fits_abort_of_length h)

/-- **What a turn comes to is what it will say**: the last frame of a session that fails is the
status of the failure. A session does not fail without saying so. -/
def Pending (fs : List Frame) : Waiting ⊕ Outcome → Prop
  | .inl (.deliver (.reply envelope)) => envelope.size ≤ 10 ^ 15
  | .inl (.deliver (.closing last (.error e) _)) => last = .error e.toStatus ∧ Tellable fs e
  | .inl _ => True
  | .inr (.error _) => False
  | .inr (.ok _) => True

section Pending

variable {fs : List Frame} {p : Phase} {h : Host σ}

theorem pending_close_ok (last : Except Status Unit) (a : Answer) (watched : Bool) :
    Pending fs (close p h last (.ok a) watched).next := by
  rw [close]
  cases p.name <;> exact trivial

theorem pending_terminate (hp : p.name ≠ .terminated) {e : SessionError} (he : Tellable fs e)
    (watched : Bool) : Pending fs (terminate p h e watched).next := by
  unfold terminate
  dsimp only
  rw [close_of_open hp]
  exact ⟨rfl, he⟩

theorem pending_proceed {call : Call} (hcall : call.loops = true) (secret : Crypto.SharedSecret) :
    Pending fs (proceed call (.established secret) h).next := by
  rw [proceed, if_pos hcall, nextInbound]
  split_ifs
  · exact pending_close_ok _ _ _
  · exact trivial

/-- A message that is sealed is not longer than the cipher can take. -/
theorem pending_reply (secret : Crypto.SharedSecret) (plain : Bytes) :
    Pending fs (reply (.established secret) h plain).next := by
  rw [reply_established]
  by_cases hlong : Crypto.Envelope.tooLong plain.size = true
  · rw [Crypto.Envelope.sealFresh_of_tooLong secret hlong h.entropy]
    have hwords : Tellable fs (.crypto (.encryption Crypto.Envelope.cipherFailure)) :=
      tellable_of_length fs (by decide +kernel)
    exact pending_terminate (p := .established secret) (by simp) hwords _
  · obtain ⟨envelope, hseal, -, hsize⟩ :=
      Crypto.Envelope.sealFresh_of_not_tooLong secret hlong h.entropy
    have henvelope := Crypto.Envelope.size_of_sealFresh hseal
    have hmin : Crypto.Envelope.minBytes = 29 := rfl
    rw [hseal]
    change envelope.size ≤ 10 ^ 15
    omega

theorem pending_handshake {peer : Bytes} (hsize : peer.size ≤ 10 ^ 40) :
    Pending fs (handshake p h peer).next := by
  unfold handshake
  dsimp only
  rcases hkey : Crypto.PublicKey.ofBytes peer with e | key
  · refine pending_terminate (p := ⟨.handshaking, p.shared⟩) (by simp) (tellable_of_length fs ?_) _
    rw [Crypto.PublicKey.ofBytes] at hkey
    split_ifs at hkey
    rw [← Except.error.inj hkey]
    have hdigits : (toString peer.size).length ≤ 41 := length_toString_le (by decide) (by omega)
    have hwords : "invalid peer key: ".length = 18 ∧
        "invalid public key: expected 32 bytes, got ".length = 43 := by
      decide
    change ("invalid peer key: " ++
      ("invalid public key: expected 32 bytes, got " ++ toString peer.size)).length ≤ 100000
    rw [String.length_append, String.length_append]
    omega
  · dsimp only
    rcases hagree : (Crypto.KeyPair.generate h.entropy).1.agree key with e | secret
    · refine pending_terminate (p := ⟨.handshaking, p.shared⟩) (by simp)
        (tellable_of_length fs ?_) _
      unfold Crypto.KeyPair.agree at hagree
      dsimp only at hagree
      split_ifs at hagree
      rw [← Except.error.inj hagree]
      decide
    · exact trivial

/-- **The failure to receive a frame** is told in few words, or is the peer's own status. -/
theorem inbound_error {x : Except LinkError (Option Frame)}
    (hx : (Dealing.receive (some x)).Faithful) {e : LinkError} (h : Link.inbound x = .error e) :
    (∃ s, x = .ok (some (.abort s)) ∧ e = .remote s) ∨
      (∀ s, e ≠ .remote s) ∧ e.message.length ≤ 70000 := by
  rcases x with e' | _ | f
  · obtain rfl := Except.error.inj h
    exact Or.inr hx.length_message
  · cases h
  · cases f with
    | «open» m =>
      rw [← Except.error.inj h]
      refine Or.inr ⟨by simp, ?_⟩
      cases m <;> decide
    | message b => cases h
    | «end» => cases h
    | abort s => exact Or.inl ⟨s, rfl, (Except.error.inj h).symm⟩

theorem inbound_message {x : Except LinkError (Option Frame)} {m : Bytes}
    (h : Link.inbound x = .ok (some m)) : x = .ok (some (.message m)) := by
  rcases x with e | _ | f
  · cases h
  · cases h
  · cases f with
    | message b => rw [Option.some.inj (Except.ok.inj h)]
    | _ => cases h

theorem pending_receivedKey (hp : p.name ≠ .terminated) {x : Except LinkError (Option Frame)}
    (hx : (Dealing.receive (some x)).Faithful) (hfs : ∀ f, x = .ok (some f) → f ∈ fs) :
    Pending fs (receivedKey p h (Link.inbound x)).next := by
  unfold receivedKey
  rcases hin : Link.inbound x with e | _ | peer
  · obtain ⟨s, rfl, rfl⟩ | ⟨hremote, hlength⟩ := inbound_error hx hin
    · exact pending_terminate hp (Or.inr (Or.inl ⟨s, hfs _ rfl, rfl⟩)) _
    · have htold : Tellable fs (.handshake ("reading initial message: " ++ e.message)) := by
        have hwords : "handshake failed: ".length = 18 ∧
            "reading initial message: ".length = 25 := by
          decide
        refine tellable_of_length fs ?_
        change ("handshake failed: " ++ ("reading initial message: " ++ e.message)).length ≤ 100000
        rw [String.length_append, String.length_append]
        omega
      cases e with
      | remote s => exact absurd rfl (hremote s)
      | _ => exact pending_terminate hp htold _
  · exact pending_terminate hp (tellable_of_length fs (by decide)) _
  · obtain rfl := inbound_message hin
    exact pending_handshake hx.size_message

theorem length_message_of_reveal {secret : Crypto.SharedSecret} {envelope : Bytes}
    {e : Crypto.Error} (h : Crypto.Envelope.reveal secret envelope = .error e) :
    (SessionError.decrypt e).toStatus.message.length ≤ 100000 := by
  have hmalformed {n : ℕ} (hn : n < 10 ^ 3) {text : String} (htext : text.length ≤ 100) :
      (SessionError.decrypt (.malformedEnvelope (text ++ toString n))).toStatus.message.length ≤
        100000 := by
    have hdigits : (toString n).length ≤ 3 := length_toString_le (by decide) hn
    have hwords : "cannot decrypt message: ".length = 24 ∧ "malformed envelope: ".length = 20 := by
      decide
    change ("cannot decrypt message: " ++ ("malformed envelope: " ++ (text ++ toString n))).length ≤
      100000
    rw [String.length_append, String.length_append, String.length_append]
    omega
  have hmin : Crypto.Envelope.minBytes = 29 := rfl
  have hbyte := (Bytes.byteAt envelope 0).toNat_lt
  unfold Crypto.Envelope.reveal at h
  dsimp only at h
  split_ifs at h
  · rw [← Except.error.inj h]
    exact hmalformed (by omega) (by decide)
  · rw [← Except.error.inj h]
    exact hmalformed (by omega) (by decide)
  · rw [← Except.error.inj h]
    decide
  · rw [← Except.error.inj h]
    decide

variable [Store σ]

theorem pending_opened {call : Call} (hcall : call.loops = true) {secret : Crypto.SharedSecret}
    {m plain : Bytes} (hopens : Crypto.Envelope.reveal secret m = .ok plain) (hm : .message m ∈ fs)
    (hserve : call = .serve → fs.head? = some (.open .session)) :
    Pending fs (opened call (.established secret) h plain).next := by
  cases call with
  | serve =>
    rw [opened]
    rcases hdispatch : Dispatch.dispatch plain h with ⟨s | response, h'⟩
    · refine pending_terminate (p := .established secret) (by simp) ?_ _
      obtain ⟨d, hdecode, rfl⟩ | rfl := Dispatch.error_cases hdispatch
      · exact Or.inr (Or.inr ⟨hserve rfl, m, secret, plain, d, hm, hopens, hdecode, rfl⟩)
      · exact tellable_of_length fs (by decide)
    · exact pending_reply secret _
  | echo => exact pending_reply secret _
  | _ => cases hcall

theorem pending_receivedRequest {call : Call} (hcall : call.loops = true)
    (secret : Crypto.SharedSecret) {x : Except LinkError (Option Frame)}
    (hx : (Dealing.receive (some x)).Faithful) (hfs : ∀ f, x = .ok (some f) → f ∈ fs)
    (hserve : call = .serve → fs.head? = some (.open .session)) :
    Pending fs (receivedRequest call (.established secret) h (Link.inbound x)).next := by
  unfold receivedRequest
  rcases hin : Link.inbound x with e | _ | envelope
  · refine pending_terminate (p := .established secret) (by simp) ?_ _
    obtain ⟨s, rfl, rfl⟩ | ⟨hremote, hlength⟩ := inbound_error hx hin
    · exact Or.inr (Or.inl ⟨s, hfs _ rfl, rfl⟩)
    · refine tellable_of_length fs ?_
      have hmessage : (SessionError.link e).toStatus.message = e.message := by
        cases e with
        | remote s => exact absurd rfl (hremote s)
        | _ => rfl
      rw [hmessage]
      omega
  · exact pending_close_ok _ _ _
  · obtain rfl := inbound_message hin
    dsimp only
    rcases hopens : Crypto.Envelope.reveal secret envelope with e | plain
    · exact pending_terminate (p := .established secret) (by simp)
        (tellable_of_length fs (length_message_of_reveal hopens)) _
    · exact pending_opened hcall hopens (hfs _ rfl) hserve

omit [Store σ] in
/-- What is delivered, or cannot be. -/
theorem pending_delivered {call : Call} (hcall : call.loops = true) {d : Delivering}
    (hp : Poised p (.inl (.deliver d))) (hd : Pending fs (.inl (.deliver d)))
    (hlast : ∀ last result watched, d ≠ .closing last result watched)
    {x : Except LinkError Unit} (hx : (d.dealing (some x)).Faithful) :
    Pending fs (delivered call p h d x).next := by
  cases hp with
  | greeting k secret =>
    obtain rfl : x = .ok () := by
      have houtcome : x = (Frame.message k.bytes).outcome := hx
      rw [houtcome, Frame.outcome, if_pos (Frame.fits_key k)]
    exact pending_proceed hcall secret
  | reply secret envelope =>
    have houtcome : x = (Frame.message envelope).outcome := hx
    by_cases hfits : (Frame.message envelope).Fits
    · rw [Frame.outcome, if_pos hfits] at houtcome
      rw [houtcome]
      exact pending_proceed hcall secret
    · rw [Frame.outcome, if_neg hfits] at houtcome
      rw [houtcome]
      refine pending_terminate (p := .established secret) (by simp) (tellable_of_length fs ?_) _
      have hsize : envelope.size ≤ 10 ^ 15 := hd
      have hwidth := Cbor.Head.width_le envelope.size
      have hbody := Frame.size_message envelope
      exact LinkError.length_message_outboundTooLarge (by omega)
  | closing last result watched => exact absurd rfl (hlast last result watched)

end Pending

end Server

namespace Connection

/-! ### The invariant -/

/-- Nothing final has been said. -/
def Unsaid (ds : List Dealing) : Prop := ∀ d ∈ ds, d.isFinish = false

/-- **What a connection has said and will say**, by its stage. -/
def LastWord (ds : List Dealing) : Stage → Prop
  | .opening => ds = []
  | .refusing e _ => ∀ e', e ≠ .session e'
  | .session call _ w => Unsaid ds ∧
    (call = .serve → (Server.heard ds).head? = some (.open .session)) ∧
    Server.Pending (Server.heard ds) (.inl w)
  | .ended (.error (.session e)) => ∃ before x, Unsaid before ∧
    ds = before ++ [.finish (.error e.toStatus) (some x)] ∧ Server.Tellable (Server.heard ds) e
  | _ => True

theorem Unsaid.concat {ds : List Dealing} (h : Unsaid ds) {d : Dealing} (hd : d.isFinish = false) :
    Unsaid (ds ++ [d]) := by
  intro d' hd'
  rcases List.mem_append.mp hd' with hd' | hd'
  · exact h d' hd'
  · rw [List.mem_singleton.mp hd']
    exact hd

/-- Before the last frame only messages are said. -/
theorem Unsaid.messages {ds : List Dealing} (h : Unsaid ds) :
    ∀ f ∈ Server.said ds, ∃ m, f = .message m := by
  intro f hf
  obtain ⟨d, hd, hsaid⟩ := List.mem_filterMap.mp hf
  cases d with
  | receive x => cases hsaid
  | send m x =>
    cases x with
    | none => cases hsaid
    | some x => exact ⟨m, (Option.some.inj hsaid).symm⟩
  | finish last x => cases h _ hd

/-- A session that has come to a turn. -/
theorem lastWord_ofTurn {ds : List Dealing} {call : Call} {t : Server.Turn σ} (hds : Unsaid ds)
    (hserve : call = .serve → (Server.heard ds).head? = some (.open .session))
    (ht : Server.Pending (Server.heard ds) t.next) : LastWord ds (ofTurn call t) := by
  obtain ⟨p, h, w | e | a⟩ := t
  · exact ⟨hds, hserve, ht⟩
  · cases ht
  · exact trivial

theorem lastWord_greeted {x : Except LinkError (Option Frame)} (h : Host σ) :
    LastWord [.receive (some x)] (greeted x h).1 := by
  have hunsaid : Unsaid [.receive (some x)] := by
    intro d hd
    rw [List.mem_singleton.mp hd]
    rfl
  rcases x with e | _ | f
  · exact fun e' hc => by cases hc
  · exact trivial
  · rcases f with m | m | _ | s
    · cases m with
      | ping => exact trivial
      | echo => exact ⟨hunsaid, by simp, trivial⟩
      | session => exact ⟨hunsaid, fun _ => rfl, trivial⟩
    all_goals exact fun e' hc => by cases hc

variable [Store σ]

/-- **A dealing of a session keeps its word.** -/
theorem lastWord_session {ds : List Dealing} {call : Call} {p : Server.Phase} {w : Server.Waiting}
    {h : Host σ} {d : Dealing} {t : Server.Turn σ} (hs : (Stage.session call p w).Sane)
    (hw : LastWord ds (.session call p w)) (hd : Server.Deals call ⟨p, h, .inl w⟩ d t)
    (hfaithful : d.Faithful) : LastWord (ds ++ [d]) (ofTurn call t) := by
  obtain ⟨hcall, hp⟩ := hs
  obtain ⟨hunsaid, hserve, hpending⟩ := hw
  cases hd with
  | @received _ _ r x =>
    -- what was heard ends with the frame, if there is one
    have hserve' : call = .serve →
        (Server.heard (ds ++ [.receive (some x)])).head? = some (.open .session) := by
      intro hc
      have hhead : (ds.filterMap Dealing.heard?).head? = some (.open .session) := hserve hc
      rw [Server.heard, List.filterMap_append, List.head?_append, hhead]
      rfl
    have hfs (f : Frame) (hf : x = .ok (some f)) :
        f ∈ Server.heard (ds ++ [.receive (some x)]) := by
      subst hf
      rw [Server.heard_concat ds rfl]
      exact List.mem_append_right _ (List.mem_singleton.mpr rfl)
    refine lastWord_ofTurn (hunsaid.concat rfl) hserve' ?_
    cases hp with
    | key => exact Server.pending_receivedKey (p := .awaitingPeerKey) (by simp) hfaithful hfs
    | request secret => exact Server.pending_receivedRequest hcall secret hfaithful hfs hserve'
  | @delivered _ _ d x =>
    have hheard : Server.heard (ds ++ [d.dealing (some x)]) = Server.heard ds :=
      Server.heard_concat_of_none ds (heard?_dealing d _)
    -- only the frame that closes the session is a last word
    by_cases hlast : ∃ last result watched, d = .closing last result watched
    · obtain ⟨last, result, watched, rfl⟩ := hlast
      cases result with
      | error e =>
        obtain ⟨rfl, htold⟩ := hpending
        exact ⟨ds, x, hunsaid, rfl, by rw [hheard]; exact htold⟩
      | ok a => exact trivial
    · have hfinish : (d.dealing (some x)).isFinish = false := by
        cases d with
        | closing last result watched => exact absurd ⟨_, _, _, rfl⟩ hlast
        | _ => rfl
      refine lastWord_ofTurn (hunsaid.concat hfinish) (by rwa [hheard]) ?_
      rw [hheard]
      exact Server.pending_delivered hcall hp hpending (fun _ _ _ hc => hlast ⟨_, _, _, hc⟩)
        hfaithful
  | interrupted hwatched hcancelled =>
    cases hp with
    | request secret =>
      refine lastWord_ofTurn (hunsaid.concat rfl) ?_ (Server.pending_close_ok _ _ _)
      rwa [Server.heard_concat_of_none ds rfl]
    | closing last result watched => exact trivial
    | _ => cases hwatched

/-- **The last word is kept by every dealing.** -/
theorem invariant_lastWord :
    Invariant (fun _ _ : Host σ => True) (fun ds s _ => LastWord ds s) where
  others hp _ := hp
  deals hs hp hd hfaithful := by
    cases hd with
    | opened x =>
      obtain rfl : _ = [] := hp
      exact lastWord_greeted _
    | acknowledged x => cases x <;> exact trivial
    | @refused _ e s x =>
      cases e with
      | session e => exact absurd rfl (hp e)
      | _ => exact trivial
    | session hd => exact lastWord_session hs hp hd hfaithful

end Connection

/-! ### A session that fails without a word -/

namespace Connection

variable [Store σ] {p q : Pipe} {h : Host σ}

/-- **A session that fails, with a status too long to be told**, ends without a word. -/
theorem advance_untold {secret : Crypto.SharedSecret} {m plain : Bytes} {d : Wire.RequestError}
    (hm : (Frame.message m).Fits) (hopens : Crypto.Envelope.reveal secret m = .ok plain)
    (hdecode : Wire.decodeRequest plain = .error d) (hlong : ¬(Frame.abort d.status).Fits)
    (hsignal : h.signal.cancelled = false) :
    (Stage.session .serve (.established secret) (.receive .request)).entered.advance .right
        (.pipes (p.holding (Frame.message m).onWire) q false) h =
      (.ended (.error (.session (.status d.status))),
        .pipes (p.holding ByteArray.empty) q false, h.recordStatus d.status) := by
  have hturn : Server.received .serve (.established secret) h .request
      (.ok (some (.message m))) = ⟨.terminated, h.recordStatus d.status,
        .inl (.deliver (.closing (.error d.status) (.error (.status d.status)) false))⟩ := by
    change Server.receivedRequest .serve (.established secret) h (.ok (some m)) = _
    rw [Server.receivedRequest]
    dsimp only
    rw [hopens]
    dsimp only
    rw [Server.opened, Dispatch.dispatch, hdecode]
    rfl
  have hattempt := attempt_long
    (d := .closing (.error d.status) (.error (.status d.status)) false) hlong
    (p.holding ByteArray.empty) q
  rw [Stage.entered, advance, resume_frame _ _ _ hm hsignal, hturn, Server.patience,
    runTurn_deliver (h := h.recordStatus d.status) _ _ hattempt hsignal]
  rfl

end Connection

namespace Wire

/-- A request for an operation that there is not. -/
theorem decodeRequest_unknown {tag : String} (hs : Cbor.Addressable tag)
    (htag : operationFields tag = none) :
    decodeRequest (Cbor.writeVariant tag (Cbor.writeRecord [])) =
      .error (.unknownOperation tag) := by
  have hrecord := Cbor.Item.readsBack_record 254
    (by decide : ([] : List (String × String)).length < 2 ^ 64) (by simp)
  have hsees := Cbor.Cursor.sees_zero (Cbor.writeVariant tag (Cbor.writeRecord []))
  rw [← List.append_nil (Bytes.octets _)] at hsees
  have hitem : Cbor.Item.read Cbor.maxDepth
      ⟨Cbor.writeVariant tag (Cbor.writeRecord []), 0⟩ = .ok (.map [(.text tag, .map [])], _) :=
    Cbor.Item.readsBack_variant hs hrecord _ _ hsees
  have hsize : (Cbor.writeVariant tag (Cbor.writeRecord [])).size ≠ 0 := by
    rw [Cbor.size_writeVariant]
    omega
  rw [decodeRequest, if_neg hsize, Cbor.Item.ofBytes, hitem]
  dsimp only
  rw [ofItem, ofEntry, htag]

end Wire

namespace Traffic

/-- The name of an operation that there is not. -/
def longName (n : ℕ) : String := String.ofList (List.replicate n 'z')

theorem size_longName (n : ℕ) : (Utf8.encode (longName n)).size = n :=
  Utf8.size_encode_replicate n

theorem operationFields_longName {n : ℕ} (hn : 4 < n) :
    Wire.operationFields (longName n) = none := by
  have hlength : (longName n).length = n := by
    rw [longName, String.length_ofList, List.length_replicate]
  have hne {name : String} (hname : name.length ≤ 4) : longName n ≠ name := by
    rintro rfl
    omega
  unfold Wire.operationFields
  split
  · exact absurd ‹longName n = _› (hne (by decide))
  · exact absurd ‹longName n = _› (hne (by decide))
  · exact absurd ‹longName n = _› (hne (by decide))
  · rfl

/-- The size of the complaint about an unknown operation. -/
theorem size_abort_unknown (name : String) :
    (Frame.abort (Wire.RequestError.unknownOperation name).status).encodeBody.size =
      35 + Cbor.textSize ("unknown request type: " ++ name) := by
  have hnames : Cbor.textSize "abort" = 6 ∧ Cbor.textSize "kind" = 5 ∧
      Cbor.textSize "message" = 8 ∧ Cbor.textSize "unimplemented" = 14 := by
    decide
  obtain ⟨habort, hkind, hmessage, hname⟩ := hnames
  have hwidth : Cbor.Head.width (0 + 1 + 1) = 1 := rfl
  change (Cbor.writeVariant "abort" (Cbor.writeRecord [("kind", Cbor.writeText "unimplemented"),
    ("message", Cbor.writeText ("unknown request type: " ++ name))])).size = _
  simp only [Cbor.size_writeVariant, Cbor.size_writeRecord, List.map_cons, List.map_nil,
    List.sum_cons, List.sum_nil, List.length_cons, List.length_nil, Cbor.size_writeText, habort,
    hkind, hmessage, hname, hwidth]
  omega

/-- The complaint about the name is longer than the request. -/
theorem not_fits_longName {n : ℕ} (hn : 4194243 ≤ n) :
    ¬(Frame.abort (Wire.RequestError.unknownOperation (longName n)).status).Fits := by
  have hwords : (Utf8.encode "unknown request type: ").size = 22 := by decide
  have hmax : Frame.maxLength = 4194304 := rfl
  have hwidth : 5 ≤ Cbor.Head.width (22 + n) := Cbor.Head.width_mono (m := 65536) (by omega)
  rw [Frame.Fits, size_abort_unknown, Cbor.textSize, Utf8.size_encode_append, hwords,
    size_longName]
  omega

/-- What a visitor sends who asks for an operation of a long name: an envelope that opens, and
holds no request. The complaint does not fit a frame. -/
theorem exists_long_request (secret : Crypto.SharedSecret) : ∃ envelope plain d,
    (Frame.message envelope).Fits ∧ Crypto.Envelope.reveal secret envelope = .ok plain ∧
      Wire.decodeRequest plain = .error d ∧ ¬(Frame.abort d.status).Fits := by
  have hplain : (Cbor.writeVariant (longName 4194250) (Cbor.writeRecord [])).size = 4194257 := by
    rw [Cbor.size_writeVariant, Cbor.size_writeRecord, Cbor.textSize, size_longName]
    rfl
  have haddressable : Cbor.Addressable (longName 4194250) := by
    rw [Cbor.Addressable, size_longName]
    decide
  have hdecode :=
    Wire.decodeRequest_unknown haddressable (operationFields_longName (by decide))
  generalize Cbor.writeVariant (longName 4194250) (Cbor.writeRecord []) = plain at hplain hdecode
  have hshort : ¬Crypto.Envelope.tooLong plain.size = true := by
    rw [hplain]
    decide
  obtain ⟨envelope, hseal, hopens, -⟩ :=
    Crypto.Envelope.sealFresh_of_not_tooLong secret hshort ⟨fun _ => 0, 0⟩
  refine ⟨envelope, plain, _, ?_, hopens, hdecode, not_fits_longName (by decide)⟩
  rw [Frame.Fits, Frame.size_message_of_sealed hseal, hplain]
  decide

/-- **A visitor who asks for an operation of a long name**: the session fails, with a status that
is too long to be told, and all that is written is the host's key. -/
theorem exists_untold : ∃ (envelope : Bytes) (e : SessionError),
    (Schedule.after step (oneByOne [.open .session, .message visitorKey.bytes, .message envelope])
      (start Exchange.window Duplex.emptyHost) (2 * 3)).exchange.connection =
        .ended (.error (.session e)) ∧
    ¬(Frame.abort e.toStatus).Fits ∧
    (Schedule.after step (oneByOne [.open .session, .message visitorKey.bytes, .message envelope])
      (start Exchange.window Duplex.emptyHost) (2 * 3)).written =
        (Frame.message hostKey.bytes).onWire := by
  have hagree : ∃ secret, (Crypto.KeyPair.generate Duplex.emptyHost.entropy).1.agree visitorKey =
      .ok secret :=
    ⟨_, Crypto.KeyPair.agree_eq (by decide +kernel)⟩
  obtain ⟨secret, hagree⟩ := hagree
  obtain ⟨envelope, plain, d, hfits, hopens, hdecode, hlong⟩ := exists_long_request secret
  obtain ⟨hkeys, -, htaken⟩ := after_keys rfl hagree [.message envelope]
  obtain ⟨hlast, -, htaken'⟩ := step_frame (p := { capacity := Exchange.window }) hkeys rfl
    (Frame.size_onWire_le_window hfits)
    (Connection.advance_untold hfits hopens hdecode hlong rfl)
  refine ⟨envelope, .status d.status, ?_⟩
  rw [after_oneByOne _ _ 2]
  simp only [List.getD_cons_succ, List.getD_cons_zero]
  rw [written_eq (congrArg Exchange.link hlast), htaken', htaken, hlast]
  exact ⟨rfl, hlong, ByteArray.empty_append⟩

/-! ### What the peer is told -/

variable [Store σ]

/-- **A failure is told unless it quotes the peer at length.** Whatever bytes arrive on a
connection, in whatever portions, and whatever others do to its host: a session that fails
has written messages and then the status of its failure, if that fits a frame. If it does
not, the stream ends after the messages as if all were well, and the failure is the complaint
about a request in the peer's own words, or the status with which the peer gave up. -/
theorem failure_told_unless_quoted (capacity : ℕ) (h : Host σ) (sched : ℕ → Move σ) (n : ℕ)
    (e : SessionError)
    (hend : (Schedule.after step sched (start capacity h) n).exchange.connection =
      .ended (.error (.session e))) :
    ∃ said : List Frame, (∀ f ∈ said, ∃ m, f = .message m) ∧
      if (Frame.abort e.toStatus).Fits then
        Frame.framesOf .eof (Schedule.after step sched (start capacity h) n).written =
          (said ++ [.abort e.toStatus], .ok ())
      else
        Frame.framesOf .eof (Schedule.after step sched (start capacity h) n).written =
          (said, .ok ()) ∧
        Server.Quotes (Schedule.after step sched (start capacity h) n).frames e := by
  have hkeeps (k : ℕ) : (sched k).Keeps fun _ _ => True := by
    cases sched k <;> simp [Move.Keeps]
  have hsound : Sound (fun ds s _ => Connection.LastWord ds s)
      (Schedule.after step sched (start capacity h) n) :=
    sound_after Connection.invariant_lastWord rfl hkeeps capacity n
  generalize Schedule.after step sched (start capacity h) n = w at hend hsound ⊢
  obtain ⟨-, ds, hlast, -, p, q, said, hlink, hin, hout⟩ := hsound
  rw [hend] at hlast hout
  obtain ⟨before, x, hunsaid, rfl, htold⟩ := hlast
  have hsaid : Server.said (before ++ [.finish (.error e.toStatus) (some x)]) =
      Server.said before ++ [.abort e.toStatus] :=
    Server.said_concat before rfl
  -- the last frame was said and not given up
  have hwritten : w.written = Frame.wire (Server.said before ++ [.abort e.toStatus]) := by
    rw [written_eq hlink, ← hsaid]
    obtain hall | ⟨⟨last, hgiven⟩, -⟩ := hout
    · exact hall
    · rcases List.mem_append.mp hgiven with hmem | hmem
      · cases hunsaid _ hmem
      · cases List.mem_singleton.mp hmem
  have hframes : Frame.framesOf .eof w.written =
      (Frame.accepted (Server.said before ++ [.abort e.toStatus]), .ok ()) := by
    have happend := Frame.framesOf_wire_append .eof (Server.said before ++ [.abort e.toStatus])
      ByteArray.empty
    rw [ByteArray.append_empty, Frame.framesOf_empty, List.append_nil] at happend
    rw [hwritten, happend]
    rfl
  refine ⟨Frame.accepted (Server.said before),
    fun f hf => hunsaid.messages f (List.mem_filter.mp hf).1, ?_⟩
  rw [hframes, Frame.accepted, List.filter_append]
  split_ifs with hfits
  · simp [Frame.accepted, hfits]
  · refine ⟨by simp [Frame.accepted, hfits], ?_⟩
    obtain hc | hquotes := htold
    · exact absurd hc hfits
    · exact hquotes.mono (hin.frames .eof)

/-- The visitor who asks for an operation of a long name is not told: the stream ends after the
host's key, and the failure quotes the visitor. -/
theorem failure_told_unless_quoted_long : ∃ (envelope : Bytes) (e : SessionError),
    (Schedule.after step (oneByOne [.open .session, .message visitorKey.bytes, .message envelope])
      (start Exchange.window Duplex.emptyHost) (2 * 3)).exchange.connection =
        .ended (.error (.session e)) ∧
    Server.Quotes (Schedule.after step
      (oneByOne [.open .session, .message visitorKey.bytes, .message envelope])
      (start Exchange.window Duplex.emptyHost) (2 * 3)).frames e := by
  obtain ⟨envelope, e, hend, hlong, -⟩ := exists_untold
  obtain ⟨said, -, htold⟩ := failure_told_unless_quoted Exchange.window Duplex.emptyHost
    (oneByOne [.open .session, .message visitorKey.bytes, .message envelope]) (2 * 3) e hend
  rw [if_neg hlong] at htold
  exact ⟨envelope, e, hend, htold.2⟩

/-- **A session can fail without telling why**: an operation of a long name is unknown, and the
last frame that is written is the host's key, not the status of the failure. -/
theorem failure_untold : ∃ (envelope : Bytes) (e : SessionError),
    (Schedule.after step (oneByOne [.open .session, .message visitorKey.bytes, .message envelope])
      (start Exchange.window Duplex.emptyHost) (2 * 3)).exchange.connection =
        .ended (.error (.session e)) ∧
    Frame.framesOf .eof (Schedule.after step
      (oneByOne [.open .session, .message visitorKey.bytes, .message envelope])
      (start Exchange.window Duplex.emptyHost) (2 * 3)).written =
        ([.message hostKey.bytes], .ok ()) := by
  obtain ⟨envelope, e, hend, -, hwritten⟩ := exists_untold
  refine ⟨envelope, e, hend, ?_⟩
  have hframes := Frame.framesOf_onWire .eof (Frame.fits_key hostKey) ByteArray.empty
  rw [ByteArray.append_empty, Frame.framesOf_empty] at hframes
  rw [hwritten, hframes]
  rfl

end Traffic

end Vault
