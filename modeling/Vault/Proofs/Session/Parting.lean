import Vault.Proofs.Link.Flow
import Vault.Proofs.Session.Addition

/-!
# What a session has come to when it is over

A server serves a list of requests, one after another, until something ends the session. It has
answered some of them by then, and `Vault.Parting` says what its peer has been told and what is
in the store: the envelopes of the replies and the last frame, and the store that carrying out
exactly these requests leaves (`Vault.Served`).

The last frame is the end of the stream unless a request could not be answered
(`Vault.Unanswered`). A request that was read properly and whose response the cipher takes fails
only if the store fails or if its reply is too long for a frame. In the latter case it has been
carried out, although its peer is told of a failure.

A peer that has closed its side gets the end of the stream in return, and only that frame is
given up for a shutdown: all requests are answered then, but the stream may end without it.
-/

namespace Vault

open Crypto.Envelope (reveal tooLong)
open Duplex (overflowing taking)

variable {σ : Type} [Store σ]

/-! ### Requests that fail -/

namespace Dispatch

/-- The status of a store that failed. -/
def storeFailed : Status := .internal "storage failure"

omit [Store σ] in
theorem status_of_answer {α : Type} {f : α → Host σ → Response × Host σ}
    {r : Except StoreError α × Host σ} {s : Status} {h : Host σ}
    (ha : answer f r = (.error s, h)) : s.kind.isClientError = true ∨ s = storeFailed := by
  rcases r with ⟨e | a, h'⟩
  · cases e with
    | notFound id =>
      obtain ⟨hs, -⟩ := Prod.ext_iff.mp ha
      obtain rfl := Except.error.inj hs
      exact Or.inl rfl
    | _ =>
      obtain ⟨hs, -⟩ := Prod.ext_iff.mp ha
      obtain rfl := Except.error.inj hs
      exact Or.inr rfl
  · exact nomatch congrArg Prod.fst ha

/-- A request is refused for a reason that is the caller's, or because the store failed. -/
theorem status_of_handle {r : Request} {h h' : Host σ} {s : Status}
    (hr : handle r h = (.error s, h')) : s.kind.isClientError = true ∨ s = storeFailed := by
  rw [handle] at hr
  rcases hvalid : r.validate with s' | ⟨⟩
  · rw [hvalid] at hr
    obtain ⟨hs, -⟩ := Prod.ext_iff.mp hr
    obtain rfl := Except.error.inj hs
    rw [Request.validate] at hvalid
    rcases hfield : r.firstShort? with _ | field
    · rw [hfield] at hvalid
      cases hvalid
    · rw [hfield] at hvalid
      obtain rfl := Except.error.inj hvalid
      exact Or.inl rfl
  · rw [hvalid] at hr
    dsimp only at hr
    cases r <;> exact status_of_answer (by simpa only [perform] using hr)

/-- **A request that was read properly ends a session only if the store fails.** -/
theorem status_of_dispatch {b : Bytes} {r : Request} {h h' : Host σ} {s : Status}
    (hread : Wire.decodeRequest b = .ok r) (hd : dispatch b h = (.error s, h')) :
    s = storeFailed := by
  simp only [dispatch, hread] at hd
  rcases hr : handle r h with ⟨s' | response, h''⟩
  · rw [hr] at hd
    dsimp only at hd
    split_ifs at hd with hclient
    · cases congrArg Prod.fst hd
    · obtain ⟨hs, -⟩ := Prod.ext_iff.mp hd
      obtain rfl := Except.error.inj hs
      rcases status_of_handle hr with hkind | hfailed
      · exact absurd hkind hclient
      · exact hfailed
  · rw [hr] at hd
    cases congrArg Prod.fst hd

end Dispatch

/-- **A message is a request** that a server with this secret can read. -/
def Readable (secret : Crypto.SharedSecret) (m : Bytes) : Prop :=
  ∃ plain r, reveal secret m = .ok plain ∧ Wire.decodeRequest plain = .ok r

/-! ### What was served -/

/-- **Requests that are served** one after another, whatever the clock and the shutdown signal
say at each of them: each is carried out on what the ones before have left, and its response is
sealed in an envelope that can be sent. -/
inductive Served (make : Make) (secret : Crypto.SharedSecret) (h : Host σ) :
    List Bytes → List Bytes → Host σ → Prop
  /-- None so far. -/
  | none : Served make secret h [] [] h
  /-- One more. -/
  | one {ms envelopes : List Bytes} {m envelope : Bytes} {h₁ h₂ : Host σ} {t : Timestamp}
    {s : Signal} (hserved : Served make secret h ms envelopes h₁)
    (hanswers : Server.Answers secret t (h₁.observing t s) m envelope h₂)
    (htakes : make.Takes (.message envelope)) :
    Served make secret h (ms ++ [m]) (envelopes ++ [envelope]) h₂

/-- **A request that is not answered**, why, and the store that it leaves. -/
inductive Unanswered (make : Make) (secret : Crypto.SharedSecret) (h : Host σ) (m : Bytes) :
    SessionError → σ → Prop
  /-- The store fails. -/
  | failed {plain : Bytes} {h' : Host σ} (hopens : reveal secret m = .ok plain)
    (hdispatch : Dispatch.dispatch plain h = (.error Dispatch.storeFailed, h')) :
    Unanswered make secret h m (.status Dispatch.storeFailed) h'.store
  /-- The response is longer than the cipher can take. -/
  | overlong {plain : Bytes} {response : Response} {h' : Host σ}
    (hopens : reveal secret m = .ok plain)
    (hdispatch : Dispatch.dispatch plain h = (.ok response, h'))
    (hlong : tooLong (Wire.encodeResponse response).size = true) :
    Unanswered make secret h m (.crypto (.encryption Crypto.Envelope.cipherFailure)) h'.store
  /-- The reply is too long for a frame. -/
  | overflow {envelope : Bytes} {h' : Host σ}
    (hanswers : Server.Answers secret h.now h m envelope h')
    (hlong : ¬make.Takes (.message envelope)) :
    Unanswered make secret h m (overflowing envelope) h'.store

/-- **What a session can come to** over a list of requests: the frames that the peer is told,
the outcome of the call that serves it, and the store. -/
inductive Parting (make : Make) (secret : Crypto.SharedSecret) (h : Host σ) (ms : List Bytes)
    (closes : Bool) : List Frame → Server.Outcome → σ → Prop
  /-- Some requests are answered, and then the stream ends. -/
  | ended {served more envelopes : List Bytes} {h' : Host σ} (hms : ms = served ++ more)
    (hserved : Served make secret h served envelopes h') :
    Parting make secret h ms closes (envelopes.map .message ++ [.end]) (.ok .done) h'.store
  /-- All requests are answered and the peer has closed its side, but the last frame is given
  up. -/
  | cut {envelopes : List Bytes} {h' : Host σ} (hcloses : closes = true)
    (hserved : Served make secret h ms envelopes h') :
    Parting make secret h ms closes (envelopes.map .message) (.ok .done) h'.store
  /-- A request is not answered, and the peer is told why. -/
  | broken {served more envelopes : List Bytes} {m : Bytes} {h' : Host σ} {t : Timestamp}
    {s : Signal} {e : SessionError} {store : σ} (hms : ms = served ++ m :: more)
    (hserved : Served make secret h served envelopes h')
    (hunanswered : Unanswered make secret (h'.observing t s) m e store) :
    Parting make secret h ms closes (envelopes.map .message ++ [.abort e.toStatus]) (.error e)
      store

/-- Every one of these requests can be answered once those before it are. -/
def Answerable (make : Make) (secret : Crypto.SharedSecret) (h : Host σ) (ms : List Bytes) :
    Prop :=
  ∀ (served : List Bytes) (m : Bytes) (more envelopes : List Bytes) (h' : Host σ)
    (t : Timestamp) (s : Signal) (e : SessionError) (store : σ),
    ms = served ++ m :: more → Served make secret h served envelopes h' →
    ¬Unanswered make secret (h'.observing t s) m e store

/-- Where every request can be answered, the stream ends after some replies. -/
theorem Parting.of_answerable {make : Make} {secret : Crypto.SharedSecret} {h : Host σ}
    {ms : List Bytes} {out : List Frame} {result : Server.Outcome} {store : σ}
    (hparting : Parting make secret h ms false out result store)
    (hanswerable : Answerable make secret h ms) :
    result = .ok .done ∧ ∃ served more envelopes h', ms = served ++ more ∧
      Served make secret h served envelopes h' ∧ store = h'.store ∧
      out = envelopes.map .message ++ [.end] := by
  cases hparting with
  | ended hms hserved => exact ⟨rfl, _, _, _, _, hms, hserved, rfl, rfl⟩
  | cut hcloses hserved => nomatch hcloses
  | broken hms hserved hunanswered =>
    exact absurd hunanswered (hanswerable _ _ _ _ _ _ _ _ _ hms hserved)

/-- A request whose response can be sent is answered. -/
theorem not_unanswered {make : Make} {secret : Crypto.SharedSecret} {h h' : Host σ}
    {m plain : Bytes} {response : Response} {e : SessionError} {store : σ}
    (hopens : reveal secret m = .ok plain)
    (hdispatch : Dispatch.dispatch plain h = (.ok response, h'))
    (hcarries : Frame.Carries (Wire.encodeResponse response).size) :
    ¬Unanswered make secret h m e store := by
  intro hunanswered
  cases hunanswered with
  | failed hopens' hdispatch' =>
    obtain rfl := Except.ok.inj (hopens.symm.trans hopens')
    cases congrArg Prod.fst (hdispatch.symm.trans hdispatch')
  | overlong hopens' hdispatch' hlong =>
    obtain rfl := Except.ok.inj (hopens.symm.trans hopens')
    obtain rfl := Except.ok.inj (congrArg Prod.fst (hdispatch.symm.trans hdispatch'))
    have hblocks : Crypto.Envelope.blockLimit ≤ (Wire.encodeResponse response).size / 64 :=
      of_decide_eq_true hlong
    have hlimit : Crypto.Envelope.blockLimit = 4294967295 := rfl
    have hmax : Frame.maxLength = 4194304 := rfl
    rw [Frame.Carries, Frame.sealedSize] at hcarries
    omega
  | overflow hanswers hlong =>
    obtain ⟨hopens', hdispatch', hseals, -⟩ := hanswers
    obtain rfl := Except.ok.inj (hopens.symm.trans hopens')
    obtain rfl := Except.ok.inj (congrArg Prod.fst (hdispatch.symm.trans hdispatch'))
    refine hlong (Make.takes_of_fits ?_)
    rw [Frame.Fits, Frame.size_message_of_sealed hseals]
    exact hcarries

section Served

variable {make : Make} {secret : Crypto.SharedSecret} {h h' : Host σ} {ms envelopes : List Bytes}

/-- Each request that is served has one reply. -/
theorem Served.length_eq (hserved : Served make secret h ms envelopes h') :
    ms.length = envelopes.length := by
  induction hserved with
  | none => rfl
  | one hserved hanswers htakes ih => rw [List.length_append, List.length_append, ih]; rfl

/-- Nothing changes before the first request. -/
theorem Served.of_nil (hserved : Served make secret h [] envelopes h') : h' = h := by
  generalize hms : ([] : List Bytes) = ms at hserved
  cases hserved with
  | none => rfl
  | one => exact absurd (congrArg List.length hms) (by simp)

end Served

/-! ### What a server does with a request -/

section Receives

variable {secret : Crypto.SharedSecret} {h h' : Host σ} {m : Bytes}

/-- **A server that has received a request** carries it out and replies, or ends the session
because it cannot. -/
theorem received_readable (make : Make) (h : Host σ) (hread : Readable secret m) :
    (∃ envelope h', Server.Answers secret h.now h m envelope h' ∧
      Server.received .serve (.established secret) h .request (.ok (some (.message m))) =
        ⟨.established secret, h', .inl (.deliver (.reply envelope))⟩) ∨
    ∃ e h', Unanswered make secret h m e h'.store ∧ e.toStatus.Brief ∧
      Server.received .serve (.established secret) h .request (.ok (some (.message m))) =
        ⟨.terminated, h',
          .inl (.deliver (.closing (.error e.toStatus) (.error e) false))⟩ := by
  obtain ⟨plain, r, hopens, hdecode⟩ := hread
  rw [Duplex.received_request h hopens]
  rcases hdispatch : Dispatch.dispatch plain h with ⟨s | response, h'⟩
  · obtain rfl := Dispatch.status_of_dispatch hdecode hdispatch
    refine Or.inr ⟨_, h', .failed hopens hdispatch, ?_, Duplex.taking_of_error secret hdispatch⟩
    rw [Status.Brief]
    decide
  -- the request has been carried out in either case
  by_cases hlong : tooLong (Wire.encodeResponse response).size = true
  · have hseal := Crypto.Envelope.sealFresh_of_tooLong secret hlong h'.entropy
    have hphase : (Server.Phase.established secret).name ≠ .terminated := by simp
    have hunanswered : Unanswered make secret h m
        (.crypto (.encryption Crypto.Envelope.cipherFailure)) h'.store :=
      .overlong hopens hdispatch hlong
    refine Or.inr ⟨_, Server.blamed { h' with
      entropy := (h'.entropy.draw Crypto.Envelope.nonceBytes).2 }
      (.crypto (.encryption Crypto.Envelope.cipherFailure)), hunanswered, ?_, ?_⟩
    · rw [Status.Brief]
      decide
    · simp only [taking, Server.opened, hdispatch, Server.reply, hseal]
      exact Server.terminate_eq hphase _ _ false
  · obtain ⟨envelope, hseal, hreveals, -⟩ :=
      Crypto.Envelope.sealFresh_of_not_tooLong secret hlong h'.entropy
    refine Or.inl ⟨envelope, _, .intro hopens hdispatch hseal hreveals, ?_⟩
    simp only [taking, Server.opened, hdispatch, Server.reply, hseal]

theorem sealedSize_lt {n : ℕ} (hn : n < 2 ^ 38) : Frame.sealedSize n < 10 ^ 20 := by
  have hwidth := Cbor.Head.width_le (n + Crypto.Envelope.minBytes)
  have hmin : Crypto.Envelope.minBytes = 29 := rfl
  rw [Frame.sealedSize]
  omega

/-- A reply that is too long is not long enough to make the complaint about it too long. -/
theorem brief_overflowing {t : Timestamp} {envelope : Bytes}
    (ha : Server.Answers secret t h m envelope h') : (overflowing envelope).toStatus.Brief := by
  obtain ⟨-, -, hseals, -⟩ := ha
  refine LinkError.brief_outboundTooLarge ?_
  rw [Frame.size_message_of_sealed hseals]
  exact sealedSize_lt (Crypto.Envelope.size_lt_of_sealWith (congrArg Prod.fst hseals))

end Receives

end Vault
