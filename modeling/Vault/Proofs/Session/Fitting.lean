import Vault.Proofs.Crypto.Authenticity
import Vault.Proofs.Service.Answers
import Vault.Proofs.Session.Listing

/-!
# A listing never breaks its frame

A frame has a limit, and a store does not know it: the documents of an owner may be any number
and of any size. A listing is therefore cut, and this module says that it is cut by as little as
the limit on listings allows (`Vault.Dispatch.prefix_fitToFrame`), and by enough: in its envelope
and in its frame, a cut listing is within the limit on frames.

So the answer to a request for a listing can always be sent. A reply that fits may fail because
the other end is gone, and then the link says so (`Vault.Link.send_of_fits`); it does not fail for
its size, on whatever link and however often the call has to wait
(`Vault.Server.sentOrGone_of_responding`).
-/

namespace Vault

/-! ### Cutting as little as possible -/

namespace Dispatch

/-- **No front of a listing that is within the limit is lost.** -/
theorem prefix_take_fitting {front ds : List Document} (hfront : front <+: ds) {total : ℕ}
    (hsize : total + bulk front ≤ maxListBytes) : front <+: ds.take (fitting total ds) := by
  induction ds generalizing front total with
  | nil =>
    rw [List.prefix_nil.mp hfront]
    exact List.nil_prefix
  | cons d ds ih =>
    cases front with
    | nil => exact List.nil_prefix
    | cons d' front =>
      obtain ⟨rfl, hrest⟩ := List.cons_prefix_cons.mp hfront
      rw [bulk_cons, ← Nat.add_assoc] at hsize
      rw [fitting, if_neg (by omega), List.take_succ_cons]
      exact List.cons_prefix_cons.mpr ⟨rfl, ih hrest hsize⟩

theorem prefix_fitToFrame {front ds : List Document} (hfront : front <+: ds)
    (hsize : bulk front ≤ maxListBytes) : front <+: fitToFrame ds :=
  prefix_take_fitting hfront (by rwa [Nat.zero_add])

theorem fitToFrame_eq_self {ds : List Document} (hsize : bulk ds ≤ maxListBytes) :
    fitToFrame ds = ds :=
  (List.take_prefix _ ds).eq_of_length_le (prefix_fitToFrame List.prefix_rfl hsize).length_le

/-! ### The answer to a request for a listing -/

variable {σ : Type} [Store σ]

/-- What a caller who asks for a listing is answered can be sent, whatever the store says. -/
theorem carries_of_list {b : Bytes} {owner : String} {h h' : Host σ} {response : Response}
    (hlist : Wire.decodeRequest b = .ok (.list owner))
    (hdispatch : dispatch b h = (.ok response, h')) :
    Frame.Carries (Wire.encodeResponse response).size := by
  by_cases hfailed : ∃ s, response = .error s
  · obtain ⟨s, rfl⟩ := hfailed
    exact (brief_of_answer (congrArg Prod.fst hdispatch)).carries
  -- an answer that tells of no failure is the listing
  by_cases hshort : ∃ field, (Request.list owner).FirstShort field
  · obtain ⟨field, hfield⟩ := hshort
    rw [dispatch_of_firstShort hlist hfield] at hdispatch
    cases hdispatch
    exact absurd ⟨_, rfl⟩ hfailed
  have hresult := (dispatch_of_not_firstShort hlist hshort h).1
  rw [hdispatch] at hresult
  change Except.ok response =
    told (fun ds => .documents (fitToFrame ds)) (Store.list owner h.store).1 at hresult
  generalize (Store.list owner h.store).1 = x at hresult
  rcases x with e | ds
  · cases e with
    | notFound id =>
      cases hresult
      exact absurd ⟨_, rfl⟩ hfailed
    | _ => cases hresult
  · cases hresult
    exact carries_listing ds

end Dispatch

/-! ### Sealing what a frame can carry -/

/-- What a frame can carry can be sealed, and its frame is within the limit. -/
theorem Frame.fits_of_carries {plain : Bytes} (hplain : Carries plain.size)
    (secret : Crypto.SharedSecret) {nonce : Bytes}
    (hnonce : nonce.size = Crypto.Envelope.nonceBytes) :
    ∃ envelope, Crypto.Envelope.sealWith secret nonce plain = .ok envelope ∧
      (message envelope).Fits := by
  have hshort : ¬Crypto.Envelope.tooLong plain.size = true := by
    have hmax : maxLength = 4194304 := rfl
    rw [Crypto.Envelope.not_tooLong_iff]
    rw [Carries, sealedSize] at hplain
    omega
  have hseal : ∃ envelope, Crypto.Envelope.sealWith secret nonce plain = .ok envelope := by
    rw [Crypto.Envelope.sealWith, if_neg hshort]
    exact ⟨_, rfl⟩
  obtain ⟨envelope, henvelope⟩ := hseal
  refine ⟨envelope, henvelope, ?_⟩
  rw [Fits, size_message, Crypto.Envelope.size_of_sealWith hnonce henvelope]
  exact hplain

/-! ### Sending what fits -/

/-- The link is gone. -/
def LinkError.Gone (e : LinkError) : Prop := e = .closed ∨ ∃ text, e = .io text

theorem Pipe.write_error {p p' : Pipe} {b : Bytes} {e : LinkError}
    (h : p.write b = (p', .ready (.error e))) : e.Gone := by
  rw [write] at h
  dsimp only at h
  split_ifs at h
  all_goals cases h
  exact Or.inr ⟨_, rfl⟩

theorem Lane.send_of_fits {l l' : Lane} {f : Frame} (hf : f.Fits) {rest : Option Bytes}
    {e : LinkError} (h : l.send f rest = (l', .ready (.error e))) : e.Gone := by
  cases l with
  | queue q =>
    rw [send, Queue.offer] at h
    split_ifs at h
    all_goals cases h
    exact Or.inl rfl
  | pipe p =>
    -- once the frame is bytes, only the pipe can fail
    obtain ⟨b, hb⟩ : ∃ b, f.Leaves rest b := by
      cases rest with
      | none => exact ⟨f.onWire, Or.inr ⟨rfl, hf, rfl⟩⟩
      | some b => exact ⟨b, Or.inl rfl⟩
    rcases hwrite : p.write b with ⟨p', r | b'⟩
    · rw [Link.send_pipe hb hwrite] at h
      cases h
      exact Pipe.write_error hwrite
    · rw [Link.send_pipe hb hwrite] at h
      cases h

/-- **A frame within the limit fails to be sent only if the link is gone.** -/
theorem Link.send_of_fits {l l' : Link} {s : Side} {f : Frame} (hf : f.Fits)
    {rest : Option Bytes} {e : LinkError} (h : l.send s f rest = (l', .ready (.error e))) :
    e.Gone := by
  rw [send] at h
  split_ifs at h
  · cases h
    exact Or.inl rfl
  · rcases hlane : (l.outOf s).send f rest with ⟨lane, r⟩
    rw [hlane] at h
    cases h
    exact Lane.send_of_fits hf hlane

/-! ### Responding -/

namespace Server

variable {σ : Type}

/-- The reply is sent, or the link is gone. -/
def SentOrGone (result : Outcome) : Prop :=
  result = .ok .done ∨ ∃ e : LinkError, e.Gone ∧ result = .error (.link e)

/-- What a call waits for can only end well, or with the link gone. -/
def BoundToSend : Waiting ⊕ Outcome → Prop
  | .inl (.deliver (.reply envelope)) => (Frame.message envelope).Fits
  | .inl (.deliver (.closing _ result _)) => SentOrGone result
  | .inl _ => False
  | .inr result => SentOrGone result

theorem boundToSend_close (p : Phase) (h : Host σ) (last : Except Status Unit) {result : Outcome}
    (hresult : SentOrGone result) (watched : Bool) :
    BoundToSend (close p h last result watched).next := by
  rw [close]
  cases p.name <;> exact hresult

theorem boundToSend_terminate (p : Phase) (h : Host σ) {e : LinkError} (he : e.Gone)
    (watched : Bool) : BoundToSend (terminate p h (.link e) watched).next :=
  boundToSend_close p _ _ (Or.inr ⟨e, he, rfl⟩) watched

theorem boundToSend_reply (secret : Crypto.SharedSecret) (h : Host σ) {plain : Bytes}
    (hplain : Frame.Carries plain.size) :
    BoundToSend (reply (.established secret) h plain).next := by
  obtain ⟨envelope, hseal, hfits⟩ :=
    Frame.fits_of_carries hplain secret (h.entropy.size_draw Crypto.Envelope.nonceBytes)
  have hfresh : Crypto.Envelope.sealFresh secret plain h.entropy =
      (.ok envelope, (h.entropy.draw Crypto.Envelope.nonceBytes).2) := Prod.ext hseal rfl
  rw [reply_established, hfresh]
  exact hfits

variable [Store σ]

/-- **One try** keeps a reply on its way. -/
theorem boundToSend_attempt {r : Running} {plain : Bytes} (hcall : r.call = .respond plain)
    (hr : BoundToSend (.inl r.waiting)) (link : Link) (side : Side) (h : Host σ) :
    match (attempt r link side h).2 with
    | .ready t => BoundToSend t.next
    | .waiting r' => r'.call = .respond plain ∧ BoundToSend (.inl r'.waiting) := by
  obtain ⟨call, phase, waiting, reading, rest⟩ := r
  obtain rfl : call = .respond plain := hcall
  rw [attempt]
  split_ifs
  · exact boundToSend_close phase h _ (Or.inl rfl) _
  cases waiting with
  | receive what => exact hr.elim
  | deliver what =>
    dsimp only
    rcases hattempt : what.attempt link side rest with ⟨link', x | rest'⟩
    · cases what with
      | key k secret => exact hr.elim
      | reply envelope =>
        rcases x with e | u
        · exact boundToSend_terminate phase h (Link.send_of_fits hr hattempt) _
        · exact Or.inl rfl
      | closing last result watched => exact hr
    · exact ⟨rfl, hr⟩

/-- Where a call that responds has stopped. -/
def StopBoundToSend (plain : Bytes) : Stop → Prop
  | .waits r => r.call = .respond plain ∧ BoundToSend (.inl r.waiting)
  | .ends _ result => SentOrGone result

/-- **So does a run**, by induction on how many waits it may get past. -/
theorem stopBoundToSend_runTurn (plain : Bytes) (side : Side) (fuel : ℕ) {t : Turn σ}
    (ht : BoundToSend t.next) (link : Link) :
    StopBoundToSend plain (runTurn (.respond plain) side fuel t link).1 := by
  induction fuel generalizing t link with
  | zero =>
    obtain ⟨phase, h, waiting | result⟩ := t
    · exact ⟨rfl, ht⟩
    · exact ht
  | succ fuel ih =>
    obtain ⟨phase, h, waiting | result⟩ := t
    · have hattempt := boundToSend_attempt (r := { call := .respond plain, phase, waiting })
        rfl ht link side h
      rw [runTurn]
      dsimp only
      generalize attempt { call := .respond plain, phase, waiting } link side h = x
        at hattempt ⊢
      obtain ⟨link', t' | r'⟩ := x
      · exact ih hattempt link'
      · exact hattempt
    · exact ht

/-- **Responding**: the call is made on a link in an established session, and taken up again when
it waits, each time on the link and the host as others have left them. -/
inductive Responding (σ : Type) [Store σ] (side : Side) (secret : Crypto.SharedSecret)
    (plain : Bytes) : Stop → Prop
  /-- The call is made. -/
  | made (link : Link) (h : Host σ) :
    Responding σ side secret plain (run (.respond plain) side (.established secret) link h).1
  /-- The call is taken up again. -/
  | resumed {r : Running} (link : Link) (h : Host σ)
    (hr : Responding σ side secret plain (.waits r)) :
    Responding σ side secret plain (resume r side link h).1

theorem stopBoundToSend_of_responding {side : Side} {secret : Crypto.SharedSecret} {plain : Bytes}
    (hplain : Frame.Carries plain.size) {stop : Stop}
    (hstop : Responding σ side secret plain stop) : StopBoundToSend plain stop := by
  generalize hs : stop = s at hstop
  induction hstop generalizing stop with
  | made link h =>
    exact stopBoundToSend_runTurn plain side _ (boundToSend_reply secret h hplain) link
  | @resumed r link h _ ih =>
    obtain ⟨hcall, hwaiting⟩ := ih rfl
    have hattempt := boundToSend_attempt hcall hwaiting link side h
    rw [resume]
    generalize attempt r link side h = x at hattempt ⊢
    obtain ⟨link', t' | r'⟩ := x
    · dsimp only
      rw [hcall]
      exact stopBoundToSend_runTurn plain side _ hattempt link'
    · exact hattempt

/-- **A reply that a frame can carry is sent, or the link is gone.** -/
theorem sentOrGone_of_responding {side : Side} {secret : Crypto.SharedSecret} {plain : Bytes}
    (hplain : Frame.Carries plain.size) {p : Phase} {result : Outcome}
    (hend : Responding σ side secret plain (.ends p result)) : SentOrGone result :=
  stopBoundToSend_of_responding hplain hend

/-! ### Listings -/

open Dispatch in
/-- **A listing fits its frame and loses no more than it must.** It is cut to a front within the
limit on listings, of which every other such front is a front; so it is not cut if it is within
the limit. Cut, it can be sealed under every secret and nonce, and its frame is within the limit on
frames. Whatever the store says to a request for a listing, what is answered is sent or the link
is gone: it is never too long for its frame. -/
theorem listing_fits_and_loses_least (ds : List Document) :
    fitToFrame ds <+: ds ∧ bulk (fitToFrame ds) ≤ maxListBytes ∧
    (∀ front, front <+: ds → bulk front ≤ maxListBytes → front <+: fitToFrame ds) ∧
    (bulk ds ≤ maxListBytes → fitToFrame ds = ds) ∧
    (∀ (secret : Crypto.SharedSecret) (nonce : Bytes), nonce.size = Crypto.Envelope.nonceBytes →
      ∃ envelope, Crypto.Envelope.sealWith secret nonce
          (Wire.encodeResponse (.documents (fitToFrame ds))) = .ok envelope ∧
        (Frame.message envelope).encodeBody.size ≤ Frame.maxLength) ∧
    ∀ (b : Bytes) (owner : String) (h h' : Host σ) (response : Response),
      Wire.decodeRequest b = .ok (.list owner) → dispatch b h = (.ok response, h') →
        (5 ≤ owner.length → (Store.list owner h.store).1 = .ok ds →
          response = .documents (fitToFrame ds)) ∧
        (∀ secret, opened .serve (.established secret) h b =
          start (.respond (Wire.encodeResponse response)) (.established secret) h') ∧
        ∀ side secret p result,
          Responding σ side secret (Wire.encodeResponse response) (.ends p result) →
            SentOrGone result ∧
              ∀ size max, result ≠ .error (.link (.outboundTooLarge size max)) := by
  refine ⟨List.take_prefix _ _, bulk_fitToFrame ds, fun _ => prefix_fitToFrame,
    fitToFrame_eq_self, fun secret nonce => Frame.fits_of_carries (carries_listing ds) secret,
    fun b owner h h' response hlist hdispatch => ⟨fun howner hds => ?_, fun secret => ?_,
      fun side secret p result hend => ?_⟩⟩
  · have hlong : ¬∃ field, (Request.list owner).FirstShort field := fun ⟨field, hshort, _⟩ =>
      absurd howner (Nat.not_le.mpr hshort)
    have hresult := (dispatch_of_not_firstShort hlist hlong h).1
    rw [hdispatch] at hresult
    change Except.ok response =
      told (fun ds => .documents (fitToFrame ds)) (Store.list owner h.store).1 at hresult
    rw [hds] at hresult
    exact Except.ok.inj hresult
  · rw [opened, hdispatch]
    rfl
  · have hsent := sentOrGone_of_responding (carries_of_list hlist hdispatch) hend
    refine ⟨hsent, ?_⟩
    rintro size max rfl
    obtain hdone | ⟨e, rfl | ⟨text, rfl⟩, he⟩ := hsent
    · cases hdone
    · cases he
    · cases he

/-- A host whose store lists two documents, the second of this length. -/
def longHost (n : ℕ) : Host Scripted where
  store := { docs := [longDocument 5, longDocument n] }
  now := .epoch
  entropy := ⟨fun _ => 0, 0⟩

/-- A link whose right end has said its last frame. -/
def goneLink : Link := { Link.framed 8 with rightDone := true }

/-- A giant document is cut off, and the short one before it is not; what is answered fails on a
link that is gone, and not for its size. -/
theorem listing_fits_and_loses_least_giant :
    Dispatch.fitToFrame [longDocument 5, longDocument Dispatch.maxListBytes] = [longDocument 5] ∧
      ∃ secret h', Dispatch.dispatch (Wire.encodeRequest (.list "alice"))
          (longHost Dispatch.maxListBytes) = (.ok (.documents [longDocument 5]), h') ∧
        Responding Scripted .right secret (Wire.encodeResponse (.documents [longDocument 5]))
          (.ends .terminated (.error (.link .closed))) ∧
        SentOrGone (.error (.link .closed)) := by
  obtain ⟨hfront, hbulk, hleast, -, -, hanswer⟩ := listing_fits_and_loses_least (σ := Scripted)
    [longDocument 5, longDocument Dispatch.maxListBytes]
  have hfit : Dispatch.fitToFrame [longDocument 5, longDocument Dispatch.maxListBytes] =
      [longDocument 5] := by
    obtain ⟨rest, hrest⟩ := hleast [longDocument 5] ⟨[longDocument Dispatch.maxListBytes], rfl⟩
      (by decide +kernel)
    rw [← hrest] at hfront hbulk ⊢
    obtain ⟨-, hrest⟩ := List.cons_prefix_cons.mp hfront
    cases rest with
    | nil => rfl
    | cons d rest =>
      obtain ⟨rfl, -⟩ := List.cons_prefix_cons.mp hrest
      have hlong := lt_size_longDocument Dispatch.maxListBytes
      rw [List.singleton_append, Dispatch.bulk_cons, Dispatch.bulk_cons] at hbulk
      omega
  have hlistable : Listable "alice" (longHost Dispatch.maxListBytes)
      [longDocument 5, longDocument Dispatch.maxListBytes] :=
    ⟨show Frame.sealedSize _ ≤ _ by decide +kernel, rfl, rfl⟩
  obtain ⟨h', hdispatch, -⟩ := hlistable.dispatch
  have hgone : Responding Scripted .right Duplex.someSession.secret
      (Wire.encodeResponse (.documents [longDocument 5]))
      (.ends .terminated (.error (.link .closed))) :=
    .made goneLink (longHost 5)
  rw [hfit] at hdispatch
  refine ⟨hfit, _, h', hdispatch, hgone, ?_⟩
  exact ((hanswer _ "alice" _ h' _ (Wire.decodeRequest_encodeRequest (by decide +kernel))
    hdispatch).2.2 _ _ _ _ hgone).1

end Server

end Vault
