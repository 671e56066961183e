import Vault.Proofs.Session.Passage.Call
import Vault.Proofs.Wire.RoundTrip
import Vault.Store.Memory
import Vault.Store.Table

/-!
# Adding a document over a stream of bytes

The store is written before the response is put into a frame, and the response is longer
than the request: the id in it is the name with 32 digits behind, there is a timestamp, and
the names of the fields are longer. All in all it is longer by 47 to 57 bytes
(`Vault.Draft.size_response`), while the limit on a frame is the same both ways. So there are
requests that arrive and whose responses cannot be sent
(`Vault.Duplex.addition_stored_and_failed`): the document is stored, and the caller is told
that adding it failed.

This is the only way in which a call that fails can leave something behind
(`Vault.Duplex.Adds`). A request that has 57 bytes to spare in its frame cannot meet it,
and one with less than 47 to spare always does.
-/

namespace Vault

variable {σ : Type} [Store σ]

/-! ### Stores -/

/-- A store in which an insertion returns the document of the draft, or fails and changes
nothing. -/
class OrderlyStore (σ : Type) [Store σ] : Prop where
  /-- What an insertion can do. -/
  insert_cases (d : Draft) (t : Timestamp) (s : σ) (e : Entropy) :
    (∃ s' e', Store.insert d t s e = (.ok (d.document t e).1, s', e')) ∨
      ∃ err e', Store.insert d t s e = (.error err, s, e')

instance : OrderlyStore Memory where
  insert_cases d t m e := by
    have hinsert : Store.insert d t m e = ((m.commit (d.document t e).1).1,
        (m.commit (d.document t e).1).2, (d.document t e).2) := rfl
    rw [hinsert, Memory.commit]
    rcases m.find? (d.document t e).1.id with _ | entry
    · exact Or.inl ⟨_, _, rfl⟩
    · exact Or.inr ⟨_, _, rfl⟩

instance : OrderlyStore Database where
  insert_cases d t db e := by
    have hinsert : Store.insert d t db e = ((db.insert (d.document t e).1).1,
        (db.insert (d.document t e).1).2, (d.document t e).2) := rfl
    rw [hinsert]
    obtain ⟨versions, _ | table⟩ := db
    · exact Or.inr ⟨_, _, rfl⟩
    · simp only [Database.insert, Database.onDocuments, Database.addRow]
      split_ifs
      · exact Or.inr ⟨_, _, rfl⟩
      · exact Or.inl ⟨_, _, rfl⟩

/-! ### The response is longer than the request -/

/-- The size of the response that holds a document. -/
def Document.responseSize (doc : Document) : ℕ := (Wire.encodeResponse (.document doc)).size

namespace Draft

/-- The request to add the document of a draft. -/
def request (d : Draft) : Request := .add d.owner d.content d.name

/-- The size of the request. -/
def requestSize (d : Draft) : ℕ := (Wire.encodeRequest d.request).size

theorem size_id (d : Draft) (t : Timestamp) (e : Entropy) :
    (Utf8.encode (d.document t e).1.id).size = (Utf8.encode d.name).size + 32 := by
  have hsize := Document.size_idOf d.name (e.draw Document.idSuffixBytes).1
  rwa [Entropy.size_draw] at hsize

/-- How much longer the response is than the request: 46 bytes, what the head of the id has
more than that of the name, and the timestamp. -/
theorem size_response (d : Draft) (t : Timestamp) (e : Entropy) :
    (d.document t e).1.responseSize + Cbor.Head.width (Utf8.encode d.name).size =
      d.requestSize + 46 + Cbor.Head.width ((Utf8.encode d.name).size + 32) +
        (Cbor.writeInt t.micros).size := by
  have hrest : (d.document t e).1.owner = d.owner ∧ (d.document t e).1.content = d.content ∧
      (d.document t e).1.createdAt = t := ⟨rfl, rfl, rfl⟩
  obtain ⟨howner, hcontent, htime⟩ := hrest
  have hid : Cbor.textSize (d.document t e).1.id =
      Cbor.Head.width ((Utf8.encode d.name).size + 32) + ((Utf8.encode d.name).size + 32) := by
    rw [Cbor.textSize, size_id]
  have hname : Cbor.textSize d.name =
      Cbor.Head.width (Utf8.encode d.name).size + (Utf8.encode d.name).size := rfl
  rw [Document.responseSize, Wire.size_encodeResponse_document, Wire.size_writeDocument,
    requestSize, request, Wire.size_encodeRequest_add, howner, hcontent, htime, hid, hname]
  omega

/-- **The response is longer than the request** by at least 47 bytes. -/
theorem le_size_response (d : Draft) (t : Timestamp) (e : Entropy) :
    d.requestSize + 47 ≤ (d.document t e).1.responseSize := by
  have hsize := d.size_response t e
  have hwidth := Cbor.Head.width_mono (Nat.le_add_right (Utf8.encode d.name).size 32)
  have hint := Cbor.size_writeInt_pos t.micros
  omega

/-- It is longer by at most 57 bytes, if the request is not too long for a frame. -/
theorem size_response_le {d : Draft} (hd : d.requestSize ≤ Frame.maxLength) (t : Timestamp)
    (e : Entropy) : (d.document t e).1.responseSize ≤ d.requestSize + 57 := by
  have hsize := d.size_response t e
  have hint := Cbor.size_writeInt_le t.micros
  have hname : (Utf8.encode d.name).size ≤ Frame.maxLength := by
    have htext : Cbor.textSize d.name =
      Cbor.Head.width (Utf8.encode d.name).size + (Utf8.encode d.name).size := rfl
    rw [requestSize, request, Wire.size_encodeRequest_add, htext] at hd
    omega
  have hwidth : Cbor.Head.width ((Utf8.encode d.name).size + 32) ≤
      Cbor.Head.width (Utf8.encode d.name).size + 2 := by
    have hmax : Frame.maxLength = 4194304 := rfl
    unfold Cbor.Head.width
    split_ifs <;> omega
  omega

theorem requestSize_le {d : Draft} (hd : Frame.Carries d.requestSize) :
    d.requestSize ≤ Frame.maxLength := by
  rw [Frame.Carries, Frame.sealedSize] at hd
  omega

/-- A request with room to spare has a response that can be sent. -/
theorem carries_response {d : Draft} (hsize : Frame.sealedSize d.requestSize + 57 ≤ Frame.maxLength)
    (t : Timestamp) (e : Entropy) : Frame.Carries (d.document t e).1.responseSize := by
  have hmax : Frame.maxLength = 4194304 := rfl
  have hmin : Crypto.Envelope.minBytes = 29 := rfl
  have hwide := Cbor.Head.width_le ((d.document t e).1.responseSize + Crypto.Envelope.minBytes)
  rw [Frame.sealedSize] at hsize
  have hle := size_response_le (d := d) (by omega) t e
  rw [Frame.Carries, Frame.sealedSize]
  by_cases hsmall : (d.document t e).1.responseSize ≤ 4000000
  · omega
  · have hwidth (n : ℕ) (hn : 65536 ≤ n) (hn' : n < 4294967296) : Cbor.Head.width n = 5 := by
      unfold Cbor.Head.width
      split_ifs <;> omega
    rw [hwidth _ (by omega) (by omega)] at hsize ⊢
    omega

/-- A request with little room to spare has a response that cannot be sent. -/
theorem not_carries_response {d : Draft}
    (hsize : Frame.maxLength < Frame.sealedSize d.requestSize + 47) (t : Timestamp)
    (e : Entropy) : ¬Frame.Carries (d.document t e).1.responseSize := by
  have hle := d.le_size_response t e
  have hwidth : Cbor.Head.width (d.requestSize + Crypto.Envelope.minBytes) ≤
      Cbor.Head.width ((d.document t e).1.responseSize + Crypto.Envelope.minBytes) :=
    Cbor.Head.width_mono (by omega)
  rw [Frame.sealedSize] at hsize
  rw [Frame.Carries, Frame.sealedSize]
  omega

end Draft

/-! ### Statuses -/

namespace Status

theorem Brief.fits_abort {s : Status} (hs : s.Brief) : (Frame.abort s).Fits := by
  have hsize := Frame.size_abort_le s
  have htext := hs.textSize_le
  have hmax : Frame.maxLength = 4194304 := rfl
  rw [Frame.Fits]
  omega

end Status

omit [Store σ] in
/-- What a caller is told about a failed store is brief, and telling it changes no store. -/
theorem Dispatch.brief_storeStatus (e : StoreError) (h : Host σ) :
    (storeStatus e h).1.Brief ∧ (storeStatus e h).2.store = h.store := by
  cases e with
  | notFound id =>
    refine ⟨?_, rfl⟩
    change (Utf8.encode "document not found").size ≤ 256
    decide
  | _ =>
    refine ⟨?_, rfl⟩
    change (Utf8.encode "storage failure").size ≤ 256
    decide

/-- The complaint about a frame that is too long is brief, too. -/
theorem LinkError.brief_outboundTooLarge {n : ℕ} (hn : n < 10 ^ 20) :
    (SessionError.link (.outboundTooLarge n Frame.maxLength)).toStatus.Brief := by
  have hdigits : (Utf8.encode (toString n)).size ≤ 80 := by
    have hlength : (toString n).length ≤ 20 := (Nat.length_repr_le_iff (by omega)).mpr hn
    have hsize := Utf8.size_encode_le (toString n)
    omega
  have hwords : (Utf8.encode "outbound frame too large: ").size ≤ 40 ∧
      (Utf8.encode " bytes (max ").size ≤ 40 ∧
      (Utf8.encode (toString Frame.maxLength)).size ≤ 40 ∧ (Utf8.encode ")").size ≤ 40 := by
    decide
  change (Utf8.encode ("outbound frame too large: " ++ toString n ++ " bytes (max " ++
    toString Frame.maxLength ++ ")")).size ≤ 256
  simp only [Utf8.size_encode_append]
  omega

/-! ### Carrying out the request -/

namespace Draft

/-- A draft is refused: a field is too short, or the store does not take it. -/
def Refused (d : Draft) (h : Host σ) : Prop :=
  (∃ s, d.request.validate = .error s) ∨
    ∃ t err e', Store.insert d t h.store h.entropy = (.error err, h.store, e')

theorem decode_request {d : Draft} (hd : d.requestSize ≤ Frame.maxLength) :
    Wire.decodeRequest (Wire.encodeRequest d.request) = .ok d.request :=
  Wire.decodeRequest_encodeRequest (lt_of_le_of_lt hd (by decide))

variable [OrderlyStore σ]

/-- The document is stored, or the store stays as it is. -/
theorem handle_cases (d : Draft) (h : Host σ) :
    (∃ store entropy, d.request.validate = .ok () ∧ Store.insert d h.now h.store h.entropy =
        (.ok (d.document h.now h.entropy).1, store, entropy) ∧
      Dispatch.handle d.request h =
        (.ok (.document (d.document h.now h.entropy).1), { h with store, entropy })) ∨
    ∃ s h', Dispatch.handle d.request h = (.error s, h') ∧ s.Brief ∧ h'.store = h.store ∧
      d.Refused h := by
  rw [Dispatch.handle]
  rcases hvalid : d.request.validate with s | _
  · exact Or.inr ⟨s, h, rfl, Request.brief_of_validate hvalid, rfl, Or.inl ⟨s, hvalid⟩⟩
  · simp only [request, Dispatch.perform, Host.insert]
    rcases OrderlyStore.insert_cases d h.now h.store h.entropy with
      ⟨store, entropy, hinsert⟩ | ⟨err, entropy, hinsert⟩
    · refine Or.inl ⟨store, entropy, trivial, hinsert, ?_⟩
      rw [hinsert]
      rfl
    · obtain ⟨hbrief, hstore⟩ := Dispatch.brief_storeStatus err { h with entropy }
      refine Or.inr ⟨_, _, ?_, hbrief, hstore, Or.inr ⟨h.now, err, entropy, hinsert⟩⟩
      rw [hinsert]
      rfl

/-- The same, for the bytes of the request. -/
theorem dispatch_cases {d : Draft} (hd : d.requestSize ≤ Frame.maxLength) (h : Host σ) :
    (∃ store entropy, d.request.validate = .ok () ∧ Store.insert d h.now h.store h.entropy =
        (.ok (d.document h.now h.entropy).1, store, entropy) ∧
      Dispatch.dispatch (Wire.encodeRequest d.request) h =
        (.ok (.document (d.document h.now h.entropy).1), { h with store, entropy })) ∨
    ∃ s h', (Dispatch.dispatch (Wire.encodeRequest d.request) h = (.ok (.error s), h') ∨
        Dispatch.dispatch (Wire.encodeRequest d.request) h = (.error s, h')) ∧
      s.Brief ∧ h'.store = h.store ∧ d.Refused h := by
  simp only [Dispatch.dispatch, decode_request hd]
  rcases d.handle_cases h with ⟨store, entropy, hvalid, hinsert, hhandle⟩ |
    ⟨s, h', hhandle, hbrief, hstore, hrefused⟩
  · exact Or.inl ⟨store, entropy, hvalid, hinsert, by rw [hhandle]⟩
  · rw [hhandle]
    dsimp only
    split_ifs
    · exact Or.inr ⟨s, h'.recordStatus s, Or.inl rfl, hbrief, hstore, hrefused⟩
    · exact Or.inr ⟨s, h', Or.inr rfl, hbrief, hstore, hrefused⟩

end Draft

/-! ### What adding a document comes to -/

namespace Duplex

/-- The document that a call returns. -/
def added : Client.Outcome → Except SessionError Document
  | .error e => .error e
  | .ok (.response r) => Client.documentIn r
  | .ok _ => .error .closed

/-- What a caller is told when the response with a document is too long for a frame. -/
def replyTooLong (doc : Document) : SessionError :=
  .link (.remote (SessionError.link
    (.outboundTooLarge (Frame.sealedSize doc.responseSize) Frame.maxLength)).toStatus)

/-- **What adding a document comes to**, and the store it leaves. While the server is not
shut down (`calm`), nothing fails but what is too long for a frame or refused. -/
inductive Adds (calm : Prop) (h : Host σ) (d : Draft) : Except SessionError Document → σ → Prop
  /-- The document is stored and returned. -/
  | stored {t : Timestamp} {doc : Document} {store : σ} {e : Entropy}
    (hvalid : d.request.validate = .ok ())
    (hinsert : Store.insert d t h.store h.entropy = (.ok doc, store, e))
    (hcarries : Frame.Carries doc.responseSize) : Adds calm h d (.ok doc) store
  /-- The document is stored, but the response is too long for a frame, and the call
  fails. -/
  | overflowed {t : Timestamp} {doc : Document} {store : σ} {e : Entropy}
    (hvalid : d.request.validate = .ok ())
    (hinsert : Store.insert d t h.store h.entropy = (.ok doc, store, e))
    (hlong : ¬Frame.Carries doc.responseSize) : Adds calm h d (.error (replyTooLong doc)) store
  /-- The call fails, and the store is as it was. -/
  | failed (err : SessionError) (hreason : calm → ¬Frame.Carries d.requestSize ∨ d.Refused h) :
    Adds calm h d (.error err) h.store

section Replies

variable (secret : Crypto.SharedSecret) {plain : Bytes} {h h' : Host σ}

/-- A response that is not enormous becomes the envelope of a reply. -/
theorem taking_of_ok {response : Response}
    (hdispatch : Dispatch.dispatch plain h = (.ok response, h'))
    (hsize : (Wire.encodeResponse response).size < 2 ^ 32) :
    ∃ envelope entropy, taking secret plain h =
        ⟨.established secret, { h' with entropy }, .inl (.deliver (.reply envelope))⟩ ∧
      (Frame.message envelope).encodeBody.size =
        Frame.sealedSize (Wire.encodeResponse response).size ∧
      heard secret (.ok (some (.message envelope))) = .ok (.response response) := by
  have hlong : ¬Crypto.Envelope.tooLong (Wire.encodeResponse response).size = true := by
    intro hc
    have hblocks : Crypto.Envelope.blockLimit ≤ (Wire.encodeResponse response).size / 64 :=
      of_decide_eq_true hc
    have hlimit : Crypto.Envelope.blockLimit = 4294967295 := rfl
    omega
  obtain ⟨envelope, hseal, hreveal, -⟩ :=
    Crypto.Envelope.sealFresh_of_not_tooLong secret hlong h'.entropy
  have hdecode := Wire.decodeResponse_encodeResponse (r := response) (by omega) ByteArray.empty
  rw [ByteArray.append_empty] at hdecode
  refine ⟨envelope, (h'.entropy.draw Crypto.Envelope.nonceBytes).2, ?_,
    Frame.size_message_of_sealed hseal, ?_⟩
  · simp only [taking, Server.opened, hdispatch, Server.reply, hseal]
  · simp only [heard, Link.inbound, Client.responded, Client.opened, hreveal, hdecode]
    rfl

theorem taking_of_error {s : Status}
    (hdispatch : Dispatch.dispatch plain h = (.error s, h')) : taking secret plain h =
      ⟨.terminated, h', .inl (.deliver (.closing (.error s) (.error (.status s)) false))⟩ := by
  simp only [taking, Server.opened, hdispatch]
  rfl

end Replies

section Adds

variable [OrderlyStore σ] {calm : Prop} {secret : Crypto.SharedSecret} {h : Host σ} {d : Draft}

/-- **What the server says about a request to add a document** can be sent, and tells what
has become of it. -/
theorem adds_of_spoken (hd : Frame.Carries d.requestSize) {f : Frame} {store : σ}
    (hspoken : Says secret (Wire.encodeRequest d.request) h f store) :
    f.Fits ∧ Adds calm h d (added (heard secret (.ok (some f)))) store := by
  obtain ⟨t, s, hspeaks⟩ := hspoken
  have hsize := Draft.requestSize_le hd
  have hmax : Frame.maxLength = 4194304 := rfl
  rcases Draft.dispatch_cases hsize (h.observing t s) with
    ⟨store', entropy', hvalid, hinsert, hdispatch⟩ |
    ⟨status, h', hdispatch, hbrief, hstore, hrefused⟩
  · -- the document is stored, and the response may be too long for a frame
    have hle := Draft.size_response_le hsize t h.entropy
    obtain ⟨envelope, entropy, hturn, hbody, hheard⟩ := taking_of_ok secret hdispatch
      (lt_of_le_of_lt hle (by omega))
    rw [hturn] at hspeaks
    cases hspeaks with
    | reply hfits =>
      refine ⟨hfits, ?_⟩
      rw [hheard]
      rw [Frame.Fits, hbody] at hfits
      exact .stored hvalid hinsert hfits
    | overflow hlong =>
      have hbound : Frame.sealedSize (d.document t h.entropy).1.responseSize < 10 ^ 20 := by
        have hwidth := Cbor.Head.width_le
          ((d.document t h.entropy).1.responseSize + Crypto.Envelope.minBytes)
        have hmin : Crypto.Envelope.minBytes = 29 := rfl
        rw [Frame.sealedSize]
        omega
      have hsame : overflowing envelope = .link (.outboundTooLarge
          (Frame.sealedSize (d.document t h.entropy).1.responseSize) Frame.maxLength) := by
        rw [overflowing, hbody]
        rfl
      rw [hsame]
      rw [Frame.Fits, hbody] at hlong
      exact ⟨(LinkError.brief_outboundTooLarge hbound).fits_abort, .overflowed hvalid hinsert hlong⟩
  · have hunchanged : h'.store = h.store := hstore
    rcases hdispatch with hok | herror
    · -- the response is a status
      have hcarries := hbrief.carries
      obtain ⟨envelope, entropy, hturn, hbody, hheard⟩ := taking_of_ok secret hok (by
        rw [Frame.Carries, Frame.sealedSize] at hcarries
        omega)
      rw [hturn] at hspeaks
      cases hspeaks with
      | reply hfits =>
        refine ⟨hfits, ?_⟩
        rw [hheard, hunchanged]
        exact .failed _ fun _ => Or.inr hrefused
      | overflow hlong =>
        rw [Frame.Fits, hbody] at hlong
        exact absurd hcarries hlong
    · -- the session ends with a status
      rw [taking_of_error secret herror] at hspeaks
      cases hspeaks with
      | last =>
        rw [hunchanged]
        exact ⟨hbrief.fits_abort, .failed _ fun _ => Or.inr hrefused⟩

variable {capacity : ℕ} {session : Client.Session} {e : Entropy} {sched : ℕ → Move}

omit [OrderlyStore σ] in
/-- Where a call to add the document of a draft has got to. -/
def adding (capacity : ℕ) (session : Client.Session) (e : Entropy) (d : Draft) (h : Host σ)
    (sched : ℕ → Move) (n : ℕ) : Duplex σ :=
  Schedule.after step sched (start capacity session e d.request h) n

theorem sound_adding (session : Client.Session) (e : Entropy) (d : Draft) (h : Host σ)
    (hcapacity : calm → 0 < capacity) :
    ∃ m, Sound calm session.secret m (Wire.encodeRequest d.request) h
      (start capacity session e d.request h) := by
  rcases hseal : Crypto.Envelope.sealFresh session.secret (Wire.encodeRequest d.request) e with
    ⟨err | m, e'⟩
  · exact ⟨ByteArray.empty, sound_start_unsealed hseal⟩
  · refine ⟨m, sound_start hseal (fun hd f store hspoken => ?_) hcapacity⟩
    have hadds : _ ∧ Adds True h d _ store := adds_of_spoken hd hspoken
    exact hadds.1

/-- **What adding a document has come to**, whenever the call is over. -/
theorem adds_after (hcalm : calm → 0 < capacity ∧ ∀ n, (sched n).Calm) {n : ℕ}
    {o : Client.Outcome} (ho : (adding capacity session e d h sched n).caller = .inr o) :
    Adds calm h d (added o) (adding capacity session e d h sched n).host.store := by
  obtain ⟨m, hw⟩ := sound_adding session e d h fun hc => (hcalm hc).1
  rcases concluded_after hw (fun hc => (hcalm hc).2) ho with
    ⟨harrives, f, hspoken, rfl⟩ | ⟨⟨err, rfl⟩, hstore, hreason⟩
  · exact (adds_of_spoken harrives hspoken).2
  · have hsame : (adding capacity session e d h sched n).host.store = h.store := hstore
    rw [hsame]
    exact .failed err fun hc => Or.inl (hreason hc)

theorem document_of_insert {t : Timestamp} {doc : Document} {store : σ} {entropy : Entropy}
    (hinsert : Store.insert d t h.store h.entropy = (.ok doc, store, entropy)) :
    doc = (d.document t h.entropy).1 := by
  rcases OrderlyStore.insert_cases d t h.store h.entropy with ⟨s', e', hok⟩ | ⟨err, e', herror⟩
  · exact Except.ok.inj (congrArg Prod.fst (hinsert.symm.trans hok))
  · exact nomatch congrArg Prod.fst (hinsert.symm.trans herror)

/-- A request with room to spare in its frame leaves no trace when it fails. -/
theorem store_eq_of_failed (hsize : Frame.sealedSize d.requestSize + 57 ≤ Frame.maxLength)
    {err : SessionError} {store : σ} (hadds : Adds calm h d (.error err) store) :
    store = h.store := by
  cases hadds with
  | overflowed hvalid hinsert hlong =>
    rw [document_of_insert hinsert] at hlong
    exact absurd (Draft.carries_response hsize _ _) hlong
  | failed => rfl

/-- A request with little room to spare in its frame leaves a trace and fails, unless it is
refused. -/
theorem overflowed_of_near (hd : Frame.Carries d.requestSize)
    (hsize : Frame.maxLength < Frame.sealedSize d.requestSize + 47) (hrefused : ¬d.Refused h)
    {x : Except SessionError Document} {store : σ} (hadds : Adds True h d x store) :
    ∃ t doc entropy, Store.insert d t h.store h.entropy = (.ok doc, store, entropy) ∧
      x = .error (replyTooLong doc) := by
  cases hadds with
  | stored hvalid hinsert hcarries =>
    rw [document_of_insert hinsert] at hcarries
    exact absurd hcarries (Draft.not_carries_response hsize _ _)
  | overflowed hvalid hinsert hlong => exact ⟨_, _, _, hinsert, rfl⟩
  | failed err hreason =>
    rcases hreason trivial with hlong | hc
    · exact absurd hd hlong
    · exact absurd hc hrefused

omit [OrderlyStore σ] in
/-- A draft with a short field is not added. -/
theorem error_of_invalid (hinvalid : d.request.validate ≠ .ok ())
    {x : Except SessionError Document} {store : σ} (hadds : Adds calm h d x store) :
    ∃ err, x = .error err := by
  cases hadds with
  | stored hvalid => exact absurd hvalid hinvalid
  | overflowed hvalid => exact absurd hvalid hinvalid
  | failed err => exact ⟨err, rfl⟩

/-- A call to add a document comes to an end. -/
theorem adding_ends (session : Client.Session) (e : Entropy) (d : Draft) (h : Host σ)
    (hcapacity : 0 < capacity) (hcalm : ∀ n, (sched n).Calm)
    (hcall : Schedule.Again sched (· = .call))
    (hserve : Schedule.Again sched fun move => ∃ t s, move = .serve t s) :
    ∃ n o, ∀ k, n ≤ k → (adding capacity session e d h sched k).caller = .inr o := by
  obtain ⟨m, hw⟩ : ∃ m, Sound True session.secret m (Wire.encodeRequest d.request) h _ :=
    sound_adding session e d h fun _ => hcapacity
  exact over_after hw hcalm hcall hserve

/-- **A call to add a document that fails leaves something behind only if the document was
stored and the response was too long for a frame**, whatever the store holds and however the
two sides are polled. It cannot happen to a request that has 57 bytes to spare in its frame.
If the server is not shut down every call comes to an end, and then it does happen to each
request that has less than 47 bytes to spare and is not refused. -/
theorem failed_addition_leaves_trace_only_of_overflow (capacity : ℕ) (session : Client.Session)
    (e : Entropy) (d : Draft) (h : Host σ) (sched : ℕ → Move) :
    (∀ n o, (adding capacity session e d h sched n).caller = .inr o →
      Adds (0 < capacity ∧ ∀ n, (sched n).Calm) h d (added o)
        (adding capacity session e d h sched n).host.store) ∧
    (Frame.sealedSize d.requestSize + 57 ≤ Frame.maxLength → ∀ n o err,
      (adding capacity session e d h sched n).caller = .inr o → added o = .error err →
      (adding capacity session e d h sched n).host.store = h.store) ∧
    (0 < capacity → (∀ n, (sched n).Calm) → Schedule.Again sched (· = .call) →
      (Schedule.Again sched fun move => ∃ t s, move = .serve t s) →
      ∃ n o, (∀ k, n ≤ k → (adding capacity session e d h sched k).caller = .inr o) ∧
        (Frame.Carries d.requestSize → Frame.maxLength < Frame.sealedSize d.requestSize + 47 →
          ¬d.Refused h → ∃ t doc entropy, Store.insert d t h.store h.entropy =
              (.ok doc, (adding capacity session e d h sched n).host.store, entropy) ∧
            added o = .error (replyTooLong doc))) := by
  refine ⟨fun n o ho => adds_after id ho, ?_, ?_⟩
  · intro hsize n o err ho herr
    have hadds : Adds False h d (added o) _ := adds_after False.elim ho
    rw [herr] at hadds
    exact store_eq_of_failed hsize hadds
  · intro hcapacity hcalm hcall hserve
    obtain ⟨n, o, ho⟩ := adding_ends session e d h hcapacity hcalm hcall hserve
    refine ⟨n, o, ho, fun hd hsize hrefused => ?_⟩
    exact overflowed_of_near hd hsize hrefused
      (adds_after (fun _ => ⟨hcapacity, hcalm⟩) (ho n (Nat.le_refl n)))

end Adds

/-! ### Two additions -/

/-- A client and a server that take turns. -/
def turns : ℕ → Move := Schedule.roundRobin .call [.serve (.clamp 0) {}]

theorem calm_turns (n : ℕ) : (turns n).Calm := by
  have hmem : turns n ∈ [Move.call, .serve (.clamp 0) {}] := List.get_mem _ _
  simp only [List.mem_cons, List.not_mem_nil, or_false] at hmem
  rcases hmem with hmove | hmove <;> rw [hmove]
  · trivial
  · rfl

theorem again_call_turns : Schedule.Again turns (· = .call) :=
  Schedule.again_roundRobin List.mem_cons_self

theorem again_serve_turns : Schedule.Again turns fun move => ∃ t s, move = .serve t s := by
  have hagain : Schedule.Again turns (· = .serve (.clamp 0) {}) :=
    Schedule.again_roundRobin (List.mem_cons_of_mem _ List.mem_cons_self)
  intro n
  obtain ⟨k, hk, hmove⟩ := hagain n
  exact ⟨k, hk, _, _, hmove⟩

/-- A session whose secret is known. -/
def someSession : Client.Session :=
  ⟨⟨Bytes.replicate 32 1, by decide +kernel⟩, ⟨Bytes.replicate 32 1, by decide +kernel⟩⟩

/-- A host with nothing in its store. -/
def emptyHost : Host Memory := { store := {}, now := .clamp 0, entropy := ⟨fun _ => 7, 0⟩ }

theorem insert_emptyHost (d : Draft) (t : Timestamp) :
    Store.insert d t emptyHost.store emptyHost.entropy =
      (.ok (d.document t emptyHost.entropy).1,
        ⟨[⟨(d.document t emptyHost.entropy).1.id, 0, (d.document t emptyHost.entropy).1⟩], 1⟩,
        (d.document t emptyHost.entropy).2) := rfl

/-- A draft with a long content. -/
def longDraft (n : ℕ) : Draft := ⟨"alice", String.ofList (List.replicate n 'z'), "giant"⟩

theorem requestSize_longDraft (n : ℕ) :
    (longDraft n).requestSize = 37 + Cbor.Head.width n + n := by
  have hnames : Cbor.textSize "alice" = 6 ∧ Cbor.textSize "giant" = 6 := by decide
  rw [Draft.requestSize, Draft.request, Wire.size_encodeRequest_add, longDraft]
  dsimp only
  rw [hnames.1, hnames.2, Cbor.textSize, Utf8.size_encode_replicate]
  omega

theorem not_refused_longDraft {n : ℕ} (hn : 5 ≤ n) : ¬(longDraft n).Refused emptyHost := by
  rintro (⟨s, hs⟩ | ⟨t, err, e', hinsert⟩)
  · have hlength : ¬n < Request.minFieldLen := Nat.not_lt.mpr hn
    have hnames : ¬"alice".length < Request.minFieldLen ∧
      ¬"giant".length < Request.minFieldLen := by decide
    simp [Request.validate, Request.firstShort?, Draft.request, Request.checkedFields, longDraft,
      hlength, hnames.1, hnames.2] at hs
  · cases congrArg Prod.fst ((insert_emptyHost _ t).symm.trans hinsert)

/-- A document with a content of one character is refused, and the store stays empty. -/
theorem failed_addition_of_short_content :
    Frame.sealedSize (longDraft 1).requestSize + 57 ≤ Frame.maxLength ∧
    ∃ n o err, (∀ k, n ≤ k →
        (adding 16 someSession ⟨fun _ => 1, 0⟩ (longDraft 1) emptyHost turns k).caller = .inr o) ∧
      added o = .error err ∧
      (adding 16 someSession ⟨fun _ => 1, 0⟩ (longDraft 1) emptyHost turns n).host.store = {} := by
  have hsize : Frame.sealedSize (longDraft 1).requestSize + 57 ≤ Frame.maxLength := by
    rw [requestSize_longDraft]
    decide
  obtain ⟨hadds, hunchanged, hends⟩ := failed_addition_leaves_trace_only_of_overflow 16 someSession
    ⟨fun _ => 1, 0⟩ (longDraft 1) emptyHost turns
  obtain ⟨n, o, ho, -⟩ := hends (by decide) calm_turns again_call_turns again_serve_turns
  have hshort : (longDraft 1).request.validate ≠ .ok () := by decide
  obtain ⟨err, herr⟩ := error_of_invalid hshort (hadds n o (ho n (Nat.le_refl n)))
  exact ⟨hsize, n, o, err, ho, herr, hunchanged hsize n o err (ho n (Nat.le_refl n)) herr⟩

/-- **A request that arrives and whose response cannot be sent**: the call fails, and the
document is in the store. -/
theorem addition_stored_and_failed :
    Frame.Carries (longDraft 4194200).requestSize ∧
    ∃ n o err, (∀ k, n ≤ k → (adding 65536 someSession ⟨fun _ => 1, 0⟩ (longDraft 4194200) emptyHost
        turns k).caller = .inr o) ∧
      added o = .error err ∧ emptyHost.store.size = 0 ∧
      (adding 65536 someSession ⟨fun _ => 1, 0⟩ (longDraft 4194200) emptyHost
        turns n).host.store.size = 1 := by
  have hsize : Frame.sealedSize (longDraft 4194200).requestSize = 4194285 := by
    rw [requestSize_longDraft]
    rfl
  have hcarries : Frame.Carries (longDraft 4194200).requestSize := by
    rw [Frame.Carries, hsize]
    decide
  have hnear : Frame.maxLength < Frame.sealedSize (longDraft 4194200).requestSize + 47 := by
    rw [hsize]
    decide
  obtain ⟨n, o, ho⟩ := adding_ends someSession ⟨fun _ => 1, 0⟩ (longDraft 4194200) emptyHost
    (show 0 < 65536 by decide) calm_turns again_call_turns again_serve_turns
  obtain ⟨t, doc, entropy, hinsert, herr⟩ := overflowed_of_near hcarries hnear
    (not_refused_longDraft (by decide))
    (adds_after (fun _ => ⟨by decide, calm_turns⟩) (ho n (Nat.le_refl n)))
  have hstore := congrArg (fun x => x.2.1.size) ((insert_emptyHost _ t).symm.trans hinsert)
  exact ⟨hcarries, n, o, replyTooLong doc, ho, herr, rfl, hstore.symm⟩

end Duplex

end Vault
