import Vault.Proofs.Session.Addition
import Vault.Proofs.Store.Newest

/-!
# Listing what was just added

There are two limits on a document. Whoever adds it is told so if the response fits one
frame, and it is listed if its encoding takes no more than
`Vault.Dispatch.maxListBytes`, which is less: the wrapping of a listing may take more room
than that of a single document, and so a kilobyte is set aside for it.

Whoever adds a document and then asks for the documents of its owner, over the same session
or another one, always gets a listing (`Vault.Duplex.lists_after`), because a listing is cut
until it fits. A document within the second limit stands first in it. One between the two
limits is stored and returned to who added it, and hides all documents of its owner: the
listing is cut before it, and so it is empty (`Vault.Duplex.addition_unlisted`).
-/

namespace Vault

variable {σ : Type} [Store σ]

/-! ### What fits one frame -/

namespace Dispatch

/-- The total size of the encodings of documents. -/
def bulk (ds : List Document) : ℕ := (ds.map fun d => (Wire.writeDocument d).size).sum

theorem bulk_cons (d : Document) (ds : List Document) :
    bulk (d :: ds) = (Wire.writeDocument d).size + bulk ds := by
  rw [bulk, List.map_cons, List.sum_cons, bulk]

theorem bulk_take_fitting {total : ℕ} (htotal : total ≤ maxListBytes) (ds : List Document) :
    total + bulk (ds.take (fitting total ds)) ≤ maxListBytes := by
  induction ds generalizing total with
  | nil => exact htotal
  | cons d ds ih =>
    by_cases hlong : maxListBytes < total + (Wire.writeDocument d).size
    · rw [fitting, if_pos hlong]
      exact htotal
    · have hrest := ih (Nat.le_of_not_lt hlong)
      rw [fitting, if_neg hlong, List.take_succ_cons, bulk_cons, ← Nat.add_assoc]
      exact hrest

theorem bulk_fitToFrame (ds : List Document) : bulk (fitToFrame ds) ≤ maxListBytes := by
  have htake := bulk_take_fitting (Nat.zero_le maxListBytes) ds
  rwa [Nat.zero_add] at htake

theorem size_encodeResponse_documents (ds : List Document) :
    (Wire.encodeResponse (.documents ds)).size = 11 + Cbor.Head.width ds.length + bulk ds := by
  have hname : Cbor.textSize "documents" = 10 := by decide
  rw [Wire.encodeResponse, Cbor.size_writeVariant, hname, Wire.writeDocuments_eq,
    ByteArray.size_append, Cbor.Head.size_write, Cbor.size_concat, List.map_map, bulk]
  change 1 + 10 + (_ + (ds.map fun d => (Wire.writeDocument d).size).sum) = _
  omega

/-- **A listing that was cut can be sent**, however many documents are in it. -/
theorem carries_listing (ds : List Document) :
    Frame.Carries (Wire.encodeResponse (.documents (fitToFrame ds))).size := by
  have hbulk := bulk_fitToFrame ds
  have hlimit : maxListBytes = 4193280 := rfl
  have hmax : Frame.maxLength = 4194304 := rfl
  have hmin : Crypto.Envelope.minBytes = 29 := rfl
  have hcount := Cbor.Head.width_le (fitToFrame ds).length
  have hwide := Cbor.Head.width_le
    ((Wire.encodeResponse (.documents (fitToFrame ds))).size + Crypto.Envelope.minBytes)
  have hsize := size_encodeResponse_documents (fitToFrame ds)
  rw [Frame.Carries, Frame.sealedSize]
  omega

/-- Nothing of a listing fits unless its first document does. -/
theorem fitToFrame_cons_of_lt {d : Document} (hd : maxListBytes < (Wire.writeDocument d).size)
    (ds : List Document) : fitToFrame (d :: ds) = [] := by
  have hlong : maxListBytes < 0 + (Wire.writeDocument d).size := by rwa [Nat.zero_add]
  rw [fitToFrame, fitting, if_pos hlong, List.take_zero]

theorem fitToFrame_cons_of_le {d : Document} (hd : (Wire.writeDocument d).size ≤ maxListBytes)
    (ds : List Document) : ∃ rest, fitToFrame (d :: ds) = d :: rest := by
  have hshort : ¬maxListBytes < 0 + (Wire.writeDocument d).size := by
    rw [Nat.zero_add]
    exact Nat.not_lt.mpr hd
  refine ⟨ds.take (fitting (0 + (Wire.writeDocument d).size) ds), ?_⟩
  rw [fitToFrame, fitting, if_neg hshort, List.take_succ_cons]

omit [Store σ] in
/-- Cutting a listing is logged and does nothing else. -/
theorem trim_eq (ds : List Document) (h : Host σ) :
    ∃ h', trim ds h = (fitToFrame ds, h') ∧ h'.store = h.store := by
  rw [trim]
  split_ifs
  · exact ⟨_, rfl, rfl⟩
  · exact ⟨_, rfl, rfl⟩

end Dispatch

/-! ### Asking for a listing -/

theorem Wire.size_encodeRequest_list (owner : String) :
    (encodeRequest (.list owner)).size = 13 + Cbor.textSize owner := by
  have hnames : Cbor.textSize "list" = 5 ∧ Cbor.textSize "owner" = 6 := by decide
  simp only [encodeRequest, Request.tag, requestFields, Cbor.size_writeVariant,
    Cbor.size_writeRecord, List.map_cons, List.map_nil, List.sum_cons, List.sum_nil,
    List.length_cons, List.length_nil, Cbor.size_writeText, hnames.1, hnames.2]
  have hwidth : Cbor.Head.width (0 + 1) = 1 := rfl
  omega

/-- Who can be told of a document can ask for the documents of its owner. -/
theorem Document.carries_list {doc : Document} (h : Frame.Carries doc.responseSize) :
    Frame.Carries (Wire.encodeRequest (.list doc.owner)).size := by
  have hsize : (Wire.encodeRequest (.list doc.owner)).size ≤ doc.responseSize := by
    rw [Wire.size_encodeRequest_list, responseSize, Wire.size_encodeResponse_document,
      Wire.size_writeDocument]
    omega
  have hwidth : Cbor.Head.width ((Wire.encodeRequest (.list doc.owner)).size +
      Crypto.Envelope.minBytes) ≤ Cbor.Head.width (doc.responseSize + Crypto.Envelope.minBytes) :=
    Cbor.Head.width_mono (by omega)
  rw [Frame.Carries, Frame.sealedSize] at h ⊢
  omega

/-- The owner of a draft whose fields are long enough is long enough. -/
theorem Draft.validate_list {d : Draft} (h : d.request.validate = .ok ()) :
    (Request.list d.owner).validate = .ok () := by
  have howner : ¬d.owner.length < Request.minFieldLen := by
    intro hshort
    rw [Request.validate, Request.firstShort?, request, Request.checkedFields,
      List.find?_cons_of_pos (by exact decide_eq_true hshort)] at h
    cases h
  rw [Request.validate, Request.firstShort?, Request.checkedFields,
    List.find?_cons_of_neg (by simpa using howner)]
  rfl

/-- The documents of an owner can be listed: the request is one that arrives and is carried
out, and the store finds these documents. -/
structure Listable (owner : String) (h : Host σ) (ds : List Document) : Prop where
  /-- The request is not too long for a frame. -/
  arrives : Frame.Carries (Wire.encodeRequest (.list owner)).size
  /-- The owner is not too short. -/
  valid : (Request.list owner).validate = .ok ()
  /-- The documents of the owner. -/
  found : Store.list owner h.store = (.ok ds, h.store)

theorem Listable.dispatch {owner : String} {h : Host σ} {ds : List Document}
    (hl : Listable owner h ds) :
    ∃ h', Dispatch.dispatch (Wire.encodeRequest (.list owner)) h =
      (.ok (.documents (Dispatch.fitToFrame ds)), h') ∧ h'.store = h.store := by
  have hsize : (Wire.encodeRequest (.list owner)).size < 2 ^ 64 := by
    have harrives := hl.arrives
    have hmax : Frame.maxLength = 4194304 := rfl
    rw [Frame.Carries, Frame.sealedSize] at harrives
    omega
  obtain ⟨h', htrim, hstore⟩ := Dispatch.trim_eq ds { h with store := h.store }
  refine ⟨h', ?_, hstore⟩
  simp only [Dispatch.dispatch, Wire.decodeRequest_encodeRequest hsize, Dispatch.handle, hl.valid,
    Dispatch.perform, Host.list, hl.found, Dispatch.answer, htrim]

namespace Duplex

/-- The documents that a call returns. -/
def listed : Client.Outcome → Except SessionError (List Document)
  | .error e => .error e
  | .ok (.response r) => Client.documentsIn r
  | .ok _ => .error .closed

section Lists

variable {secret : Crypto.SharedSecret} {owner : String} {h : Host σ} {ds : List Document}
  {p q : Pipe} {session : Client.Session} {e : Entropy} {sched : ℕ → Move}

/-- **What the server says about a request for a listing** can be sent, and is the listing. -/
theorem lists_of_spoken (hl : Listable owner h ds) {f : Frame} {store : σ}
    (hspoken : Says secret (Wire.encodeRequest (.list owner)) h f store) :
    f.Fits ∧ listed (heard secret (.ok (some f))) = .ok (Dispatch.fitToFrame ds) := by
  obtain ⟨t, s, hspeaks⟩ := hspoken
  have hlater : Listable owner (h.observing t s) ds := ⟨hl.arrives, hl.valid, hl.found⟩
  have hcarries := Dispatch.carries_listing ds
  obtain ⟨h', hdispatch, -⟩ := hlater.dispatch
  obtain ⟨envelope, entropy, hturn, hbody, hheard⟩ := taking_of_ok secret hdispatch (by
    have hmax : Frame.maxLength = 4194304 := rfl
    rw [Frame.Carries, Frame.sealedSize] at hcarries
    omega)
  rw [hturn] at hspeaks
  cases hspeaks with
  | reply hfits =>
    refine ⟨hfits, ?_⟩
    rw [hheard]
    rfl
  | overflow hlong =>
    rw [Frame.Fits, hbody] at hlong
    exact absurd hcarries hlong

/-- Where a call for the documents of an owner has got to. -/
def listing (p q : Pipe) (session : Client.Session) (e : Entropy) (owner : String) (h : Host σ)
    (sched : ℕ → Move) (n : ℕ) : Duplex σ :=
  Schedule.after step sched (calling p q session e (.list owner) h) n

theorem sound_listing (hl : Listable owner h ds) (session : Client.Session) (e : Entropy)
    (hp : Idle p) (hq : Idle q) (hroom : 0 < p.capacity ∧ 0 < q.capacity) :
    ∃ m, Sound True session.secret m (Wire.encodeRequest (.list owner)) h
      (calling p q session e (.list owner) h) := by
  rcases hseal : Crypto.Envelope.sealFresh session.secret (Wire.encodeRequest (.list owner)) e with
    ⟨err | m, e'⟩
  · exact ⟨ByteArray.empty, sound_calling_unsealed hseal hp⟩
  · exact ⟨m, sound_calling hseal (fun _ _ _ hspoken => (lists_of_spoken hl hspoken).1) hp hq
      fun _ => hroom⟩

/-- **A call for a listing returns it**, whenever the call is over. -/
theorem lists_after (hl : Listable owner h ds) (hp : Idle p) (hq : Idle q)
    (hroom : 0 < p.capacity ∧ 0 < q.capacity) (hcalm : ∀ n, (sched n).Calm) {n : ℕ}
    {o : Client.Outcome} (ho : (listing p q session e owner h sched n).caller = .inr o) :
    listed o = .ok (Dispatch.fitToFrame ds) := by
  obtain ⟨m, hw⟩ := sound_listing hl session e hp hq hroom
  rcases concluded_after hw (fun _ => hcalm) ho with ⟨-, f, hspoken, rfl⟩ | ⟨-, -, hreason⟩
  · exact (lists_of_spoken hl hspoken).2
  · exact absurd hl.arrives (hreason trivial)

theorem listing_ends (hl : Listable owner h ds) (session : Client.Session) (e : Entropy)
    (hp : Idle p) (hq : Idle q) (hroom : 0 < p.capacity ∧ 0 < q.capacity)
    (hcalm : ∀ n, (sched n).Calm) (hcall : Schedule.Again sched (· = .call))
    (hserve : Schedule.Again sched fun move => ∃ t s, move = .serve t s) :
    ∃ n o, ∀ k, n ≤ k → (listing p q session e owner h sched k).caller = .inr o := by
  obtain ⟨m, hw⟩ := sound_listing hl session e hp hq hroom
  exact over_after hw hcalm hcall hserve

end Lists

/-! ### Adding and then listing -/

section Recall

variable [OrderlyStore σ] {opening : σ → Except StoreError Unit × σ} {image : Memory → σ}
  {history : List Memory.Event} {m : Memory} {h h' : Host σ} {d : Draft} {doc : Document}
  {store : σ} {before : List Document}

/-- What was added and returned can be listed with the documents that were there before. -/
theorem listable_of_adds (hmirrors : Store.Mirrors opening image) (hm : Memory.Recorded history m)
    (hstore : h.store = image m) {calm : Prop} (hadds : Adds calm h d (.ok doc) store)
    (hbefore : (Store.list doc.owner h.store).1 = .ok before)
    (htime : ∀ x ∈ before, x.createdAt.micros ≤ doc.createdAt.micros) (hnext : h'.store = store) :
    Listable doc.owner h' ((doc :: before).take listLimit) := by
  cases hadds with
  | stored hvalid hinsert hcarries =>
    have howner : doc.owner = d.owner := by
      rw [document_of_insert hinsert]
      rfl
    rw [hstore] at hbefore
    refine ⟨Document.carries_list hcarries, ?_, ?_⟩
    · rw [howner]
      exact Draft.validate_list hvalid
    · rw [hnext]
      exact hmirrors.list_insert hm (hstore ▸ hinsert) hbefore htime

/-- A draft that is not refused and has room to spare in its frame is added and returned. -/
theorem stored_of_room (hroom : Frame.sealedSize d.requestSize + 57 ≤ Frame.maxLength)
    (hrefused : ¬d.Refused h) {x : Except SessionError Document}
    (hadds : Adds True h d x store) :
    ∃ t e, x = .ok (d.document t h.entropy).1 ∧
      Store.insert d t h.store h.entropy = (.ok (d.document t h.entropy).1, store, e) := by
  cases hadds with
  | stored hvalid hinsert hcarries =>
    obtain rfl := document_of_insert hinsert
    exact ⟨_, _, rfl, hinsert⟩
  | overflowed hvalid hinsert hlong =>
    rw [document_of_insert hinsert] at hlong
    exact absurd (Draft.carries_response hroom _ _) hlong
  | failed err hreason =>
    rcases hreason trivial with hlong | hc
    · exact absurd (Nat.le_of_add_right_le hroom) hlong
    · exact absurd hc hrefused

variable {α : Type} [DecidableEq α] {capacity n : ℕ} {session : Client.Session}
  {e : Entropy} {sched sched' : ℕ → Move} {p q : Pipe} {o : Client.Outcome}

/-- **Who has added a document can list it, if it is not too long for a listing.** Whatever any
number of sessions and sweepers have done to the store before, whichever way it is kept: once a
call to add a document has returned it, with a time not before those in the owner's listing, a
call for the documents of the owner over any session comes to an end and returns the document
and those that were listed before, as far as they fit. The document stands first if its encoding
is within the limit of a listing, and otherwise the listing is empty. -/
theorem addition_heads_listing (hmirrors : Store.Mirrors opening image)
    (acts : List (Memory.Act α)) (hstore : h.store = image (Memory.run acts).store)
    (ho : (adding capacity session e d h sched n).caller = .inr o) (hdoc : added o = .ok doc)
    (hbefore : (Store.list doc.owner h.store).1 = .ok before)
    (htime : ∀ x ∈ before, x.createdAt.micros ≤ doc.createdAt.micros)
    (hnext : h'.store = (adding capacity session e d h sched n).host.store)
    (session' : Client.Session) (e' : Entropy) (hp : Idle p) (hq : Idle q)
    (hroom : 0 < p.capacity ∧ 0 < q.capacity) (hcalm : ∀ n, (sched' n).Calm) :
    (∀ k o', (listing p q session' e' doc.owner h' sched' k).caller = .inr o' →
      listed o' = .ok (Dispatch.fitToFrame ((doc :: before).take listLimit))) ∧
    (Schedule.Again sched' (· = .call) →
      (Schedule.Again sched' fun move => ∃ t s, move = .serve t s) →
      ∃ k o', ∀ j, k ≤ j → (listing p q session' e' doc.owner h' sched' j).caller = .inr o') ∧
    ((Wire.writeDocument doc).size ≤ Dispatch.maxListBytes →
      ∃ rest, Dispatch.fitToFrame ((doc :: before).take listLimit) = doc :: rest) ∧
    (Dispatch.maxListBytes < (Wire.writeDocument doc).size →
      Dispatch.fitToFrame ((doc :: before).take listLimit) = []) := by
  have hadds : Adds False h d (.ok doc) (adding capacity session e d h sched n).host.store :=
    hdoc ▸ adds_after False.elim ho
  have hl := listable_of_adds hmirrors (Memory.recorded_run acts) hstore hadds hbefore htime hnext
  have hfirst : (doc :: before).take listLimit = doc :: before.take (listLimit - 1) := rfl
  refine ⟨fun k o' => lists_after hl hp hq hroom hcalm,
    listing_ends hl session' e' hp hq hroom hcalm, fun hsize => ?_, fun hsize => ?_⟩
  · rw [hfirst]
    exact Dispatch.fitToFrame_cons_of_le hsize _
  · rw [hfirst]
    exact Dispatch.fitToFrame_cons_of_lt hsize _

end Recall

/-! ### Two documents -/

section Examples

variable [OrderlyStore σ] {h : Host σ} {d : Draft}

/-- A document is added by a client and a server that take turns. -/
theorem exists_added (hroom : Frame.sealedSize d.requestSize + 57 ≤ Frame.maxLength)
    (hrefused : ¬d.Refused h) :
    ∃ n o t, (adding 65536 someSession ⟨fun _ => 1, 0⟩ d h turns n).caller = .inr o ∧
      added o = .ok (d.document t h.entropy).1 ∧
      Adds True h d (.ok (d.document t h.entropy).1)
        (adding 65536 someSession ⟨fun _ => 1, 0⟩ d h turns n).host.store := by
  obtain ⟨n, o, ho⟩ := adding_ends someSession ⟨fun _ => 1, 0⟩ d h (show 0 < 65536 by decide)
    calm_turns again_call_turns again_serve_turns
  have hadds : Adds True h d (added o) _ :=
    adds_after (fun _ => ⟨by decide, calm_turns⟩) (ho n (Nat.le_refl n))
  obtain ⟨t, -, hadded, -⟩ := stored_of_room hroom hrefused hadds
  exact ⟨n, o, t, ho n (Nat.le_refl n), hadded, hadded ▸ hadds⟩

end Examples

/-- A host with a document of an owner that is as old as can be. -/
def storedHost : Host Memory where
  store := (Memory.run [.mint () ⟨"alice", "hello", "older"⟩ (.clamp (-(2 ^ 63))) ⟨fun _ => 1, 0⟩,
    .commit ()]).store
  now := .clamp 0
  entropy := ⟨fun _ => 7, 0⟩

theorem not_refused_storedHost : ¬(longDraft 5).Refused storedHost := by
  rintro (⟨s, hs⟩ | ⟨t, err, e', hinsert⟩)
  · have hvalid : (longDraft 5).request.validate = .ok () := by decide
    cases hvalid.symm.trans hs
  · have hfree : storedHost.store.find? ((longDraft 5).document t storedHost.entropy).1.id =
        none := by
      change storedHost.store.find? (Document.mintId "giant" storedHost.entropy).1 = none
      decide
    have hcommit := congrArg Prod.fst hinsert
    change (storedHost.store.commit ((longDraft 5).document t storedHost.entropy).1).1 = _
      at hcommit
    rw [Memory.commit, hfree] at hcommit
    cases hcommit

/-- A short document is added where there is an older one, and stands first in the listing. -/
theorem addition_heads_listing_short :
    ∃ n o doc k o' rest,
      (adding 65536 someSession ⟨fun _ => 1, 0⟩ (longDraft 5) storedHost turns n).caller =
        .inr o ∧ added o = .ok doc ∧
      (listing { capacity := 8 } { capacity := 8 } someSession ⟨fun _ => 2, 0⟩ doc.owner
        (adding 65536 someSession ⟨fun _ => 1, 0⟩ (longDraft 5) storedHost turns n).host
        turns k).caller = .inr o' ∧
      listed o' = .ok (doc :: rest) := by
  have hroom : Frame.sealedSize (longDraft 5).requestSize + 57 ≤ Frame.maxLength := by
    rw [requestSize_longDraft]
    decide
  obtain ⟨n, o, t, ho, hdoc, hadds⟩ := exists_added hroom not_refused_storedHost
  have htime : ∀ x ∈ storedHost.store.list "alice", x.createdAt.micros ≤ t.micros := by
    intro x hx
    obtain ⟨e, he, rfl⟩ := List.mem_map.mp hx
    have hentry := (Memory.mem_ranked.mp (List.mem_of_mem_take he)).1
    obtain rfl := List.mem_singleton.mp hentry
    -- the one document there has the least time of all
    exact t.least_le
  obtain ⟨hlisted, hends, hfirst, -⟩ := addition_heads_listing
    (p := { capacity := 8 }) (q := { capacity := 8 }) Store.mirrors_memory
    [.mint () ⟨"alice", "hello", "older"⟩ (.clamp (-(2 ^ 63))) ⟨fun _ => 1, 0⟩, .commit ()] rfl
    ho hdoc rfl htime rfl someSession ⟨fun _ => 2, 0⟩ ⟨rfl, rfl⟩ ⟨rfl, rfl⟩
    ⟨by decide, by decide⟩ calm_turns
  obtain ⟨k, o', ho'⟩ := hends again_call_turns again_serve_turns
  have hsize : (Wire.writeDocument ((longDraft 5).document t storedHost.entropy).1).size ≤
      Dispatch.maxListBytes := by
    have hle := Draft.size_response_le (d := longDraft 5) (by
      rw [requestSize_longDraft]
      decide) t storedHost.entropy
    rw [Document.responseSize, Wire.size_encodeResponse_document, requestSize_longDraft] at hle
    have hlimit : Dispatch.maxListBytes = 4193280 := rfl
    have hwidth := Cbor.Head.width_le 5
    omega
  obtain ⟨rest, hrest⟩ := hfirst hsize
  refine ⟨n, o, _, k, o', rest, ho, hdoc, ho' k (Nat.le_refl k), ?_⟩
  rw [hlisted k o' (ho' k (Nat.le_refl k)), hrest]

/-- **A document that is added and returned and is not listed**: it is the only one of its
owner, and the listing is empty. -/
theorem addition_unlisted :
    ∃ n o doc k o',
      (adding 65536 someSession ⟨fun _ => 1, 0⟩ (longDraft 4194000) emptyHost turns n).caller =
        .inr o ∧ added o = .ok doc ∧
      (listing { capacity := 65536 } { capacity := 65536 } someSession ⟨fun _ => 2, 0⟩ doc.owner
        (adding 65536 someSession ⟨fun _ => 1, 0⟩ (longDraft 4194000) emptyHost turns n).host
        turns k).caller = .inr o' ∧
      listed o' = .ok [] := by
  have hroom : Frame.sealedSize (longDraft 4194000).requestSize + 57 ≤ Frame.maxLength := by
    rw [requestSize_longDraft]
    decide
  obtain ⟨n, o, t, ho, hdoc, hadds⟩ := exists_added hroom (not_refused_longDraft (by decide))
  have hbefore (owner : String) : (Store.list owner emptyHost.store).1 = .ok [] := by
    -- the sort is by well-founded recursion, which does not reduce
    refine congrArg Except.ok ?_
    rw [Memory.list_eq, Memory.ranked]
    change ((([] : List Entry).mergeSort Entry.before).take listLimit).map (·.document) = []
    rw [List.mergeSort_nil, List.take_nil, List.map_nil]
  have hl : Listable _ (adding 65536 someSession ⟨fun _ => 1, 0⟩ (longDraft 4194000) emptyHost
      turns n).host _ :=
    listable_of_adds Store.mirrors_memory Memory.recorded_empty rfl hadds (hbefore _)
      (by simp) rfl
  obtain ⟨k, o', ho'⟩ := listing_ends (p := { capacity := 65536 }) (q := { capacity := 65536 }) hl
    someSession ⟨fun _ => 2, 0⟩ ⟨rfl, rfl⟩ ⟨rfl, rfl⟩ ⟨by decide, by decide⟩ calm_turns
    again_call_turns again_serve_turns
  have hlisted := lists_after hl ⟨rfl, rfl⟩ ⟨rfl, rfl⟩ ⟨by decide, by decide⟩ calm_turns
    (ho' k (Nat.le_refl k))
  have hsize : Dispatch.maxListBytes <
      (Wire.writeDocument ((longDraft 4194000).document t emptyHost.entropy).1).size := by
    have hle := (longDraft 4194000).le_size_response t emptyHost.entropy
    rw [Document.responseSize, Wire.size_encodeResponse_document, requestSize_longDraft] at hle
    have hlimit : Dispatch.maxListBytes = 4193280 := rfl
    omega
  refine ⟨n, o, _, k, o', ho, hdoc, ho' k (Nat.le_refl k), ?_⟩
  rw [hlisted]
  exact congrArg Except.ok (Dispatch.fitToFrame_cons_of_lt hsize _)

end Duplex

end Vault
