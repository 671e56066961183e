import Vault.Frame
import Vault.Proofs.Cbor.Parts

/-!
# Responses and frames read back

A response or a frame is written as a variant whose value is a record, an array of
records or a string, and read by the readers of `Vault.Wire` and `Vault.Frame`. Here the
two are shown to fit (`Vault.Wire.decodeResponse_encodeResponse`,
`Vault.Frame.decodeBody_encodeBody`), with any bytes after them.

The only way to miss is a length that does not fit eight bytes
(`Vault.Response.Addressable`). An encoding below `2 ^ 64` bytes has no room for such a
length, so whoever has a limit on what is sent has this for free.
-/

namespace Vault

namespace Cbor

theorem size_encode_le_writeText (s : String) : (Utf8.encode s).size ≤ (writeText s).size := by
  rw [writeText, ByteArray.size_append]
  exact Nat.le_add_left _ _

theorem size_le_writeBytes (b : Bytes) : b.size ≤ (writeBytes b).size := by
  rw [writeBytes, ByteArray.size_append]
  exact Nat.le_add_left _ _

theorem size_le_writeVariant (name : String) (w : Bytes) :
    w.size ≤ (writeVariant name w).size := by
  rw [writeVariant, ByteArray.size_append]
  exact Nat.le_add_left _ _

/-- The value of a field is no longer than the record. -/
theorem size_le_writeRecord {fields : List (String × Bytes)} {f : String × Bytes}
    (h : f ∈ fields) : f.2.size ≤ (writeRecord fields).size := by
  have hmem : writeText f.1 ++ f.2 ∈ fields.map fun f => writeText f.1 ++ f.2 :=
    List.mem_map_of_mem h
  have hle := size_le_concat hmem
  rw [ByteArray.size_append] at hle
  rw [writeRecord_eq, ByteArray.size_append]
  omega

/-- A text whose length fits eight bytes. -/
def Addressable (s : String) : Prop := (Utf8.encode s).size < 2 ^ 64

instance (s : String) : Decidable (Addressable s) := inferInstanceAs (Decidable (_ < _))

/-- A text in a field of a short enough record is short enough. -/
theorem addressable_of_field {fields : List (String × Bytes)} (name : String) {s : String}
    (hsize : (writeRecord fields).size < 2 ^ 64) (h : (name, writeText s) ∈ fields) :
    Addressable s := by
  have h1 := size_encode_le_writeText s
  have h2 := size_le_writeRecord h
  dsimp only at h2
  rw [Addressable]
  omega

end Cbor

open Cbor

/-- A document whose texts have lengths that fit eight bytes. -/
def Document.Addressable (d : Document) : Prop :=
  Cbor.Addressable d.id ∧ Cbor.Addressable d.owner ∧ Cbor.Addressable d.content

instance (d : Document) : Decidable d.Addressable := inferInstanceAs (Decidable (_ ∧ _ ∧ _))

/-- A response all of whose lengths fit eight bytes. -/
def Response.Addressable : Response → Prop
  | .document d => d.Addressable
  | .documents ds => ds.length < 2 ^ 64 ∧ ∀ d ∈ ds, d.Addressable
  | .error s => Cbor.Addressable s.message

instance : DecidablePred Response.Addressable
  | .document d => inferInstanceAs (Decidable d.Addressable)
  | .documents ds => inferInstanceAs (Decidable (ds.length < 2 ^ 64 ∧ ∀ d ∈ ds, d.Addressable))
  | .error s => inferInstanceAs (Decidable (Cbor.Addressable s.message))

namespace Wire

/-! ### Statuses -/

theorem readsBack_kind (depth : ℕ) (k : ErrorKind) :
    ReadsBack (plainVariant kinds (depth + 1)) (writeText k.name) k :=
  readsBack_plainVariant (k.name, k) (by cases k <;> decide)
    (by cases k <;> decide)

theorem addressable_of_status {s : Status} (hs : (writeStatus s).size < 2 ^ 64) :
    Addressable s.message :=
  addressable_of_field "message" hs (by simp)

theorem readsBack_status (depth : ℕ) {s : Status} (hm : Addressable s.message) :
    ReadsBack (readStatus (depth + 2)) (writeStatus s) s := by
  have hfills : Fills (statusField (depth + 1)) {}
      [("kind", writeText s.kind.name), ("message", writeText s.message)]
      ⟨some s.kind, some s.message⟩ := by
    refine .cons (t := ⟨some s.kind, none⟩) (by decide) ?_
      (.cons (by decide) ?_ (.nil _))
    · exact readsBack_once "kind" (readsBack_kind depth s.kind)
        fun k => StatusFields.mk (some k) none
    · exact readsBack_once "message" (readsBack_string hm)
        fun m => StatusFields.mk (some s.kind) (some m)
  intro c rest hc
  have hrecord := readsBack_record hfills (by simp) c rest hc
  simp only [readStatus, hrecord, bind, Except.bind, required]
  rfl

/-! ### Documents -/

theorem addressable_of_document {d : Document} (hd : (writeDocument d).size < 2 ^ 64) :
    d.Addressable :=
  ⟨addressable_of_field "id" hd (by simp), addressable_of_field "owner" hd (by simp),
    addressable_of_field "content" hd (by simp)⟩

theorem readsBack_document (depth : ℕ) {d : Document} (hd : d.Addressable) :
    ReadsBack (readDocument (depth + 1)) (writeDocument d) d := by
  obtain ⟨hid, howner, hcontent⟩ := hd
  have hfills : Fills (documentField depth) {}
      [("id", writeText d.id), ("owner", writeText d.owner), ("content", writeText d.content),
        ("created_at", writeInt d.createdAt.micros)]
      ⟨some d.id, some d.owner, some d.content, some d.createdAt⟩ := by
    refine .cons (t := ⟨some d.id, none, none, none⟩) (by decide) ?_
      (.cons (t := ⟨some d.id, some d.owner, none, none⟩) (by decide) ?_
        (.cons (t := ⟨some d.id, some d.owner, some d.content, none⟩) (by decide) ?_
          (.cons (by decide) ?_ (.nil _))))
    · exact readsBack_once "id" (readsBack_string hid)
        fun v => DocumentFields.mk (some v) none none none
    · exact readsBack_once "owner" (readsBack_string howner)
        fun v => DocumentFields.mk (some d.id) (some v) none none
    · exact readsBack_once "content" (readsBack_string hcontent)
        fun v => DocumentFields.mk (some d.id) (some d.owner) (some v) none
    · exact readsBack_once "created_at" (readsBack_timestamp d.createdAt)
        fun v => DocumentFields.mk (some d.id) (some d.owner) (some d.content) (some v)
  intro c rest hc
  have hrecord := readsBack_record hfills (by simp) c rest hc
  simp only [readDocument, hrecord, bind, Except.bind, required]
  rfl

theorem writeDocuments_eq (ds : List Document) :
    writeDocuments ds = Head.write 4 ds.length ++ concat (ds.map writeDocument) := by
  rw [writeDocuments, foldl_append]

theorem size_writeDocument_pos (d : Document) : 0 < (writeDocument d).size := by
  rw [writeDocument, writeRecord_eq, ByteArray.size_append]
  have := Head.size_write_pos 5 (List.length [("id", writeText d.id), ("owner", writeText d.owner),
    ("content", writeText d.content), ("created_at", writeInt d.createdAt.micros)])
  omega

/-- Every document takes a byte, so there are no more of them than bytes. -/
theorem length_le_concat (ds : List Document) :
    ds.length ≤ (concat (ds.map writeDocument)).size := by
  induction ds with
  | nil => exact Nat.zero_le _
  | cons d ds ih =>
    have hd := size_writeDocument_pos d
    rw [List.map_cons, concat_cons, ByteArray.size_append, List.length_cons]
    omega

theorem addressable_of_documents {ds : List Document} (hds : (writeDocuments ds).size < 2 ^ 64) :
    ds.length < 2 ^ 64 ∧ ∀ d ∈ ds, d.Addressable := by
  rw [writeDocuments_eq, ByteArray.size_append] at hds
  refine ⟨?_, fun d hd => addressable_of_document ?_⟩
  · have := length_le_concat ds
    omega
  · have := size_le_concat (List.mem_map_of_mem (f := writeDocument) hd)
    omega

theorem readsBack_documents (depth : ℕ) {ds : List Document} (hlen : ds.length < 2 ^ 64)
    (hds : ∀ d ∈ ds, d.Addressable) :
    ReadsBack (readDocuments (depth + 2)) (writeDocuments ds) ds := by
  have hitems : ∀ d ∈ ds, ReadsBack (readDocument (depth + 1)) (writeDocument d) (id d) :=
    fun d hd => readsBack_document depth (hds d hd)
  intro c rest hc
  rw [writeDocuments_eq] at hc ⊢
  obtain ⟨hhead, hbody⟩ := Cursor.Sees.append hc
  have hh : headAt c = .ok (.array (some ds.length), c.pos, c.skip _) :=
    headAt_write 4 (by omega) hlen hhead
  have hread := readsBack_series hitems _ rest hbody
  rw [List.map_id] at hread
  rw [readDocuments, hh, ← Cursor.skip_append]
  exact hread

/-! ### Responses -/

theorem readsBack_mapValue {α β : Type} {p : Cursor → Except Error (α × Cursor)} {w : Bytes}
    {a : α} (h : ReadsBack p w a) (f : α → β) : ReadsBack (fun c => mapValue f (p c)) w (f a) := by
  intro c rest hc
  simp only [mapValue, h c rest hc]

theorem addressable_of_response {r : Response} (hr : (encodeResponse r).size < 2 ^ 64) :
    r.Addressable := by
  cases r with
  | document d =>
    exact addressable_of_document (lt_of_le_of_lt (size_le_writeVariant "document" _) hr)
  | documents ds =>
    exact addressable_of_documents (lt_of_le_of_lt (size_le_writeVariant "documents" _) hr)
  | error s => exact addressable_of_status (lt_of_le_of_lt (size_le_writeVariant "error" _) hr)

theorem readsBack_response (depth : ℕ) {r : Response} (hr : r.Addressable) :
    ReadsBack (readResponse (depth + 3)) (encodeResponse r) r := by
  cases r with
  | document d =>
    exact readsBack_variant (by decide)
      (readsBack_mapValue (readsBack_document (depth + 1) hr) _)
  | documents ds =>
    exact readsBack_variant (by decide)
      (readsBack_mapValue (readsBack_documents depth hr.1 hr.2) _)
  | error s =>
    exact readsBack_variant (by decide) (readsBack_mapValue (readsBack_status depth hr) _)

/-- **A response reads back**, whatever follows it. -/
theorem decodeResponse_append {r : Response} (hr : r.Addressable) (t : Bytes) :
    decodeResponse (encodeResponse r ++ t) = .ok r := by
  have hsees := Cursor.sees_zero (encodeResponse r ++ t)
  rw [Bytes.octets_append] at hsees
  have hread : readResponse maxDepth ⟨encodeResponse r ++ t, 0⟩ = .ok (r, _) :=
    readsBack_response 253 hr _ _ hsees
  rw [decodeResponse, hread]

theorem decodeResponse_encodeResponse {r : Response} (hr : (encodeResponse r).size < 2 ^ 64)
    (t : Bytes) : decodeResponse (encodeResponse r ++ t) = .ok r :=
  decodeResponse_append (addressable_of_response hr) t

end Wire

/-! ### Frames -/

namespace Frame

theorem readsBack_method (depth : ℕ) (m : Method) :
    ReadsBack (plainVariant Method.table (depth + 1)) (writeText m.name) m :=
  readsBack_plainVariant (m.name, m) (by cases m <;> decide)
    (by cases m <;> decide)

theorem readsBack_body (depth : ℕ) {f : Frame} (hf : f.encodeBody.size < 2 ^ 64) :
    ReadsBack (variant (depth + 3) bodyVariant) f.encodeBody f := by
  cases f with
  | «open» m =>
    exact readsBack_variant (by decide)
      (Wire.readsBack_mapValue (readsBack_method (depth + 1) m) Frame.open)
  | message b =>
    have hw := size_le_writeVariant "message" (writeBytes b)
    have hb := size_le_writeBytes b
    exact readsBack_variant (by decide) (Wire.readsBack_mapValue
      (readsBack_byteBuffer (depth + 2) (lt_of_le_of_lt (hb.trans hw) hf)) Frame.message)
  | «end» => exact readsBack_variant_name (by decide) fun c => rfl
  | abort s =>
    have hs := size_le_writeVariant "abort" (Wire.writeStatus s)
    exact readsBack_variant (by decide)
      (Wire.readsBack_mapValue (Wire.readsBack_status depth
        (Wire.addressable_of_status (lt_of_le_of_lt hs hf))) Frame.abort)

/-- **The body of a frame reads back**, whatever follows it. -/
theorem decodeBody_encodeBody {f : Frame} (hf : f.encodeBody.size < 2 ^ 64) (t : Bytes) :
    decodeBody (f.encodeBody ++ t) = .ok f := by
  have hsees := Cursor.sees_zero (f.encodeBody ++ t)
  rw [Bytes.octets_append] at hsees
  have hread : variant maxDepth bodyVariant ⟨f.encodeBody ++ t, 0⟩ = .ok (f, _) :=
    readsBack_body 253 hf _ _ hsees
  rw [decodeBody, hread]

end Frame

end Vault
