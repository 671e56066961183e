import Vault.Proofs.Frame.Stream
import Vault.Proofs.Wire.Response
import Vault.Wire.Request

/-!
# Every encoding reads back

What travels between client and server is written in three languages: requests, responses
and frames. Each has a reader that ignores what follows, and each reader finds back what was
written, whatever that is and whatever follows it (`Vault.Wire.encodings_read_back`). So an
encoding belongs to one value only, and none is the front of another.

Responses and frames are read straight into their types (`Vault.Wire.decodeResponse_append`,
`Vault.Frame.decodeBody_encodeBody`). Requests take a detour: the bytes are read as an item
of whatever shape they have, and the item is looked at afterwards. There the argument is in
two steps. A record of texts reads back as a map of texts
(`Vault.Cbor.Item.readsBack_record`), and the map with the fields of a request stands for
that request (`Vault.Wire.ofItem_shape`).
-/

namespace Vault

namespace Cbor.Item

/-! ### Reading back items -/

variable {s : String}

/-- A text reads back as an item at any depth. -/
theorem readsBack_text (depth : ℕ) (hs : Addressable s) :
    ReadsBack (read depth) (writeText s) (text s) := by
  intro c rest hc
  obtain ⟨hhead, hbody⟩ := Cursor.Sees.append hc
  have hh : Head.read c = .ok (.text (some _), c.skip _) :=
    readsBack_write 3 (by omega) hs c _ hhead
  rw [read_eq_readWith, readWith, hh]
  dsimp only [readContent]
  rw [textAfter, definiteText, hbody.take?]
  dsimp only
  rw [Utf8.decode?_encode, wrap, Cursor.skip_append]
  rfl

/-- A key and a value, one after the other. -/
theorem readsBack_pair {item : Cursor → Except Error (Item × Cursor)} {u w : Bytes} {k v : Item}
    (hk : ReadsBack item u k) (hv : ReadsBack item w v) :
    ReadsBack (pair item) (u ++ w) (k, v) := by
  intro c rest hc
  obtain ⟨hfirst, hrest⟩ := Cursor.Sees.append hc
  rw [pair, hk c _ hfirst]
  dsimp only
  rw [hv _ rest hrest, Cursor.skip_append]

/-- A map of known length reads back, pair by pair. -/
theorem readsBack_map {β : Type} {depth : ℕ} {write : β → Bytes} {value : β → Item × Item}
    {xs : List β} (hlen : xs.length < 2 ^ 64)
    (h : ∀ x ∈ xs, ReadsBack (pair (read depth)) (write x) (value x)) :
    ReadsBack (read (depth + 1)) (Head.write 5 xs.length ++ concat (xs.map write))
      (map (xs.map value)) := by
  intro c rest hc
  obtain ⟨hhead, hbody⟩ := Cursor.Sees.append hc
  have hh : Head.read c = .ok (.map (some _), c.skip _) :=
    readsBack_write 5 (by omega) hlen c _ hhead
  rw [read, readWith, hh]
  dsimp only [readContent]
  rw [readsBack_series h _ rest hbody, wrap, Cursor.skip_append]

/-- **A record of texts reads back as a map of texts.** -/
theorem readsBack_record (depth : ℕ) {fields : List (String × String)}
    (hlen : fields.length < 2 ^ 64)
    (h : ∀ f ∈ fields, Addressable f.1 ∧ Addressable f.2) :
    ReadsBack (read (depth + 1)) (writeRecord (fields.map fun f => (f.1, writeText f.2)))
      (map (fields.map fun f => (text f.1, text f.2))) := by
  rw [writeRecord_eq, List.length_map, List.map_map]
  refine readsBack_map hlen fun f hf => ?_
  exact readsBack_pair (readsBack_text depth (h f hf).1) (readsBack_text depth (h f hf).2)

/-- A variant reads back as a map of one entry. -/
theorem readsBack_variant {depth : ℕ} {w : Bytes} {i : Item} (hs : Addressable s)
    (h : ReadsBack (read depth) w i) :
    ReadsBack (read (depth + 1)) (writeVariant s w) (map [(text s, i)]) := by
  have hone : ReadsBack (read (depth + 1))
      (Head.write 5 [w].length ++ concat ([w].map fun w => writeText s ++ w))
      (map ([w].map fun _ => (text s, i))) := by
    refine readsBack_map (by simp) fun x hx => ?_
    rw [List.mem_singleton.mp hx]
    exact readsBack_pair (readsBack_text depth hs) h
  rw [writeVariant_eq]
  simpa using hone

end Cbor.Item

open Cbor

/-! ### Requests -/

/-- A request all of whose lengths fit eight bytes. -/
def Request.Addressable (r : Request) : Prop := ∀ f ∈ Wire.requestFields r, Cbor.Addressable f.2

instance : DecidablePred Request.Addressable := fun r =>
  inferInstanceAs (Decidable (∀ f ∈ Wire.requestFields r, Cbor.Addressable f.2))

namespace Wire

/-- The item that a request is written as. -/
def shape (r : Request) : Item :=
  .map [(.text r.tag, .map ((requestFields r).map fun f => (.text f.1, .text f.2)))]

/-- **The item of a request stands for it.** -/
theorem ofItem_shape (r : Request) : ofItem (shape r) = .ok r := by
  cases r with
  | add owner content name => rfl
  | get id => rfl
  | list owner => rfl

theorem readsBack_shape (depth : ℕ) {r : Request} (hr : r.Addressable) :
    ReadsBack (Item.read (depth + 2)) (encodeRequest r) (shape r) := by
  have hnames : Cbor.Addressable r.tag ∧ (requestFields r).length < 2 ^ 64 ∧
      ∀ f ∈ requestFields r, Cbor.Addressable f.1 := by
    cases r <;> simp only [Request.tag, requestFields, List.forall_mem_cons, List.length_cons] <;>
      decide +kernel
  obtain ⟨htag, hlen, hfields⟩ := hnames
  exact Item.readsBack_variant htag
    (Item.readsBack_record depth hlen fun f hf => ⟨hfields f hf, hr f hf⟩)

/-- **A request reads back**, whatever follows it. -/
theorem decodeRequest_append {r : Request} (hr : r.Addressable) (t : Bytes) :
    decodeRequest (encodeRequest r ++ t) = .ok r := by
  have hsees := Cursor.sees_zero (encodeRequest r ++ t)
  rw [Bytes.octets_append] at hsees
  have hread : Item.read maxDepth ⟨encodeRequest r ++ t, 0⟩ = .ok (shape r, _) :=
    readsBack_shape 254 hr _ _ hsees
  have hsize : (encodeRequest r ++ t).size ≠ 0 := by
    have hpos := Head.size_write_pos 5 1
    rw [encodeRequest, writeVariant_eq]
    simp only [ByteArray.size_append]
    omega
  rw [decodeRequest, if_neg hsize, Item.ofBytes, hread]
  exact ofItem_shape r

/-- A request that is not enormous is read back. -/
theorem decodeRequest_encodeRequest {r : Request} (hr : (encodeRequest r).size < 2 ^ 64) :
    decodeRequest (encodeRequest r) = .ok r := by
  have haddressable : r.Addressable := fun f hf =>
    addressable_of_field f.1 (lt_of_le_of_lt (size_le_writeVariant r.tag _) hr)
      (List.mem_map_of_mem (f := fun f : String × String => (f.1, writeText f.2)) hf)
  have hdecode := decodeRequest_append haddressable ByteArray.empty
  rwa [ByteArray.append_empty] at hdecode

/-! ### Languages -/

/-- **What is written is read back**, for all values with a property and whatever follows. -/
def Decodes {α ε : Type} (P : α → Prop) (encode : α → Bytes) (decode : Bytes → Except ε α) : Prop :=
  ∀ a, P a → ∀ t, decode (encode a ++ t) = .ok a

/-- **No encoding is the front of another**, and none belongs to two values. -/
def PrefixFree {α : Type} (P : α → Prop) (encode : α → Bytes) : Prop :=
  ∀ a b, P a → P b → ∀ t, encode a ++ t = encode b → a = b ∧ t = ByteArray.empty

theorem Decodes.prefixFree {α ε : Type} {P : α → Prop} {encode : α → Bytes}
    {decode : Bytes → Except ε α} (h : Decodes P encode decode) : PrefixFree P encode := by
  intro a b ha hb t heq
  have hsame : Except.ok (ε := ε) a = .ok b := by
    rw [← h a ha t, heq, ← h b hb ByteArray.empty, ByteArray.append_empty]
  obtain rfl := Except.ok.inj hsame
  refine ⟨rfl, Bytes.ext_octets ?_⟩
  have hsize := congrArg ByteArray.size heq
  rw [ByteArray.size_append] at hsize
  exact List.eq_nil_of_length_eq_zero (by rw [Bytes.length_octets]; omega)

end Wire

/-! ### Frames behind their lengths -/

namespace Frame

variable {f g : Frame} {b c : Bytes}

/-- What is written of a frame: its body behind the length of its body. -/
theorem fits_of_encode (h : f.encode = .ok b) : f.Fits ∧ b = f.onWire := by
  by_cases hf : f.Fits
  · rw [encode_of_fits hf] at h
    exact ⟨hf, (Except.ok.inj h).symm⟩
  · rw [encode_of_not_fits hf] at h
    exact nomatch h

theorem decodes_body : Wire.Decodes Fits encodeBody decodeBody := by
  intro f hf t
  exact decodeBody_encodeBody (lt_of_le_of_lt hf (by decide)) t

/-- Behind their lengths, no frame is the front of another either: the lengths are equally
long, so one body would be the front of the other. -/
theorem prefixFree_onWire : Wire.PrefixFree Fits onWire := by
  intro f g hf hg t heq
  refine decodes_body.prefixFree f g hf hg t (Bytes.ext_octets ?_)
  have hdrop := congrArg (fun b => (Bytes.octets b).drop lengthBytes) heq
  rwa [Bytes.octets_append, List.drop_append_of_le_length, ← Bytes.octets_drop, ← Bytes.octets_drop,
    drop_onWire, drop_onWire, ← Bytes.octets_append] at hdrop
  rw [Bytes.length_octets, size_onWire]
  exact Nat.le_add_right _ _

end Frame

/-! ### The three languages -/

namespace Wire

/-- **Every encoding reads back**, with any bytes after it: of every request and response whose
lengths fit eight bytes, and of every frame that is not too long to be sent. What is sent of a
frame are four bytes, which hold the length of its body, and then its body. In each language
no encoding is the front of another value's, nor that of two values. -/
theorem encodings_read_back :
    (Decodes Request.Addressable encodeRequest decodeRequest ∧
      PrefixFree Request.Addressable encodeRequest) ∧
    (Decodes Response.Addressable encodeResponse decodeResponse ∧
      PrefixFree Response.Addressable encodeResponse) ∧
    (∀ (f : Frame) b, f.encode = .ok b →
      (Bytes.take b Frame.lengthBytes).size = 4 ∧
      Bytes.natBE (Bytes.take b Frame.lengthBytes) = (Bytes.drop b Frame.lengthBytes).size ∧
      ∀ t, Frame.decodeBody (Bytes.drop b Frame.lengthBytes ++ t) = .ok f) ∧
    ∀ (f g : Frame) b c, f.encode = .ok b → g.encode = .ok c → ∀ t,
      b ++ t = c ∨ Bytes.drop b Frame.lengthBytes ++ t = Bytes.drop c Frame.lengthBytes →
      f = g ∧ t = ByteArray.empty := by
  have hrequests : Decodes Request.Addressable encodeRequest decodeRequest :=
    fun _ hr => decodeRequest_append hr
  have hresponses : Decodes Response.Addressable encodeResponse decodeResponse :=
    fun _ hs => decodeResponse_append hs
  refine ⟨⟨hrequests, hrequests.prefixFree⟩, ⟨hresponses, hresponses.prefixFree⟩, ?_, ?_⟩
  · intro f b hb
    obtain ⟨hf, rfl⟩ := Frame.fits_of_encode hb
    have hsmall : f.encodeBody.size < 256 ^ Frame.lengthBytes := lt_of_le_of_lt hf (by decide)
    rw [Frame.take_onWire, Frame.drop_onWire, Bytes.size_ofNatBE, Bytes.natBE_ofNatBE]
    exact ⟨rfl, Nat.mod_eq_of_lt hsmall, Frame.decodes_body f hf⟩
  · intro f g b c hb hc t heq
    obtain ⟨hf, rfl⟩ := Frame.fits_of_encode hb
    obtain ⟨hg, rfl⟩ := Frame.fits_of_encode hc
    rw [Frame.drop_onWire, Frame.drop_onWire] at heq
    rcases heq with heq | heq
    · exact Frame.prefixFree_onWire f g hf hg t heq
    · exact Frame.decodes_body.prefixFree f g hf hg t heq

/-- Two documents, one of them from before the epoch and in letters of several bytes, with
bytes behind them; a request of several fields; and a frame that says why it was given up. -/
theorem encodings_read_back_mixed :
    let old : Document :=
      ⟨"дело-5f", "właściciel", "content ≥ 24 bytes, in two widths", .clamp (-25)⟩
    let new : Document := ⟨"late", "owner", "", .clamp (2 ^ 40)⟩
    decodeResponse (encodeResponse (.documents [old, new]) ++ ⟨#[0xff, 0]⟩) =
        .ok (.documents [old, new]) ∧
      decodeRequest (encodeRequest (.add "właściciel" "content" "дело") ++ ⟨#[0x61]⟩) =
        .ok (.add "właściciel" "content" "дело") ∧
      ∃ b, (Frame.abort (.internal "gone")).encode = .ok b ∧
        Frame.decodeBody (Bytes.drop b Frame.lengthBytes ++ ⟨#[0]⟩) =
          .ok (.abort (.internal "gone")) := by
  obtain ⟨⟨hrequests, -⟩, ⟨hresponses, -⟩, hframes, -⟩ := encodings_read_back
  have hsent := Frame.encode_of_fits (f := .abort (.internal "gone")) (by decide +kernel)
  exact ⟨hresponses _ (by decide +kernel) _, hrequests _ (by decide +kernel) _, _, hsent,
    (hframes _ _ hsent).2.2 _⟩

end Wire

end Vault
