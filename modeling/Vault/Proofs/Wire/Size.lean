import Vault.Frame
import Vault.Proofs.Cbor.Parts
import Vault.Proofs.Crypto.Envelope
import Vault.Wire.Request

/-!
# How long a message is

The size of an encoding is a sum: a head is as wide as its argument needs
(`Vault.Cbor.Head.width`), a text adds its bytes to its head, a record adds up its names and
values. Sealing adds the version byte, the nonce and the tag; a frame adds its name and one
more head. So the size of the frame that carries a message depends on the size of the
message alone (`Vault.Frame.size_message_of_sealed`), and whether a request or a response
can be sent is a matter of arithmetic on the sizes of its texts. A failure that is told in few
words can always be sent (`Vault.Status.Brief.carries`).
-/

namespace Vault

/-! ### Texts -/

namespace Utf8

theorem size_encode_append (s t : String) :
    (encode (s ++ t)).size = (encode s).size + (encode t).size :=
  String.utf8ByteSize_append

theorem size_encode_ofList (l : List Char) :
    (encode (String.ofList l)).size = (l.map Char.utf8Size).sum := by
  induction l with
  | nil => rfl
  | cons c l ih =>
    have hcons : encode (String.ofList (c :: l)) = [c].utf8Encode ++ encode (String.ofList l) :=
      List.utf8Encode_cons
    have hone : ([c].utf8Encode).size = c.utf8Size := by
      simp [List.utf8Encode]
    rw [hcons, ByteArray.size_append, hone, ih, List.map_cons, List.sum_cons]

theorem size_encode_replicate (n : ℕ) :
    (encode (String.ofList (List.replicate n 'z'))).size = n := by
  rw [size_encode_ofList, List.map_replicate, List.sum_replicate_nat]
  exact Nat.mul_one n

/-- A character takes no more than four bytes. -/
theorem size_encode_le (s : String) : (encode s).size ≤ 4 * s.length := by
  rw [← String.ofList_toList (s := s), size_encode_ofList, String.length_ofList]
  induction s.toList with
  | nil => exact Nat.zero_le _
  | cons c l ih =>
    have hc := c.utf8Size_le_four
    rw [List.map_cons, List.sum_cons, List.length_cons]
    omega

end Utf8

/-! ### Items -/

namespace Cbor

namespace Head

@[simp] theorem size_write (major n : ℕ) : (write major n).size = width n := by
  unfold write width
  dsimp only
  split_ifs <;>
    simp only [ByteArray.size_append, ByteArray.size_push, ByteArray.size_empty,
      Bytes.size_ofNatBE, Nat.zero_add]

theorem width_pos (n : ℕ) : 0 < width n := by
  unfold width
  split_ifs <;> omega

theorem width_le (n : ℕ) : width n ≤ 9 := by
  unfold width
  split_ifs <;> omega

theorem width_mono {m n : ℕ} (h : m ≤ n) : width m ≤ width n := by
  unfold width
  split_ifs <;> omega

end Head

/-- The size of a text, its head included. -/
def textSize (s : String) : ℕ := Head.width (Utf8.encode s).size + (Utf8.encode s).size

@[simp] theorem size_writeText (s : String) : (writeText s).size = textSize s := by
  rw [writeText, ByteArray.size_append, Head.size_write, textSize]

@[simp] theorem size_writeBytes (b : Bytes) : (writeBytes b).size = Head.width b.size + b.size := by
  rw [writeBytes, ByteArray.size_append, Head.size_write]

@[simp] theorem size_writeVariant (name : String) (w : Bytes) :
    (writeVariant name w).size = 1 + textSize name + w.size := by
  rw [writeVariant, ByteArray.size_append, ByteArray.size_append, Head.size_write, size_writeText]
  rfl

theorem size_concat (ws : List Bytes) : (concat ws).size = (ws.map ByteArray.size).sum := by
  induction ws with
  | nil => rfl
  | cons w ws ih => rw [concat_cons, ByteArray.size_append, ih, List.map_cons, List.sum_cons]

/-- A record adds up its names and values. -/
@[simp] theorem size_writeRecord (fields : List (String × Bytes)) :
    (writeRecord fields).size = Head.width fields.length +
      (fields.map fun f => textSize f.1 + f.2.size).sum := by
  rw [writeRecord_eq, ByteArray.size_append, Head.size_write, size_concat, List.map_map]
  congr 3
  funext f
  simp only [Function.comp_apply, ByteArray.size_append, size_writeText]

theorem size_writeInt_pos (n : ℤ) : 0 < (writeInt n).size := by
  unfold writeInt
  split_ifs <;> simp only [Head.size_write, Head.width_pos]

theorem size_writeInt_le (n : ℤ) : (writeInt n).size ≤ 9 := by
  unfold writeInt
  split_ifs <;> simp only [Head.size_write, Head.width_le]

end Cbor

open Cbor

/-! ### Requests and responses -/

namespace Wire

theorem size_encodeRequest_add (owner content name : String) :
    (encodeRequest (.add owner content name)).size =
      25 + textSize owner + textSize content + textSize name := by
  have hnames : textSize "add" = 4 ∧ textSize "owner" = 6 ∧ textSize "content" = 8 ∧
      textSize "name" = 5 := by
    decide
  obtain ⟨hadd, howner, hcontent, hname⟩ := hnames
  simp only [encodeRequest, Request.tag, requestFields, size_writeVariant, size_writeRecord,
    List.map_cons, List.map_nil, List.sum_cons, List.sum_nil, List.length_cons, List.length_nil,
    size_writeText, hadd, howner, hcontent, hname]
  have hwidth : Head.width (0 + 1 + 1 + 1) = 1 := rfl
  omega

theorem size_writeDocument (d : Document) :
    (writeDocument d).size = 29 + textSize d.id + textSize d.owner + textSize d.content +
      (writeInt d.createdAt.micros).size := by
  have hnames : textSize "id" = 3 ∧ textSize "owner" = 6 ∧ textSize "content" = 8 ∧
      textSize "created_at" = 11 := by
    decide
  obtain ⟨hid, howner, hcontent, hcreated⟩ := hnames
  simp only [writeDocument, size_writeRecord, List.map_cons, List.map_nil, List.sum_cons,
    List.sum_nil, List.length_cons, List.length_nil, size_writeText, hid, howner, hcontent,
    hcreated]
  have hwidth : Head.width (0 + 1 + 1 + 1 + 1) = 1 := rfl
  omega

theorem size_encodeResponse_document (d : Document) :
    (encodeResponse (.document d)).size = 10 + (writeDocument d).size := by
  have hname : textSize "document" = 9 := by decide
  rw [encodeResponse, size_writeVariant, hname]

theorem size_writeStatus_le (s : Status) : (writeStatus s).size ≤ 31 + textSize s.message := by
  have hnames : textSize "kind" = 5 ∧ textSize "message" = 8 := by decide
  have hkind : textSize s.kind.name ≤ 17 := by
    cases s.kind <;> decide
  obtain ⟨hk, hm⟩ := hnames
  simp only [writeStatus, size_writeRecord, List.map_cons, List.map_nil, List.sum_cons,
    List.sum_nil, List.length_cons, List.length_nil, size_writeText, hk, hm]
  have hwidth : Head.width (0 + 1 + 1) = 1 := rfl
  omega

end Wire

/-- An id is longer than the name in it by two digits for each random byte. -/
theorem Document.size_idOf (name : String) (suffix : Bytes) :
    (Utf8.encode (idOf name suffix)).size = (Utf8.encode name).size + 2 * suffix.size := by
  have hone (n : ℕ) (hn : n ∈ suffix.hexDigits.map Char.utf8Size) : n = 1 := by
    obtain ⟨c, hc, rfl⟩ := List.mem_map.mp hn
    refine Char.utf8Size_eq_one_iff.mpr ?_
    rcases Bytes.hexDigits_range hc with ⟨-, hle⟩ | ⟨-, hle⟩
    · exact UInt32.le_trans hle (by decide)
    · exact UInt32.le_trans hle (by decide)
  rw [idOf, Utf8.size_encode_append, Bytes.hex_eq_ofList, Utf8.size_encode_ofList,
    List.eq_replicate_of_mem hone, List.sum_replicate_nat, List.length_map,
    Bytes.length_hexDigits, Nat.mul_one]

/-! ### Envelopes and frames -/

/-- An envelope is longer than its message by the version, the nonce and the tag. -/
theorem Crypto.Envelope.size_of_sealFresh {s : SharedSecret} {plain envelope : Bytes}
    {e e' : Entropy} (h : sealFresh s plain e = (.ok envelope, e')) :
    envelope.size = plain.size + minBytes := by
  have hseal : sealWith s (e.draw nonceBytes).1 plain = .ok envelope := congrArg Prod.fst h
  rw [sealWith] at hseal
  split_ifs at hseal
  rw [← Except.ok.inj hseal, size_assemble (Entropy.size_draw e nonceBytes) (size_tagOf _ _ _),
    ChaCha20.size_apply, minBytes]
  omega

namespace Frame

@[simp] theorem size_message (b : Bytes) :
    (message b).encodeBody.size = 9 + Head.width b.size + b.size := by
  have hname : textSize "message" = 8 := by decide
  rw [encodeBody, size_writeVariant, size_writeBytes, hname]
  omega

theorem size_abort_le (s : Status) : (abort s).encodeBody.size ≤ 38 + textSize s.message := by
  have hname : textSize "abort" = 6 := by decide
  have hstatus := Wire.size_writeStatus_le s
  rw [encodeBody, size_writeVariant, hname]
  omega

/-- **The size of the frame that carries a message** of this size in an envelope. -/
def sealedSize (n : ℕ) : ℕ :=
  9 + Head.width (n + Crypto.Envelope.minBytes) + (n + Crypto.Envelope.minBytes)

/-- A frame can carry a message of this size in an envelope. -/
def Carries (n : ℕ) : Prop := sealedSize n ≤ maxLength

theorem size_message_of_sealed {s : Crypto.SharedSecret} {plain envelope : Bytes} {e e' : Entropy}
    (h : Crypto.Envelope.sealFresh s plain e = (.ok envelope, e')) :
    (message envelope).encodeBody.size = sealedSize plain.size := by
  rw [size_message, Crypto.Envelope.size_of_sealFresh h, sealedSize]

/-- A message that cannot be sealed is far too long for a frame. -/
theorem not_carries_of_unsealed {s : Crypto.SharedSecret} {plain : Bytes} {err : Crypto.Error}
    {e e' : Entropy} (h : Crypto.Envelope.sealFresh s plain e = (.error err, e')) :
    ¬Carries plain.size := by
  by_cases hlong : Crypto.Envelope.tooLong plain.size = true
  · have hblocks : Crypto.Envelope.blockLimit ≤ plain.size / 64 := of_decide_eq_true hlong
    have hlimit : Crypto.Envelope.blockLimit = 4294967295 := rfl
    have hmax : maxLength = 4194304 := rfl
    rw [Carries, sealedSize]
    omega
  · obtain ⟨envelope, hseal, -⟩ := Crypto.Envelope.sealFresh_of_not_tooLong s hlong e
    rw [h] at hseal
    exact nomatch hseal

end Frame

/-! ### Statuses in few words -/

namespace Status

/-- A status whose message is no more than a few words. -/
def Brief (s : Status) : Prop := (Utf8.encode s.message).size ≤ 256

theorem Brief.textSize_le {s : Status} (hs : s.Brief) : Cbor.textSize s.message ≤ 265 := by
  have hwidth := Cbor.Head.width_le (Utf8.encode s.message).size
  rw [Brief] at hs
  rw [Cbor.textSize]
  omega

/-- The envelope of a brief status fits a frame. -/
theorem Brief.carries {s : Status} (hs : s.Brief) :
    Frame.Carries (Wire.encodeResponse (.error s)).size := by
  have hname : Cbor.textSize "error" = 6 := by decide
  have hstatus := Wire.size_writeStatus_le s
  have htext := hs.textSize_le
  have hsize : (Wire.encodeResponse (.error s)).size ≤ 400 := by
    rw [Wire.encodeResponse, Cbor.size_writeVariant, hname]
    omega
  have hwidth := Cbor.Head.width_le
    ((Wire.encodeResponse (.error s)).size + Crypto.Envelope.minBytes)
  have hmin : Crypto.Envelope.minBytes = 29 := rfl
  have hmax : Frame.maxLength = 4194304 := rfl
  rw [Frame.Carries, Frame.sealedSize]
  omega

end Status

namespace Request

theorem mem_names_of_firstShort? {r : Request} {field : String} (h : r.firstShort? = some field) :
    field ∈ ["owner", "name", "content", "id"] := by
  obtain ⟨f, hf, rfl⟩ := Option.map_eq_some_iff.mp h
  have hchecked := List.mem_of_find?_eq_some hf
  cases r with
  | add owner content name =>
    simp only [checkedFields, List.mem_cons, List.not_mem_nil, or_false] at hchecked
    rcases hchecked with rfl | rfl | rfl <;> simp
  | get id =>
    obtain rfl := List.mem_singleton.mp hchecked
    simp
  | list owner =>
    obtain rfl := List.mem_singleton.mp hchecked
    simp

/-- The complaint about a short field is brief: it has the name of the field and not its text. -/
theorem brief_of_validate {r : Request} {s : Status} (h : r.validate = .error s) : s.Brief := by
  have hnames : ∀ field ∈ ["owner", "name", "content", "id"],
      (Utf8.encode (field ++ " is too short")).size ≤ 256 := by
    decide
  rw [validate] at h
  rcases hfield : r.firstShort? with _ | field
  · rw [hfield] at h
    cases h
  · rw [hfield] at h
    obtain rfl := Except.error.inj h
    exact hnames field (mem_names_of_firstShort? hfield)

end Request

end Vault
