import Vault.Crypto.Envelope
import Vault.Proofs.Bytes

/-!
# An envelope opens to what was sealed in it

Sealing puts a version byte, a nonce, the enciphered message and a tag one after the
other. Opening takes them apart again, and what it finds is what was put there: the
offsets are those of the parts, the tag is computed from the same key, nonce and cipher
text, and the keystream depends on the size of the message alone, so applying it twice
gives the message back (`Vault.Crypto.ChaCha20.apply_apply`). The result is
`Vault.Crypto.Envelope.reveal_sealWith`. Sealing fails for messages beyond the block
counter and for nothing else.
-/

namespace Vault.Crypto

/-! ### The keystream -/

namespace ChaCha20

theorem size_pushWord (b : Bytes) (x : UInt32) : (pushWord b x).size = b.size + 4 := by
  rw [pushWord, ByteArray.size_push, ByteArray.size_push, ByteArray.size_push,
    ByteArray.size_push]

theorem size_push (s : State) (b : Bytes) : (s.push b).size = b.size + 64 := by
  simp only [State.push, Row.push, size_pushWord]

theorem size_pushBlocks (key nonce : Bytes) (n : ℕ) (counter : UInt32) (acc : Bytes) :
    (pushBlocks key nonce n counter acc).size = acc.size + 64 * n := by
  induction n generalizing counter acc with
  | zero => rfl
  | succ n ih =>
    rw [pushBlocks, ih, size_push]
    omega

/-- There is enough keystream. -/
theorem le_size_keystream (key nonce : Bytes) (counter : UInt32) (size : ℕ) :
    size ≤ (keystream key nonce counter size).size := by
  rw [keystream, size_pushBlocks]
  omega

theorem size_apply (key nonce : Bytes) (counter : UInt32) (b : Bytes) :
    (apply key nonce counter b).size = b.size := by
  have := le_size_keystream key nonce counter b.size
  rw [apply, Bytes.size_xor]
  omega

/-- **The cipher undoes itself.** -/
theorem apply_apply (key nonce : Bytes) (counter : UInt32) (b : Bytes) :
    apply key nonce counter (apply key nonce counter b) = b := by
  have hsize := size_apply key nonce counter b
  rw [apply, hsize, apply]
  exact Bytes.xor_xor_cancel (le_size_keystream key nonce counter b.size)

end ChaCha20

/-! ### Sealing and opening -/

namespace Envelope

theorem size_tagOf (key nonce cipher : Bytes) : (tagOf key nonce cipher).size = tagBytes :=
  Bytes.size_ofNatLE _ _

theorem octets_assemble (nonce cipher tag : Bytes) :
    (assemble nonce cipher tag).octets =
      version :: (nonce.octets ++ (cipher.octets ++ tag.octets)) := by
  have hfirst : Bytes.octets (ByteArray.empty.push version) = [version] := rfl
  rw [assemble, Bytes.octets_append, Bytes.octets_append, Bytes.octets_append, hfirst,
    List.append_assoc, List.append_assoc]
  rfl

section Parts

variable {nonce cipher tag : Bytes}

theorem size_assemble (hnonce : nonce.size = nonceBytes) (htag : tag.size = tagBytes) :
    (assemble nonce cipher tag).size = 1 + nonceBytes + cipher.size + tagBytes := by
  rw [← Bytes.length_octets, octets_assemble, List.length_cons, List.length_append,
    List.length_append, Bytes.length_octets, Bytes.length_octets, Bytes.length_octets, hnonce, htag]
  omega

theorem byteAt_assemble_zero : Bytes.byteAt (assemble nonce cipher tag) 0 = version := by
  have hpos : 0 < (assemble nonce cipher tag).octets.length := by
    rw [octets_assemble]
    exact Nat.succ_pos _
  rw [Bytes.byteAt_eq_getElem _ hpos]
  simp only [octets_assemble, List.getElem_cons_zero]

theorem extract_nonce (hnonce : nonce.size = nonceBytes) :
    (assemble nonce cipher tag).extract 1 (1 + nonceBytes) = nonce := by
  apply Bytes.ext_octets
  rw [Bytes.octets_extract, octets_assemble, List.drop_one, List.tail_cons,
    Nat.add_sub_cancel_left]
  exact List.take_left' (by rw [Bytes.length_octets, hnonce])

theorem drop_octets_assemble (hnonce : nonce.size = nonceBytes) :
    (assemble nonce cipher tag).octets.drop (1 + nonceBytes) = cipher.octets ++ tag.octets := by
  rw [octets_assemble, Nat.add_comm, List.drop_succ_cons]
  exact List.drop_left' (by rw [Bytes.length_octets, hnonce])

theorem extract_cipher (hnonce : nonce.size = nonceBytes) (htag : tag.size = tagBytes) :
    (assemble nonce cipher tag).extract (1 + nonceBytes)
      ((assemble nonce cipher tag).size - tagBytes) = cipher := by
  apply Bytes.ext_octets
  rw [Bytes.octets_extract, drop_octets_assemble hnonce, size_assemble hnonce htag]
  exact List.take_left' (by rw [Bytes.length_octets]; omega)

theorem extract_tag (hnonce : nonce.size = nonceBytes) (htag : tag.size = tagBytes) :
    (assemble nonce cipher tag).extract ((assemble nonce cipher tag).size - tagBytes)
      (assemble nonce cipher tag).size = tag := by
  have hsize : (assemble nonce cipher tag).size = _ := size_assemble hnonce htag
  have hskip : (assemble nonce cipher tag).size - tagBytes = 1 + nonceBytes + cipher.size := by
    omega
  apply Bytes.ext_octets
  rw [Bytes.octets_extract, hskip, ← List.drop_drop, drop_octets_assemble hnonce,
    List.drop_left' (Bytes.length_octets cipher), List.take_of_length_le]
  rw [Bytes.length_octets]
  omega

end Parts

/-- **An envelope opens to what was sealed in it.** -/
theorem reveal_sealWith {s : SharedSecret} {nonce plain envelope : Bytes}
    (hnonce : nonce.size = nonceBytes) (h : sealWith s nonce plain = .ok envelope) :
    reveal s envelope = .ok plain := by
  rw [sealWith] at h
  split_ifs at h with hlong
  obtain rfl := Except.ok.inj h
  have htag := size_tagOf s.envelopeKey nonce (ChaCha20.apply s.envelopeKey nonce 1 plain)
  have hmin : ¬(assemble nonce (ChaCha20.apply s.envelopeKey nonce 1 plain)
      (tagOf s.envelopeKey nonce (ChaCha20.apply s.envelopeKey nonce 1 plain))).size <
        minBytes := by
    rw [size_assemble hnonce htag, minBytes]
    omega
  rw [reveal, if_neg hmin, if_neg (not_not.mpr byteAt_assemble_zero), extract_nonce hnonce,
    extract_cipher hnonce htag, extract_tag hnonce htag]
  dsimp only
  rw [ChaCha20.size_apply, if_neg hlong, if_pos rfl, ChaCha20.apply_apply]

/-- A message that was sealed is short enough for everything else. -/
theorem size_lt_of_sealWith {s : SharedSecret} {nonce plain envelope : Bytes}
    (h : sealWith s nonce plain = .ok envelope) : plain.size < 2 ^ 38 := by
  rw [sealWith] at h
  split_ifs at h with hlong
  have hshort : ¬blockLimit ≤ plain.size / 64 := fun hc => hlong (decide_eq_true hc)
  have hlimit : blockLimit = 2 ^ 32 - 1 := rfl
  omega

/-- A message that is too long does not seal. A nonce is drawn all the same. -/
theorem sealFresh_of_tooLong (s : SharedSecret) {plain : Bytes} (hlong : tooLong plain.size = true)
    (e : Entropy) : sealFresh s plain e =
      (.error (.encryption cipherFailure), (e.draw nonceBytes).2) := by
  have hseal : sealWith s (e.draw nonceBytes).1 plain = .error (.encryption cipherFailure) :=
    if_pos hlong
  exact congrArg (·, (e.draw nonceBytes).2) hseal

/-- **A message that is not too long seals**, and opens again. -/
theorem sealFresh_of_not_tooLong (s : SharedSecret) {plain : Bytes}
    (hlong : ¬tooLong plain.size = true) (e : Entropy) :
    ∃ envelope, sealFresh s plain e = (.ok envelope, (e.draw nonceBytes).2) ∧
      reveal s envelope = .ok plain ∧ plain.size < 2 ^ 38 := by
  obtain ⟨envelope, hseal⟩ : ∃ envelope, sealWith s (e.draw nonceBytes).1 plain = .ok envelope :=
    ⟨_, if_neg hlong⟩
  exact ⟨envelope, congrArg (·, (e.draw nonceBytes).2) hseal,
    reveal_sealWith (Entropy.size_draw e nonceBytes) hseal, size_lt_of_sealWith hseal⟩

end Envelope

end Vault.Crypto
