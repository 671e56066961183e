import Vault.Proofs.Crypto.Cipher

/-!
# An envelope opens exactly to what was sealed in it

Opening undoes sealing (`Vault.Crypto.Envelope.reveal_sealWith`). Here is the other
direction: whatever byte string opens, opens to a message that sealing turns into this very
byte string, with the nonce that stands in it (`Vault.Crypto.Envelope.reveal_eq_ok_iff`). So
there is nothing that opens but what was sealed, up to the sealing of somebody else with the
same secret: of a nonce and a cipher text exactly one tag is accepted
(`Vault.Crypto.Envelope.existsUnique_tag`), and what differs from an envelope in its version
or in its tag alone is refused.

What the parts of an envelope are is said by `Vault.Crypto.Envelope.Encloses`, with the
keystream and the polynomial of `Vault.Proofs.Crypto.Cipher`.
-/

namespace Vault.Crypto.Envelope

/-! ### What an envelope holds -/

/-- What is authenticated of a cipher text: zeros up to a whole number of blocks, the size of
the associated data, of which there is none, and the size of the cipher text. -/
def authenticated (cipher : Bytes) : Bytes :=
  cipher ++ Poly1305.padding cipher.size ++ Bytes.ofNatLE 8 0 ++ Bytes.ofNatLE 8 cipher.size

/-- **The envelope of a message** under a key and a nonce: a version, the nonce, the message
enciphered from the second block of keystream on, and its tag. The first block of keystream
holds the secret point and the secret number of the authenticator. -/
def Encloses (key nonce plain envelope : Bytes) : Prop :=
  ∃ cipher mac tag : Bytes,
    envelope.octets = 1 :: (nonce.octets ++ (cipher.octets ++ tag.octets)) ∧
    cipher.octets = List.zipWith (· ^^^ ·) plain.octets
      (ChaCha20.stream key nonce 1 ((plain.size + 63) / 64)) ∧
    mac.octets = (ChaCha20.stream key nonce 0 1).take 32 ∧
    tag = Bytes.ofNatLE 16
      (Poly1305.polynomial (Poly1305.point mac) (authenticated cipher) % (2 ^ 130 - 5) +
        Bytes.natLE (Bytes.drop mac 16))

theorem tagOf_eq {key nonce cipher mac : Bytes}
    (hmac : mac.octets = (ChaCha20.stream key nonce 0 1).take 32) :
    tagOf key nonce cipher = Bytes.ofNatLE 16
      (Poly1305.polynomial (Poly1305.point mac) (authenticated cipher) % (2 ^ 130 - 5) +
        Bytes.natLE (Bytes.drop mac 16)) := by
  have hkey : Bytes.take (ChaCha20.keystream key nonce 0 32) 32 = mac := by
    apply Bytes.ext_octets
    rw [Bytes.octets_take, ChaCha20.octets_keystream, hmac]
  rw [tagOf, hkey, Poly1305.tag_eq]
  rfl

theorem encloses_iff (key nonce plain envelope : Bytes) :
    Encloses key nonce plain envelope ↔
      envelope = assemble nonce (ChaCha20.apply key nonce 1 plain)
        (tagOf key nonce (ChaCha20.apply key nonce 1 plain)) := by
  constructor
  · rintro ⟨cipher, mac, tag, henvelope, hcipher, hmac, htag⟩
    rw [← ChaCha20.octets_apply] at hcipher
    rw [Bytes.ext_octets hcipher, ← tagOf_eq hmac] at htag
    apply Bytes.ext_octets
    rw [henvelope, octets_assemble, htag, Bytes.ext_octets hcipher, version]
  · rintro rfl
    refine ⟨_, Bytes.take (ChaCha20.keystream key nonce 0 32) 32, _, octets_assemble _ _ _,
      ChaCha20.octets_apply _ _ _ _, ?_, ?_⟩
    · rw [Bytes.octets_take, ChaCha20.octets_keystream]
    · refine tagOf_eq ?_
      rw [Bytes.octets_take, ChaCha20.octets_keystream]

/-- A message that is not too long for the block counter. -/
theorem not_tooLong_iff (size : ℕ) : ¬tooLong size = true ↔ size / 64 < 2 ^ 32 - 1 := by
  rw [tooLong, decide_eq_true_iff, Nat.not_le, blockLimit]

/-- **Sealing** makes the envelope of every message that is not too long. -/
theorem sealWith_eq_ok_iff {s : SharedSecret} {nonce plain envelope : Bytes} :
    sealWith s nonce plain = .ok envelope ↔
      plain.size / 64 < 2 ^ 32 - 1 ∧ Encloses s.envelopeKey nonce plain envelope := by
  rw [← not_tooLong_iff, encloses_iff, sealWith]
  split_ifs with hlong
  · simp [hlong]
  · simp [hlong, eq_comm]

theorem size_of_sealWith {s : SharedSecret} {nonce plain envelope : Bytes}
    (hnonce : nonce.size = nonceBytes) (h : sealWith s nonce plain = .ok envelope) :
    envelope.size = plain.size + 29 := by
  rw [(encloses_iff _ _ _ _).mp (sealWith_eq_ok_iff.mp h).2,
    size_assemble hnonce (size_tagOf _ _ _), ChaCha20.size_apply, nonceBytes, tagBytes,
    Poly1305.tagBytes]
  omega

/-! ### What opens -/

/-- A byte string that is long enough for an envelope and has the right version. -/
def Shaped (envelope : Bytes) : Prop :=
  minBytes ≤ envelope.size ∧ Bytes.byteAt envelope 0 = version

theorem shaped_assemble {nonce cipher tag : Bytes} (hnonce : nonce.size = nonceBytes)
    (htag : tag.size = tagBytes) : Shaped (assemble nonce cipher tag) := by
  refine ⟨?_, byteAt_assemble_zero⟩
  rw [size_assemble hnonce htag, minBytes]
  omega

/-- What has the shape of an envelope is put together from its parts. -/
theorem Shaped.assemble_eq {envelope : Bytes} (h : Shaped envelope) :
    assemble (envelope.extract 1 (1 + nonceBytes))
      (envelope.extract (1 + nonceBytes) (envelope.size - tagBytes))
      (envelope.extract (envelope.size - tagBytes) envelope.size) = envelope := by
  have hmin : 29 ≤ envelope.size := h.1
  have hfirst : version :: envelope.octets.drop 1 = envelope.octets := by
    have hpos : 0 < envelope.octets.length := by
      rw [Bytes.length_octets]
      omega
    rw [← h.2, Bytes.byteAt_eq_getElem _ hpos, List.getElem_cons_drop, List.drop_zero]
  have hnonce : (envelope.octets.drop 1).take 12 ++ envelope.octets.drop 13 =
      envelope.octets.drop 1 := by
    rw [show 13 = 1 + 12 from rfl, ← List.drop_drop, List.take_append_drop]
  have hcipher : (envelope.octets.drop 13).take (envelope.size - 16 - 13) ++
      envelope.octets.drop (envelope.size - 16) = envelope.octets.drop 13 := by
    rw [show envelope.size - 16 = 13 + (envelope.size - 16 - 13) by omega, ← List.drop_drop,
      Nat.add_sub_cancel_left, List.take_append_drop]
  have htag : (envelope.octets.drop (envelope.size - 16)).take
      (envelope.size - (envelope.size - 16)) = envelope.octets.drop (envelope.size - 16) :=
    List.take_of_length_le (by rw [List.length_drop, Bytes.length_octets])
  apply Bytes.ext_octets
  rw [octets_assemble, Bytes.octets_extract, Bytes.octets_extract, Bytes.octets_extract]
  change version :: ((envelope.octets.drop 1).take 12 ++
    ((envelope.octets.drop 13).take (envelope.size - 16 - 13) ++
      (envelope.octets.drop (envelope.size - 16)).take (envelope.size - (envelope.size - 16)))) = _
  rw [htag, hcipher, hnonce, hfirst]

/-- **What opening does with the parts of an envelope.** -/
theorem reveal_assemble (s : SharedSecret) {nonce tag : Bytes} (hnonce : nonce.size = nonceBytes)
    (cipher : Bytes) (htag : tag.size = tagBytes) :
    reveal s (assemble nonce cipher tag) =
      if cipher.size / 64 < 2 ^ 32 - 1 ∧ tag = tagOf s.envelopeKey nonce cipher then
        .ok (ChaCha20.apply s.envelopeKey nonce 1 cipher)
      else .error (.decryption cipherFailure) := by
  have hshaped : Shaped (assemble nonce cipher tag) := shaped_assemble hnonce htag
  rw [reveal, if_neg (Nat.not_lt.mpr hshaped.1), if_neg (not_not.mpr hshaped.2),
    extract_nonce hnonce, extract_cipher hnonce htag, extract_tag hnonce htag]
  dsimp only
  by_cases hlong : tooLong cipher.size = true
  · rw [if_pos hlong, if_neg fun hopens => (not_tooLong_iff _).mpr hopens.1 hlong]
  rw [if_neg hlong]
  by_cases hsame : tag = tagOf s.envelopeKey nonce cipher
  · rw [if_pos hsame.symm, if_pos ⟨(not_tooLong_iff _).mp hlong, hsame⟩]
  · rw [if_neg (Ne.symm hsame), if_neg fun hopens => hsame hopens.2]

/-- What does not have the shape of an envelope is refused as such. -/
theorem reveal_of_not_shaped (s : SharedSecret) {envelope : Bytes} (h : ¬Shaped envelope) :
    ∃ reason, reveal s envelope = .error (.malformedEnvelope reason) := by
  rw [reveal]
  split_ifs with hsize hversion
  · exact ⟨_, rfl⟩
  · exact ⟨_, rfl⟩
  · exact absurd ⟨Nat.not_lt.mp hsize, not_not.mp hversion⟩ h

theorem shaped_of_reveal {s : SharedSecret} {envelope plain : Bytes}
    (h : reveal s envelope = .ok plain) : Shaped envelope := by
  by_contra hc
  obtain ⟨reason, hreason⟩ := reveal_of_not_shaped s hc
  rw [h] at hreason
  cases hreason

section Parts

variable {envelope : Bytes}

theorem Shaped.size_nonce (h : Shaped envelope) :
    (envelope.extract 1 (1 + nonceBytes)).size = nonceBytes := by
  have hmin : 29 ≤ envelope.size := h.1
  have hnonce : nonceBytes = 12 := rfl
  rw [ByteArray.size_extract]
  omega

theorem Shaped.size_tag (h : Shaped envelope) :
    (envelope.extract (envelope.size - tagBytes) envelope.size).size = tagBytes := by
  have hmin : 29 ≤ envelope.size := h.1
  have htag : tagBytes = 16 := rfl
  rw [ByteArray.size_extract]
  omega

end Parts

/-- **Nothing opens but what was sealed**, with the nonce that stands in it. -/
theorem reveal_eq_ok_iff {s : SharedSecret} {envelope plain : Bytes} :
    reveal s envelope = .ok plain ↔
      sealWith s (envelope.extract 1 (1 + nonceBytes)) plain = .ok envelope := by
  constructor
  · intro h
    have hshaped := shaped_of_reveal h
    have hparts := hshaped.assemble_eq
    rw [← hparts, reveal_assemble s hshaped.size_nonce _ hshaped.size_tag] at h
    split_ifs at h with hopens
    obtain rfl := Except.ok.inj h
    rw [sealWith_eq_ok_iff, encloses_iff, ChaCha20.size_apply]
    refine ⟨hopens.1, ?_⟩
    rw [ChaCha20.apply_apply, ← hopens.2, hparts]
  · intro h
    refine reveal_sealWith ?_ h
    have hsize : 17 ≤ envelope.size := by
      obtain ⟨-, hencloses⟩ := sealWith_eq_ok_iff.mp h
      rw [(encloses_iff _ _ _ _).mp hencloses, ← Bytes.length_octets, octets_assemble]
      simp only [List.length_cons, List.length_append, Bytes.length_octets, size_tagOf, tagBytes,
        Poly1305.tagBytes]
      omega
    rw [ByteArray.size_extract, nonceBytes]
    omega

/-- **Of a nonce and a cipher text exactly one tag is accepted.** -/
theorem existsUnique_tag (s : SharedSecret) {nonce cipher : Bytes}
    (hnonce : nonce.size = nonceBytes) (hshort : cipher.size / 64 < 2 ^ 32 - 1) :
    ∃! tag : Bytes, tag.size = tagBytes ∧
      ∃ plain, reveal s (assemble nonce cipher tag) = .ok plain := by
  refine ⟨tagOf s.envelopeKey nonce cipher,
    ⟨size_tagOf _ _ _, ChaCha20.apply s.envelopeKey nonce 1 cipher, ?_⟩, ?_⟩
  · rw [reveal_assemble s hnonce _ (size_tagOf _ _ _), if_pos ⟨hshort, rfl⟩]
  · rintro tag ⟨htag, plain, hreveal⟩
    rw [reveal_assemble s hnonce _ htag] at hreveal
    split_ifs at hreveal with hopens
    exact hopens.2

/-- Byte strings of one size that agree from `i` to `j` have the same piece there. -/
theorem extract_eq_of_agree {a b : Bytes} {i j : ℕ} (hsize : a.size = b.size)
    (h : ∀ k, i ≤ k → k < j → Bytes.byteAt a k = Bytes.byteAt b k) :
    a.extract i j = b.extract i j := by
  apply Bytes.ext_octets
  rw [Bytes.octets_extract, Bytes.octets_extract]
  refine List.ext_getElem ?_ fun k hk hk' => ?_
  · simp only [List.length_take, List.length_drop, Bytes.length_octets, hsize]
  · simp only [List.length_take, List.length_drop] at hk hk'
    rw [List.getElem_take, List.getElem_take, List.getElem_drop, List.getElem_drop,
      ← Bytes.byteAt_eq_getElem, ← Bytes.byteAt_eq_getElem, h (i + k) (by omega) (by omega)]

/-- **What differs from an envelope in its version or in its tag alone does not open.** -/
theorem reveal_of_agree {s : SharedSecret} {envelope other plain : Bytes}
    (hopens : reveal s envelope = .ok plain) (hother : other ≠ envelope)
    (hsize : other.size = envelope.size)
    (hagree : ∀ i, 1 ≤ i → i < envelope.size - tagBytes →
      Bytes.byteAt other i = Bytes.byteAt envelope i) :
    ∃ e, reveal s other = .error e := by
  by_cases hshaped : Shaped other
  swap
  · obtain ⟨reason, hreason⟩ := reveal_of_not_shaped s hshaped
    exact ⟨_, hreason⟩
  have henvelope := shaped_of_reveal hopens
  have hmin : 29 ≤ envelope.size := henvelope.1
  have htag : tagBytes = 16 := rfl
  have hstart : nonceBytes = 12 := rfl
  -- nonce and cipher text are the same, and so is the one tag that goes with them
  have hnonce : other.extract 1 (1 + nonceBytes) = envelope.extract 1 (1 + nonceBytes) :=
    extract_eq_of_agree hsize fun k hk hk' => hagree k hk (by omega)
  have hcipher : other.extract (1 + nonceBytes) (other.size - tagBytes) =
      envelope.extract (1 + nonceBytes) (envelope.size - tagBytes) := by
    rw [hsize]
    exact extract_eq_of_agree hsize fun k hk hk' => hagree k (by omega) hk'
  rw [← hshaped.assemble_eq, reveal_assemble s hshaped.size_nonce _ hshaped.size_tag, if_neg]
  · exact ⟨_, rfl⟩
  · rintro ⟨-, hsame⟩
    rw [← henvelope.assemble_eq,
      reveal_assemble s henvelope.size_nonce _ henvelope.size_tag] at hopens
    split_ifs at hopens with haccepted
    rw [hnonce, hcipher, ← haccepted.2] at hsame
    refine hother ?_
    rw [← hshaped.assemble_eq, hnonce, hcipher, hsame, henvelope.assemble_eq]

/-- What has the shape of an envelope opens, or its cipher fails. -/
theorem reveal_of_shaped (s : SharedSecret) {envelope : Bytes} (h : Shaped envelope) :
    (∃ plain, reveal s envelope = .ok plain) ∨
      reveal s envelope = .error (.decryption cipherFailure) := by
  rw [← h.assemble_eq, reveal_assemble s h.size_nonce _ h.size_tag]
  split_ifs
  · exact Or.inl ⟨_, rfl⟩
  · exact Or.inr rfl

/-! ### The law of envelopes -/

/-- **Envelopes open exactly to what was sealed in them.** What is sealed is longer than the
message by the 29 bytes of version, nonce and tag, and opens to the message. Whatever opens is
the envelope of what it opens to, under the nonce that stands in it. An envelope is what
`Encloses` says under the key derived from the secret, for every message that the block counter
reaches.

So of a nonce and a cipher text one tag is accepted and no other, and what differs from an
envelope in no place but its version and its tag is refused. What is too short or has another
version is no envelope; whatever else is refused, the cipher refuses. -/
theorem opens_exactly_what_was_sealed (s : SharedSecret) :
    (∀ nonce plain envelope : Bytes, nonce.size = 12 → sealWith s nonce plain = .ok envelope →
      envelope.size = plain.size + 29 ∧ reveal s envelope = .ok plain) ∧
    (∀ envelope plain : Bytes, reveal s envelope = .ok plain ↔
      sealWith s (envelope.extract 1 13) plain = .ok envelope) ∧
    (∀ nonce plain envelope : Bytes, sealWith s nonce plain = .ok envelope ↔
      plain.size / 64 < 2 ^ 32 - 1 ∧
        Encloses (Blake3.deriveKey "neuron session v1 envelope key" s.bytes) nonce plain envelope) ∧
    (∀ nonce cipher : Bytes, nonce.size = 12 → cipher.size / 64 < 2 ^ 32 - 1 →
      ∃! tag : Bytes, tag.size = 16 ∧ ∃ plain, reveal s (assemble nonce cipher tag) = .ok plain) ∧
    (∀ envelope other plain : Bytes, reveal s envelope = .ok plain → other ≠ envelope →
      other.size = envelope.size →
      (∀ i, 1 ≤ i → i < envelope.size - 16 →
        Bytes.byteAt other i = Bytes.byteAt envelope i) →
      ∃ e, reveal s other = .error e) ∧
    (∀ envelope : Bytes, envelope.size < 29 ∨ Bytes.byteAt envelope 0 ≠ 1 ↔
      ∃ reason, reveal s envelope = .error (.malformedEnvelope reason)) ∧
    (∀ (envelope : Bytes) (e : Error), 29 ≤ envelope.size → Bytes.byteAt envelope 0 = 1 →
      reveal s envelope = .error e → ∃ reason, e = .decryption reason) := by
  refine ⟨fun nonce plain envelope hnonce h =>
      ⟨size_of_sealWith hnonce h, reveal_sealWith hnonce h⟩,
    fun envelope plain => reveal_eq_ok_iff, fun nonce plain envelope => sealWith_eq_ok_iff,
    fun nonce cipher hnonce hshort => existsUnique_tag s hnonce hshort,
    fun envelope other plain => reveal_of_agree, fun envelope => ⟨fun h => ?_, ?_⟩, ?_⟩
  · refine reveal_of_not_shaped s fun hshaped => ?_
    rcases h with hsize | hversion
    · exact absurd hshaped.1 (Nat.not_le.mpr hsize)
    · exact hversion hshaped.2
  · rintro ⟨reason, hreason⟩
    by_contra hc
    obtain ⟨hsize, hversion⟩ := not_or.mp hc
    obtain ⟨plain, hopens⟩ | hfails :=
      reveal_of_shaped s ⟨Nat.not_lt.mp hsize, not_not.mp hversion⟩
    · cases hopens.symm.trans hreason
    · cases hfails.symm.trans hreason
  · intro envelope e hsize hversion he
    obtain ⟨plain, hopens⟩ | hfails := reveal_of_shaped s ⟨hsize, hversion⟩
    · cases hopens.symm.trans he
    · cases hfails.symm.trans he
      exact ⟨_, rfl⟩

/-- Five letters in an envelope, and the same envelope with another last byte. -/
theorem opens_exactly_what_was_sealed_greeting :
    let s : SharedSecret := ⟨Bytes.replicate 32 0x11, Bytes.size_ofFn _ _⟩
    let nonce : Bytes := ⟨#[0, 1, 2, 3, 4, 5, 6, 7, 8, 9, 10, 11]⟩
    let envelope (last : UInt8) : Bytes :=
      ⟨#[1, 0, 1, 2, 3, 4, 5, 6, 7, 8, 9, 10, 11, 183, 12, 184, 44, 78, 11, 131, 224, 187, 36, 1,
        61, 195, 232, 193, 182, 62, 49, 63, 81, last]⟩
    sealWith s nonce ⟨#[104, 101, 108, 108, 111]⟩ = .ok (envelope 218) ∧
      reveal s (envelope 218) = .ok ⟨#[104, 101, 108, 108, 111]⟩ ∧
      ∃ reason, reveal s (envelope 219) = .error (.decryption reason) := by
  intro s nonce envelope
  obtain ⟨hopens, -, -, -, hrefused, -, hkind⟩ := opens_exactly_what_was_sealed s
  have hseal : sealWith s nonce ⟨#[104, 101, 108, 108, 111]⟩ = .ok (envelope 218) := by
    decide +kernel
  have hreveal := (hopens nonce _ _ rfl hseal).2
  obtain ⟨e, he⟩ := hrefused (envelope 218) (envelope 219) _ hreveal (by decide) rfl (by decide)
  obtain ⟨reason, rfl⟩ := hkind (envelope 219) e (by decide) (by decide) he
  exact ⟨hseal, hreveal, reason, he⟩

end Vault.Crypto.Envelope
