import SecureFileTransfer.ClientCrypto

/-!
# CipherIntegrity — what the recipient of a cipher gets

An encryption succeeds as soon as its random bytes are drawn and the key exchange works, and the
recipient reads the plaintext back.  Any other cipher is refused: the tag admits only the sealing of
what comes out, and the digest admits only the plaintext.
-/

namespace SecureFileTransfer
namespace ClientCryptoProvider

open RealSha256

variable {ssl : OpenSsl} {plain cipher : Bytes} {dek pub priv : Key} {nonce : Nonce}

/-! ## An encryption and its parts -/

theorem aesGcmEncrypt_of_short (hlen : plain.length < 2 ^ 31) :
    aesGcmEncrypt ssl plain dek nonce =
      .ok ((ssl.gcmEncrypt dek nonce plain).1 ++ (ssl.gcmEncrypt dek nonce plain).2.1) := by
  unfold aesGcmEncrypt
  rw [(updateInput_eq_ok (by omega)).2 ⟨hlen, rfl⟩]
  rfl

theorem sealDEK_of_derive {eph shared : Key} (h : ssl.derive eph pub = some shared) :
    sealDEK ssl (some eph) dek pub =
      .ok ((ssl.publicKey eph).1 ++ (xorKeys dek (hashBytes shared.1)).1) := by
  have hshared : x25519Shared ssl eph pub = .ok shared := by
    rw [x25519Shared, h]
  exact bind_eq_ok.2 ⟨eph, rfl, bind_eq_ok.2 ⟨shared, hshared, rfl⟩⟩

/-- Without failures of the generator or the key exchange, a plaintext that the `int` of OpenSSL can
count is encrypted. -/
theorem encrypt_succeeds {eph shared : Key} (dek : Key) (nonce : Nonce) (rid : UserId)
    (hlen : plain.length < 2 ^ 31) (h : ssl.derive eph pub = some shared) :
    ∃ out, encrypt ssl ⟨some dek, some nonce, some eph⟩ plain rid pub.1 = .ok out := by
  have hne : (ssl.publicKey eph).1 ++ (xorKeys dek (hashBytes shared.1)).1 ≠ [] := by
    intro hnil
    have hlength := congrArg List.length hnil
    rw [List.length_append, (ssl.publicKey eph).2] at hlength
    simp at hlength
  have hwrapped := (WrappedKey.new_eq_ok_iff
    (w := ⟨rid, nonce.1, _, ascii "X25519-AES-GCM-Seal"⟩)).2 ⟨nonce.2, hne⟩
  unfold encrypt
  rw [dif_pos pub.2]
  exact ⟨_, bind_eq_ok.2 ⟨dek, rfl, bind_eq_ok.2 ⟨nonce, rfl, bind_eq_ok.2 ⟨_,
    aesGcmEncrypt_of_short hlen, bind_eq_ok.2 ⟨_, sealDEK_of_derive h,
      bind_eq_ok.2 ⟨_, hwrapped, rfl⟩⟩⟩⟩⟩⟩

theorem Encrypted.lengths (hssl : ssl.Lawful) (hlen : plain.length < 2 ^ 31) {out : EncryptOut}
    (h : Encrypted ssl plain (ssl.publicKey priv) dek nonce out) :
    out.cipher.length = plain.length + 16 ∧ out.wrapped.nonce.length = 12 ∧
      out.wrapped.bytes.length = 64 := by
  refine ⟨?_, ?_, ?_⟩
  · have hcipher := h.cipher
    rw [aesGcmEncrypt_of_short hlen] at hcipher
    rw [← Except.ok.inj hcipher, List.length_append, hssl.gcm_length,
      (ssl.gcmEncrypt dek nonce plain).2.2]
  · rw [h.nonce, nonce.2]
  · obtain ⟨ephPriv, hsealed⟩ := h.sealedKey
    exact (unsealDEK_sealDEK hssl hsealed).1

/-- Whatever the generator yields, the recipient reads a file of up to 100 MiB back. -/
theorem encrypt_round_trip (ssl : OpenSsl) (hssl : ssl.Lawful)
    (hderive : ∀ a b, (ssl.derive a (ssl.publicKey b)).isSome) (plain : Bytes)
    (hlen : plain.length ≤ 100 * 1024 * 1024) (priv dek eph : Key) (nonce : Nonce)
    (rid : UserId) :
    ∃ out, encrypt ssl ⟨some dek, some nonce, some eph⟩ plain rid (ssl.publicKey priv).1 = .ok out ∧
      out.cipher.length = plain.length + 16 ∧ out.wrapped.nonce.length = 12 ∧
      out.wrapped.bytes.length = 64 ∧
      decryptAndVerify ssl out.cipher out.wrapped out.digest priv = .ok plain := by
  obtain ⟨shared, hshared⟩ := Option.isSome_iff_exists.1 (hderive eph priv)
  have hshort : plain.length < 2 ^ 31 := by omega
  obtain ⟨out, hout⟩ := encrypt_succeeds dek nonce rid hshort hshared
  obtain ⟨_, _, -, -, hencrypted⟩ := encrypted_of_encrypt hout
  obtain ⟨hcipher, hnonce, hsealed⟩ := hencrypted.lengths hssl hshort
  exact ⟨out, hout, hcipher, hnonce, hsealed, decryptAndVerify_encrypt hssl (by omega) hout⟩

/-- `n` times the same byte. -/
def repeated {n : Nat} (b : UInt8) : RandomBytes n := ⟨List.replicate n b, List.length_replicate⟩

theorem encrypt_round_trip_sample :
    sampleSsl.Lawful ∧
      ∃ out, encrypt sampleSsl ⟨some (repeated 1), some (repeated 2), some (repeated 3)⟩
          (ascii "%PDF-1.4") ⟨ascii "bob"⟩ (sampleSsl.publicKey (repeated 4)).1 = .ok out ∧
        out.cipher.length = 8 + 16 ∧ out.wrapped.nonce.length = 12 ∧
        out.wrapped.bytes.length = 64 ∧
        decryptAndVerify sampleSsl out.cipher out.wrapped out.digest (repeated 4) =
          .ok (ascii "%PDF-1.4") :=
  ⟨sampleSsl_lawful, encrypt_round_trip sampleSsl sampleSsl_lawful (fun _ _ => rfl)
    (ascii "%PDF-1.4") (by decide) (repeated 4) (repeated 1) (repeated 3) (repeated 2)
    ⟨ascii "bob"⟩⟩

/-! ## Ciphers that were tampered with -/

/-- What opens under a key and a nonce is the sealing of what comes out. -/
def OpensOnlySealings (ssl : OpenSsl) : Prop :=
  ∀ k n input tag plain, ssl.gcmDecrypt k n input tag = some plain →
    ssl.gcmEncrypt k n plain = (input, tag)

/-- An error of a sequence is one of its first or of its second part. -/
theorem bind_eq_error {α β : Type} {x : Except Exn α} {f : α → Except Exn β} {e : Exn}
    (h : (x >>= f) = .error e) : x = .error e ∨ ∃ a, x = .ok a ∧ f a = .error e := by
  cases x with
  | error e' =>
      cases h
      exact .inl rfl
  | ok a => exact .inr ⟨a, rfl, h⟩

theorem aesGcmDecrypt_error {e : Exn} (h : aesGcmDecrypt ssl cipher dek nonce = .error e) :
    e.cls = .integrity := by
  unfold aesGcmDecrypt at h
  split at h
  · cases h
    rfl
  rcases bind_eq_error h with hinput | ⟨input, -, hopen⟩
  · unfold updateInput at hinput
    split at hinput <;> cases hinput
    rfl
  · split at hopen <;> cases hopen
    rfl

/-- A cipher that opens consists of the input of the decryption and the tag. -/
theorem aesGcmDecrypt_ok (hlen : cipher.length < 2 ^ 31)
    (h : aesGcmDecrypt ssl cipher dek nonce = .ok plain) :
    ∃ input tag, cipher = input ++ tag.1 ∧ ssl.gcmDecrypt dek nonce input tag = some plain := by
  unfold aesGcmDecrypt at h
  split at h
  · cases h
  obtain ⟨input, hinput, hopen⟩ := bind_eq_ok.1 h
  have hshort : (cipher.take (cipher.length - 16)).length < 2 ^ 32 := by
    rw [List.length_take]
    omega
  obtain ⟨-, rfl⟩ := (updateInput_eq_ok hshort).1 hinput
  refine ⟨_, ⟨cipher.drop (cipher.length - 16), by rw [List.length_drop]; omega⟩,
    (List.take_append_drop (cipher.length - 16) cipher).symm, ?_⟩
  split at hopen
  · next hsome =>
      cases hopen
      exact hsome
  · cases hopen

/-- A plaintext that comes out of another cipher is another plaintext. -/
theorem Encrypted.eq_cipher (hsealing : OpensOnlySealings ssl) (hlen : plain.length < 2 ^ 31)
    {out : EncryptOut} (h : Encrypted ssl plain pub dek nonce out)
    (hcipher : cipher.length < 2 ^ 31)
    (hopen : aesGcmDecrypt ssl cipher dek nonce = .ok plain) : cipher = out.cipher := by
  obtain ⟨input, tag, rfl, hplain⟩ := aesGcmDecrypt_ok hcipher hopen
  have hseal := hsealing dek nonce input tag plain hplain
  have hout := h.cipher
  rw [aesGcmEncrypt_of_short hlen, hseal] at hout
  exact Except.ok.inj hout

theorem Encrypted.rejects (hssl : ssl.Lawful) (hsealing : OpensOnlySealings ssl)
    (hlen : plain.length < 2 ^ 31) {out : EncryptOut}
    (h : Encrypted ssl plain (ssl.publicKey priv) dek nonce out) (hne : cipher ≠ out.cipher)
    (hcipher : cipher.length < 2 ^ 31)
    (hsha : ∀ p, opened ssl cipher out.wrapped priv = .ok p → hashBytes p = hashBytes plain →
      p = plain) :
    ∃ e, decryptAndVerify ssl cipher out.wrapped out.digest priv = .error e ∧
      e.cls = .integrity := by
  rw [decryptAndVerify_eq]
  have hopened := h.opened_eq hssl cipher
  cases hopen : aesGcmDecrypt ssl cipher dek nonce with
  | error e =>
      -- too short, too long for the cipher, or a tag that does not match
      rw [hopened, hopen]
      exact ⟨e, rfl, aesGcmDecrypt_error hopen⟩
  | ok p =>
      have hp : p ≠ plain := by
        rintro rfl
        exact hne (h.eq_cipher hsealing hlen hcipher hopen)
      have hdigest : hashBytes p ≠ out.digest := by
        rw [h.digest]
        exact fun heq => hp (hsha p (hopened.trans hopen) heq)
      rw [hopened, hopen]
      exact ⟨.integrity "digest mismatch", if_neg hdigest, rfl⟩

/-- A cipher other than the one that an encryption has yielded is refused with an
`IntegrityException`; whatever else is decrypted has the digest it was sent with. -/
theorem tampered_cipher_refused (ssl : OpenSsl) :
    (ssl.Lawful → OpensOnlySealings ssl → ∀ (random : EncryptRandom) (plain : Bytes) (rid : UserId)
        (priv : Key) (out : EncryptOut), plain.length ≤ 100 * 1024 * 1024 →
      encrypt ssl random plain rid (ssl.publicKey priv).1 = .ok out →
      ∀ cipher, cipher ≠ out.cipher → cipher.length ≤ 4 * 1024 * 1024 →
        -- SHA-256 does not collide on the plaintext and what the cipher opens to
        (∀ p, opened ssl cipher out.wrapped priv = .ok p → hashBytes p = hashBytes plain →
          p = plain) →
        ∃ e, decryptAndVerify ssl cipher out.wrapped out.digest priv = .error e ∧
          e.cls = .integrity) ∧
    ∀ cipher w d priv plain, decryptAndVerify ssl cipher w d priv = .ok plain →
      hashBytes plain = d := by
  refine ⟨?_, ?_⟩
  · intro hssl hsealing random plain rid priv out hlen hout cipher hne hcipher hsha
    obtain ⟨dek, nonce, -, -, hencrypted⟩ := encrypted_of_encrypt hout
    exact hencrypted.rejects hssl hsealing (by omega) hne (by omega) hsha
  · intro cipher w d priv plain hplain
    rw [decryptAndVerify_eq] at hplain
    obtain ⟨p, -, hcheck⟩ := bind_eq_ok.1 hplain
    split at hcheck
    · next hdigest =>
        cases hcheck
        exact hdigest
    · cases hcheck

theorem sampleSsl_opensOnlySealings : OpensOnlySealings sampleSsl := by
  intro k n input tag plain hopen
  simp only [sampleSsl] at hopen ⊢
  split at hopen
  · next htag =>
      cases hopen
      exact Prod.ext (map_xor_cancel _ input) (Subtype.ext htag.symm)
  · cases hopen

/-- One byte of the ciphertext is flipped, and the tag of the sample cipher does not notice. -/
theorem tampered_cipher_refused_flip :
    ∃ out, encrypt sampleSsl ⟨some (repeated 1), some (repeated 2), some (repeated 3)⟩ [1, 2, 3] ⟨[]⟩
        (sampleSsl.publicKey (repeated 4)).1 = .ok out ∧
      ∃ e, decryptAndVerify sampleSsl ([1, 3, 2] ++ List.replicate 16 1) out.wrapped out.digest
        (repeated 4) = .error e ∧ e.cls = .integrity := by
  obtain ⟨out, hout⟩ : ∃ out, encrypt sampleSsl ⟨some (repeated 1), some (repeated 2),
      some (repeated 3)⟩ [1, 2, 3] ⟨[]⟩ (sampleSsl.publicKey (repeated 4)).1 = .ok out :=
    encrypt_succeeds _ _ _ (by decide) rfl
  obtain ⟨dek, nonce, hdek, hnonce, hencrypted⟩ := encrypted_of_encrypt hout
  cases hdek
  cases hnonce
  have hcipher : out.cipher = [0, 3, 2] ++ List.replicate 16 1 := by
    rw [← Except.ok.inj hencrypted.cipher]
    decide
  refine ⟨out, hout, (tampered_cipher_refused sampleSsl).1 sampleSsl_lawful
    sampleSsl_opensOnlySealings _ _ _ _ out (by decide) hout ([1, 3, 2] ++ List.replicate 16 1)
    (by rw [hcipher]; decide) (by decide) fun p hp hdigest => ?_⟩
  have hopened : opened sampleSsl ([1, 3, 2] ++ List.replicate 16 1) out.wrapped (repeated 4) =
      .ok [0, 2, 3] := by
    rw [hencrypted.opened_eq sampleSsl_lawful]
    decide
  cases hp.symm.trans hopened
  exact absurd hdigest (by decide +kernel)

end ClientCryptoProvider
end SecureFileTransfer
