import SecureFileTransfer.Stores

/-!
# ClientCrypto — encryption to a recipient's public key

`ClientCryptoProvider` of `src/infrastructure/client_crypto.cpp` and `KeyPair::generate`.  X25519
and AES-256-GCM are those of OpenSSL and are parameters here; what the client relies on is `Lawful`.
The random bytes a call draws are arguments, `none` where `RAND_bytes` fails.
-/

namespace SecureFileTransfer

/-- `std::array<uint8_t, 32>` -/
abbrev Key := RandomBytes 32

abbrev Nonce := RandomBytes 12

abbrev Tag := RandomBytes 16

def Exn.integrity (what : String) : Exn := ⟨.integrity, ascii what⟩

/-- The calls of OpenSSL.  Those that fail only when memory runs out are taken to succeed. -/
structure OpenSsl where
  /-- The X25519 public key of a private key. -/
  publicKey : Key → Key
  /-- `EVP_PKEY_derive`, from a private key and the public key of the peer. -/
  derive : Key → Key → Option Key
  /-- AES-256-GCM under a key and a nonce: the ciphertext and its tag. -/
  gcmEncrypt : Key → Nonce → Bytes → Bytes × Tag
  /-- The plaintext, unless the tag does not match. -/
  gcmDecrypt : Key → Nonce → Bytes → Tag → Option Bytes

/-- The two parties of a key exchange derive one secret; decryption undoes encryption, which keeps
the length. -/
structure OpenSsl.Lawful (ssl : OpenSsl) : Prop where
  derive_comm : ∀ a b, ssl.derive a (ssl.publicKey b) = ssl.derive b (ssl.publicKey a)
  gcm_undone : ∀ k n m,
    ssl.gcmDecrypt k n (ssl.gcmEncrypt k n m).1 (ssl.gcmEncrypt k n m).2 = some m
  gcm_length : ∀ k n m, (ssl.gcmEncrypt k n m).1.length = m.length

structure KeyPair where
  pub : Key
  priv : Key
  deriving DecidableEq

/-- The keys of a `KeyPair` are zero until they are set. -/
def zeroKey : Key := zeroDigest

structure EncryptOut where
  cipher : Bytes
  wrapped : WrappedKey
  digest : Digest
  deriving DecidableEq

/-- What the three `RAND_bytes` calls of an encryption yield. -/
structure EncryptRandom where
  dek : Option Key
  nonce : Option Nonce
  ephPriv : Option Key

/-- A drawn value, or the exception that it could not be drawn. -/
def drawn {α : Type} (what : String) : Option α → Except Exn α
  | some a => .ok a
  | none => .error (.runtime what)

/-- The byte strings of one length, one xor the other. -/
def xorKeys {n : Nat} (a b : RandomBytes n) : RandomBytes n :=
  ⟨List.zipWith (· ^^^ ·) a.1 b.1, by simp [a.2, b.2]⟩

/-- `(int)n` -/
def intLength (n : Nat) : Option Nat :=
  if n % 2 ^ 32 < 2 ^ 31 then some (n % 2 ^ 32) else none

namespace KeyPair

def generate (ssl : OpenSsl) (random : Option Key) : Except Exn KeyPair := do
  let priv ← drawn "RAND_bytes failed for priv" random
  return { pub := ssl.publicKey priv, priv := priv }

end KeyPair

namespace ClientCryptoProvider

open RealSha256

variable (ssl : OpenSsl)

def x25519Shared (priv pub : Key) : Except Exn Key :=
  match ssl.derive priv pub with
  | some shared => .ok shared
  | none => .error (.integrity "X25519 derive failed")

/-- `sealDEK`: the ephemeral public key, then the DEK under the hash of the shared secret. -/
def sealDEK (ephPriv : Option Key) (dek recipientPub : Key) : Except Exn Bytes := do
  let ephPriv ← drawn "RAND_bytes ephPriv failed" ephPriv
  let shared ← x25519Shared ssl ephPriv recipientPub
  let k : Key := hashBytes shared.1
  return (ssl.publicKey ephPriv).1 ++ (xorKeys dek k).1

def unsealDEK (sealed : Bytes) (priv : Key) : Except Exn Key :=
  if h : sealed.length = 64 then do
    let ephPub : Key := ⟨sealed.take 32, by simp [h]⟩
    let encDEK : Key := ⟨sealed.drop 32, by simp [h]⟩
    let shared ← x25519Shared ssl priv ephPub
    return xorKeys encDEK (hashBytes shared.1)
  else
    .error (.integrity "sealed DEK size invalid")

/-- What the cipher is given of the data: its length is cast to `int`, and a negative one is
refused. -/
def updateInput (exn : Exn) (data : Bytes) : Except Exn Bytes :=
  match intLength data.length with
  | some n => .ok (data.take n)
  | none => .error exn

def aesGcmEncrypt (plain : Bytes) (dek : Key) (nonce : Nonce) : Except Exn Bytes := do
  let input ← updateInput (.runtime "EncryptUpdate failed") plain
  return (ssl.gcmEncrypt dek nonce input).1 ++ (ssl.gcmEncrypt dek nonce input).2.1

def aesGcmDecrypt (cipher : Bytes) (dek : Key) (nonce : Nonce) : Except Exn Bytes :=
  if h : cipher.length < 16 then
    .error (.integrity "cipher too short (tag missing)")
  else do
    let ctLen := cipher.length - 16
    let tag : Tag := ⟨cipher.drop ctLen, by simp [ctLen]; omega⟩
    let input ← updateInput (.integrity "GCM decrypt failed") (cipher.take ctLen)
    match ssl.gcmDecrypt dek nonce input tag with
    | some plain => return plain
    | none => throw (.integrity "GCM tag mismatch")

/-- `doEncrypt` -/
def encrypt (random : EncryptRandom) (plain : Bytes) (recipientId : UserId) (recipientPub : Bytes) :
    Except Exn EncryptOut :=
  if h : recipientPub.length = 32 then do
    let dek ← drawn "RAND_bytes dek failed" random.dek
    let nonce ← drawn "RAND_bytes nonce failed" random.nonce
    let cipher ← aesGcmEncrypt ssl plain dek nonce
    let sealed ← sealDEK ssl random.ephPriv dek ⟨recipientPub, h⟩
    let wrapped ← WrappedKey.new recipientId nonce.1 sealed (ascii "X25519-AES-GCM-Seal")
    return { cipher := cipher, wrapped := wrapped, digest := hashBytes plain }
  else
    .error (.validation "recipient pubkey must be 32 bytes")

def decryptAndVerify (cipher : Bytes) (w : WrappedKey) (d : Digest) (priv : Key) :
    Except Exn Bytes :=
  if h : w.nonce.length = 12 then
    if w.bytes.isEmpty then
      .error (.integrity "wrapped bytes empty")
    else do
      let dek ← unsealDEK ssl w.bytes priv
      let plain ← aesGcmDecrypt ssl cipher dek ⟨w.nonce, h⟩
      if hashBytes plain = d then
        return plain
      else
        throw (.integrity "digest mismatch")
  else
    .error (.integrity "nonce must be 12")

/-! ## Decryption undoes encryption -/

section RoundTrip

variable {ssl} {plain cipher : Bytes} {dek priv : Key} {nonce : Nonce}

theorem bind_eq_ok {α β : Type} {x : Except Exn α} {f : α → Except Exn β} {b : β} :
    (x >>= f) = .ok b ↔ ∃ a, x = .ok a ∧ f a = .ok b := by
  cases x with
  | error e => simp [Bind.bind, Except.bind]
  | ok a => simp [Bind.bind, Except.bind]

theorem drawn_eq_ok {α : Type} {what : String} {o : Option α} {a : α} :
    drawn what o = .ok a ↔ o = some a := by
  cases o with
  | none => simp [drawn]
  | some x => simp [drawn]

theorem xorKeys_comm {n : Nat} (a b : RandomBytes n) : xorKeys a b = xorKeys b a :=
  Subtype.ext (List.zipWith_comm_of_comm UInt8.xor_comm)

theorem xor_xor_self (a b : UInt8) : a ^^^ b ^^^ b = a := by
  rw [UInt8.xor_assoc, UInt8.xor_self, UInt8.xor_zero]

theorem xorKeys_cancel {n : Nat} (a b : RandomBytes n) : xorKeys (xorKeys a b) b = a := by
  apply Subtype.ext
  refine List.ext_getElem (by simp [xorKeys, a.2, b.2]) fun i _ _ => ?_
  simp only [xorKeys, List.getElem_zipWith, xor_xor_self]

/-- A length that does not wrap is passed on as it is. -/
theorem updateInput_eq_ok {exn : Exn} {data input : Bytes} (hlen : data.length < 2 ^ 32) :
    updateInput exn data = .ok input ↔ data.length < 2 ^ 31 ∧ input = data := by
  unfold updateInput intLength
  rw [Nat.mod_eq_of_lt hlen]
  by_cases h : data.length < 2 ^ 31
  · rw [if_pos h]
    simp only [List.take_length, Except.ok.injEq]
    exact ⟨fun heq => ⟨h, heq.symm⟩, fun heq => heq.2.symm⟩
  · rw [if_neg h]
    exact ⟨fun heq => (nomatch heq), fun heq => absurd heq.1 h⟩

theorem unsealDEK_sealDEK (hssl : ssl.Lawful) {ephPriv : Option Key} {sealed : Bytes}
    (h : sealDEK ssl ephPriv dek (ssl.publicKey priv) = .ok sealed) :
    sealed.length = 64 ∧ unsealDEK ssl sealed priv = .ok dek := by
  obtain ⟨eph, -, hderive⟩ := bind_eq_ok.1 h
  obtain ⟨shared, hshared, hsealed⟩ := bind_eq_ok.1 hderive
  -- the recipient derives the secret that the sender derived
  have hsame : x25519Shared ssl priv (ssl.publicKey eph) = .ok shared := by
    rw [x25519Shared, hssl.derive_comm]
    exact hshared
  cases hsealed
  have hlen : ((ssl.publicKey eph).1 ++ (xorKeys dek (hashBytes shared.1)).1).length = 64 := by
    rw [List.length_append, (ssl.publicKey eph).2, (xorKeys dek _).2]
  refine ⟨hlen, ?_⟩
  unfold unsealDEK
  rw [dif_pos hlen]
  simp only [List.take_left' (ssl.publicKey eph).2, List.drop_left' (ssl.publicKey eph).2]
  rw [hsame]
  exact congrArg Except.ok (xorKeys_cancel dek _)

theorem aesGcmDecrypt_aesGcmEncrypt (hssl : ssl.Lawful) (hlen : plain.length < 2 ^ 32)
    (h : aesGcmEncrypt ssl plain dek nonce = .ok cipher) :
    aesGcmDecrypt ssl cipher dek nonce = .ok plain := by
  obtain ⟨input, hinput, hcipher⟩ := bind_eq_ok.1 h
  obtain ⟨hshort, hsame⟩ := (updateInput_eq_ok hlen).1 hinput
  subst input
  cases hcipher
  have hct := hssl.gcm_length dek nonce plain
  have htag := (ssl.gcmEncrypt dek nonce plain).2.2
  unfold aesGcmDecrypt
  rw [dif_neg (by rw [List.length_append]; omega)]
  have hcut :
      ((ssl.gcmEncrypt dek nonce plain).1 ++ (ssl.gcmEncrypt dek nonce plain).2.1).length - 16 =
        (ssl.gcmEncrypt dek nonce plain).1.length := by
    rw [List.length_append]
    omega
  simp only [hcut, List.take_left, List.drop_left]
  refine bind_eq_ok.2 ⟨_, (updateInput_eq_ok (by omega)).2 ⟨by omega, rfl⟩, ?_⟩
  rw [hssl.gcm_undone]
  rfl

/-- What an encryption under the data key and the nonce has yielded. -/
structure Encrypted (ssl : OpenSsl) (plain : Bytes) (pub dek : Key) (nonce : Nonce)
    (out : EncryptOut) : Prop where
  cipher : aesGcmEncrypt ssl plain dek nonce = .ok out.cipher
  sealedKey : ∃ ephPriv, sealDEK ssl ephPriv dek pub = .ok out.wrapped.bytes
  nonce : out.wrapped.nonce = nonce.1
  digest : out.digest = hashBytes plain

theorem encrypted_of_encrypt {random : EncryptRandom} {rid : UserId} {pub : Key} {out : EncryptOut}
    (h : encrypt ssl random plain rid pub.1 = .ok out) :
    ∃ dek nonce, random.dek = some dek ∧ random.nonce = some nonce ∧
      Encrypted ssl plain pub dek nonce out := by
  unfold encrypt at h
  rw [dif_pos pub.2] at h
  obtain ⟨dek, hdek, h₁⟩ := bind_eq_ok.1 h
  obtain ⟨nonce, hnonce, h₂⟩ := bind_eq_ok.1 h₁
  obtain ⟨cipher, hcipher, h₃⟩ := bind_eq_ok.1 h₂
  obtain ⟨sealed, hsealed, h₄⟩ := bind_eq_ok.1 h₃
  obtain ⟨wrapped, hwrapped, h₅⟩ := bind_eq_ok.1 h₄
  cases h₅
  unfold WrappedKey.new at hwrapped
  split at hwrapped
  · cases hwrapped
  split at hwrapped
  · cases hwrapped
  cases hwrapped
  exact ⟨dek, nonce, drawn_eq_ok.1 hdek, drawn_eq_ok.1 hnonce, hcipher, ⟨_, hsealed⟩, rfl, rfl⟩

/-- `decryptAndVerify` up to its check of the digest. -/
def opened (ssl : OpenSsl) (cipher : Bytes) (w : WrappedKey) (priv : Key) : Except Exn Bytes :=
  if h : w.nonce.length = 12 then
    if w.bytes.isEmpty then
      .error (.integrity "wrapped bytes empty")
    else do
      let dek ← unsealDEK ssl w.bytes priv
      aesGcmDecrypt ssl cipher dek ⟨w.nonce, h⟩
  else
    .error (.integrity "nonce must be 12")

theorem decryptAndVerify_eq (cipher : Bytes) (w : WrappedKey) (d : Digest) (priv : Key) :
    decryptAndVerify ssl cipher w d priv = opened ssl cipher w priv >>= fun plain =>
      if hashBytes plain = d then pure plain else throw (.integrity "digest mismatch") := by
  unfold decryptAndVerify opened
  split
  · split
    · rfl
    · cases unsealDEK ssl w.bytes priv <;> rfl
  · rfl

/-- The recipient opens a cipher with the key and the nonce of the encryption. -/
theorem Encrypted.opened_eq (hssl : ssl.Lawful) {out : EncryptOut}
    (h : Encrypted ssl plain (ssl.publicKey priv) dek nonce out) (cipher : Bytes) :
    opened ssl cipher out.wrapped priv = aesGcmDecrypt ssl cipher dek nonce := by
  obtain ⟨ephPriv, hsealed⟩ := h.sealedKey
  obtain ⟨hlength, hunseal⟩ := unsealDEK_sealDEK hssl hsealed
  have hnonempty : out.wrapped.bytes.isEmpty = false := by
    cases hbytes : out.wrapped.bytes with
    | nil =>
        rw [hbytes] at hlength
        cases hlength
    | cons b bs => rfl
  unfold opened
  simp only [h.nonce, nonce.2, ↓reduceDIte, hnonempty, Bool.false_eq_true, if_false]
  rw [hunseal]
  rfl

/-- A file that is shorter than 4 GiB is read again with the private key of the public key it was
encrypted to. -/
theorem decryptAndVerify_encrypt (hssl : ssl.Lawful) {random : EncryptRandom} {rid : UserId}
    {out : EncryptOut} (hlen : plain.length < 2 ^ 32)
    (h : encrypt ssl random plain rid (ssl.publicKey priv).1 = .ok out) :
    decryptAndVerify ssl out.cipher out.wrapped out.digest priv = .ok plain := by
  obtain ⟨dek, nonce, -, -, hout⟩ := encrypted_of_encrypt h
  rw [decryptAndVerify_eq, hout.opened_eq hssl, aesGcmDecrypt_aesGcmEncrypt hssl hlen hout.cipher,
    hout.digest]
  exact if_pos rfl

end RoundTrip

end ClientCryptoProvider

/-- A key exchange and a cipher with the laws of X25519 and AES-GCM: secrets are xored, and the tag
depends on the key. -/
def sampleSsl : OpenSsl where
  publicKey k := k
  derive a b := some (xorKeys a b)
  gcmEncrypt k _ m := (m.map (· ^^^ k.1.headD 0), ⟨k.1.take 16, by simp [k.2]⟩)
  gcmDecrypt k _ c tag := if tag.1 = k.1.take 16 then some (c.map (· ^^^ k.1.headD 0)) else none

theorem map_xor_cancel (c : UInt8) (m : Bytes) : (m.map (· ^^^ c)).map (· ^^^ c) = m := by
  rw [List.map_map]
  exact (List.map_congr_left fun x _ => ClientCryptoProvider.xor_xor_self x c).trans (List.map_id m)

theorem sampleSsl_lawful : sampleSsl.Lawful where
  derive_comm := by
    intro a b
    exact congrArg some (ClientCryptoProvider.xorKeys_comm a b)
  gcm_undone := by
    intro k n m
    exact (if_pos rfl).trans (congrArg some (map_xor_cancel _ m))
  gcm_length := by
    intro k n m
    simp [sampleSsl]

end SecureFileTransfer
