import SecureFileTransfer.ClientApp

/-!
# ClientKeys — which ciphertexts stay readable

A key pair is written at three places: the cache of public keys, the key pairs in memory and the
file of the private key.  As long as the cache and the files match, an upload can be read with the
stored key; a command keeps that for what was uploaded before unless it writes over such a file.
-/

namespace SecureFileTransfer

open Calls Runs Client ClientCryptoProvider ClientDisk

variable {ssl : OpenSsl} {resolve : Bytes → Bytes} {v : ClientVars} {d : ClientDisk}

/-! ## The invariant -/

/-- The stored key of the recipient decrypts what was encrypted. -/
def Decryptable (ssl : OpenSsl) (resolve : Bytes → Bytes) (d : ClientDisk) (e : Encryption) :
    Prop :=
  ∃ priv, d.storedKey resolve e.recipient = some priv ∧
    decryptAndVerify ssl e.out.cipher e.out.wrapped e.out.digest priv = .ok e.plain

def Usable (ssl : OpenSsl) (resolve : Bytes → Bytes) (d : ClientDisk) : Prop :=
  ∀ e ∈ d.encrypted, Decryptable ssl resolve d e

/-- Distinct user names have distinct key files. -/
def DistinctKeyFiles (resolve : Bytes → Bytes) : Prop :=
  ∀ u u', resolve (keyPathFor u) = resolve (keyPathFor u') → u = u'

/-- The cache matches the key files, and every recipient is in it. -/
structure Matched (ssl : OpenSsl) (resolve : Bytes → Bytes) (v : ClientVars) (d : ClientDisk) :
    Prop where
  cached : ∀ u pub, v.pubCache.lookup u = some pub →
    ∃ priv, d.storedKey resolve u = some priv ∧ pub = (ssl.publicKey priv).1
  recipients : ∀ e ∈ d.encrypted, e.recipient ∈ v.pubCache
  usable : Usable ssl resolve d

/-- Only the cache of the variables matters. -/
theorem Matched.of_pubCache {v' : ClientVars} (h : Matched ssl resolve v d)
    (heq : v'.pubCache = v.pubCache) : Matched ssl resolve v' d where
  cached := by rw [heq]; exact h.cached
  recipients := by rw [heq]; exact h.recipients
  usable := h.usable

theorem privKeyOf_key (k : Key) : privKeyOf k.1 = some k := by
  unfold privKeyOf
  rw [dif_pos k.2.ge]
  exact congrArg some (Subtype.ext (List.take_of_length_le k.2.le))

/-! ## Writes -/

/-- The disk with new contents of a file. -/
def ClientDisk.write (d : ClientDisk) (file data : Bytes) : ClientDisk :=
  { d with files := Function.update d.files file (some data) }

theorem storedKey_write_ne {file data u : Bytes} (h : file ≠ resolve (keyPathFor u)) :
    (d.write file data).storedKey resolve u = d.storedKey resolve u := by
  show (Function.update d.files file (some data) _).bind privKeyOf = _
  rw [Function.update_of_ne h.symm]
  rfl

theorem storedKey_write_self {u : Bytes} (k : Key) :
    (d.write (resolve (keyPathFor u)) k.1).storedKey resolve u = some k := by
  show (Function.update d.files _ (some k.1) _).bind privKeyOf = _
  rw [Function.update_self]
  exact privKeyOf_key k

/-- A write that is not over the key file of a recipient. -/
theorem Usable.write (h : Usable ssl resolve d) {file data : Bytes}
    (hfile : ∀ e ∈ d.encrypted, file ≠ resolve (keyPathFor e.recipient)) :
    Usable ssl resolve (d.write file data) := by
  intro e he
  obtain ⟨priv, hpriv, hplain⟩ := h e he
  exact ⟨priv, by rw [storedKey_write_ne (hfile e he)]; exact hpriv, hplain⟩

/-- A write that is over no key file of a cached user. -/
theorem Matched.write (h : Matched ssl resolve v d) {file data : Bytes}
    (hfile : ∀ u ∈ v.pubCache, file ≠ resolve (keyPathFor u)) :
    Matched ssl resolve v (d.write file data) where
  cached := by
    intro u pub hpub
    rw [storedKey_write_ne (hfile u (AList.lookup_isSome.1 (by rw [hpub]; rfl)))]
    exact h.cached u pub hpub
  recipients := h.recipients
  usable := h.usable.write fun e he => hfile _ (h.recipients e he)

/-- A new key pair for a user for whom nothing was encrypted. -/
theorem Matched.setKeys (h : Matched ssl resolve v d) (hdistinct : DistinctKeyFiles resolve)
    {user : Bytes} {kp : KeyPair} (hkp : kp.pub = ssl.publicKey kp.priv)
    (huser : ∀ e ∈ d.encrypted, e.recipient ≠ user) :
    Matched ssl resolve (v.setKeys user kp) (d.write (resolve (keyPathFor user)) kp.priv.1) where
  cached := by
    intro u pub hpub
    by_cases hu : u = user
    · subst hu
      rw [ClientVars.setKeys, AList.lookup_insert] at hpub
      refine ⟨kp.priv, storedKey_write_self kp.priv, ?_⟩
      rw [← hkp]
      exact (Option.some.inj hpub).symm
    · -- another user: neither the cache entry nor the key file is touched
      rw [ClientVars.setKeys, AList.lookup_insert_ne hu] at hpub
      rw [storedKey_write_ne fun heq => hu (hdistinct _ _ heq).symm]
      exact h.cached u pub hpub
  recipients := fun e he => (AList.mem_insert _).2 (.inr (h.recipients e he))
  usable := h.usable.write fun e he heq => huser e he (hdistinct _ _ heq).symm

/-- An encryption to a cached key. -/
theorem Matched.encrypted (h : Matched ssl resolve v d) (hssl : ssl.Lawful) {e : Encryption}
    {random : EncryptRandom} {pub : Bytes} (hlen : e.plain.length < 2 ^ 32)
    (hpub : v.pubCache.lookup e.recipient = some pub)
    (hout : encrypt ssl random e.plain ⟨e.recipient⟩ pub = .ok e.out) :
    Matched ssl resolve v { d with encrypted := d.encrypted ++ [e] } where
  cached := h.cached
  recipients := by
    intro e' he'
    rcases List.mem_append.1 he' with hold | hnew
    · exact h.recipients e' hold
    · obtain rfl := List.mem_singleton.1 hnew
      exact AList.lookup_isSome.1 (by rw [hpub]; rfl)
  usable := by
    intro e' he'
    rcases List.mem_append.1 he' with hold | hnew
    · exact h.usable e' hold
    · obtain rfl := List.mem_singleton.1 hnew
      -- the cached key is the public half of the stored one, so the round trip applies
      obtain ⟨priv, hpriv, rfl⟩ := h.cached _ pub hpub
      exact ⟨priv, hpriv, decryptAndVerify_encrypt hssl hlen hout⟩

/-! ## Calls that leave the disk alone -/

def ClientCall.Quiet : ClientCall → Prop
  | .writeFile _ _ => False
  | .encrypted _ => False
  | _ => True

theorem act_quiet {c : ClientCall} (h : c.Quiet) (ρ : Reaction) (d : ClientDisk) :
    (act resolve c ρ d).2 = d := by
  cases c with
  | writeFile path data => exact h.elim
  | encrypted e => exact h.elim
  | _ => rfl

section Rules

variable {α β : Type} {allowed : ClientDisk → ClientCall → Reaction → Prop}
  {I : ClientDisk → Prop} {x : Client α}

theorem wpc_quiet {Q : Except Exn α → ClientDisk → Prop} (hx : x.All ClientCall.Quiet) (hI : I d)
    (hQ : ∀ r, Q r d) : wpc (act resolve) allowed I x Q d := by
  -- the disk stays the same one at every call
  have hsame : wpc (act resolve) allowed (· = d) x (fun _ => (· = d)) d :=
    wpc_of_all (fun c ρ d' hc _ hd' => (act_quiet hc ρ d').trans hd') hx rfl
  refine wpc_weaken (I := (· = d)) ?_ fun d' hd' => by rw [hd']; exact hI
  refine wpc_mono hsame fun r d' _ hd' => ?_
  rw [hd']
  exact hQ r

theorem wpc_quiet_bind {f : α → Client β} {Q : Except Exn β → ClientDisk → Prop}
    (hx : x.All ClientCall.Quiet) (hI : I d) (herror : ∀ e, Q (.error e) d)
    (hf : ∀ a, wpc (act resolve) allowed I (f a) Q d) :
    wpc (act resolve) allowed I (x >>= f) Q d := by
  refine wpc_bind (wpc_quiet hx hI fun r => ?_)
  cases r with
  | ok a => exact hf a
  | error e => exact herror e

end Rules

section All

variable {α : Type} {c : ClientCall}

theorem all_ask (hc : c.Quiet) : (ask c : Client c.ans).All ClientCall.Quiet :=
  ⟨hc, fun _ => trivial⟩

theorem all_throwing (failed : Option Bytes) : (throwing failed).All ClientCall.Quiet := by
  cases failed with
  | none => trivial
  | some text => trivial

theorem all_sendFrame (f : Frame) : (sendFrame f).All ClientCall.Quiet :=
  all_bind (all_ask trivial) all_throwing

theorem all_printSafe (msg : Bytes) : (printSafe msg).All ClientCall.Quiet := all_ask trivial

theorem all_printError (msg : Bytes) : (printError msg).All ClientCall.Quiet := all_ask trivial

theorem all_ite {p : Prop} [Decidable p] {x y : Client α} (hx : x.All ClientCall.Quiet)
    (hy : y.All ClientCall.Quiet) : (if p then x else y).All ClientCall.Quiet := by
  split
  · exact hx
  · exact hy

theorem all_loadPrivKey (user : Bytes) : (ClientApp.loadPrivKey user).All ClientCall.Quiet :=
  all_bind (all_ask trivial) fun _ => trivial

theorem all_sendChunks (uploadId cipher : Bytes) (turns offset : Nat) :
    (ClientApp.sendChunks uploadId cipher turns offset).All ClientCall.Quiet := by
  -- induction on the turns of the loop; a refused chunk ends it
  induction turns generalizing offset with
  | zero => trivial
  | succ turns ih =>
      refine all_ite ?_ trivial
      refine all_bind (all_sendFrame _) fun _ => all_bind (all_ask trivial) fun reply => ?_
      exact all_ite (all_printError _) (ih _)

theorem all_sendUpload (init : UploadInit) (cipher : Bytes) :
    (ClientApp.sendUpload init cipher).All ClientCall.Quiet := by
  refine all_bind (all_sendFrame _) fun _ => all_bind (all_ask trivial) fun reply => ?_
  refine all_ite (all_printError _) ?_
  refine all_bind (all_sendChunks _ _ _ _) fun _ => all_bind (all_sendFrame _) fun _ => ?_
  refine all_bind (all_ask trivial) fun reply => ?_
  cases reply with
  | none => trivial
  | some r => exact all_ite (all_printSafe _) (all_printError _)

theorem all_createDirectories : createDirectories.All ClientCall.Quiet :=
  all_bind (all_ask trivial) all_throwing

end All

/-! ## Commands -/

/-- Files can be opened, and are read and written to their end. -/
def Reaction.Complete (ρ : Reaction) : Prop := ρ.opened = true ∧ ρ.limit = none

theorem Reaction.Complete.cut {ρ : Reaction} (h : ρ.Complete) (data : Bytes) :
    ρ.cut data = data := by
  unfold Reaction.cut
  rw [h.2]

theorem act_writeFile_complete {ρ : Reaction} (h : ρ.Complete) (path data : Bytes) :
    (act resolve (.writeFile path data) ρ d).2 = d.write (resolve path) data := by
  show (if ρ.opened then _ else _ : Bool × ClientDisk).2 = _
  rw [if_pos h.1, h.cut]
  rfl

/-- A write may fail, or stop before the end. -/
theorem act_writeFile (ρ : Reaction) (path data : Bytes) :
    (act resolve (.writeFile path data) ρ d).2 = d ∨
      (act resolve (.writeFile path data) ρ d).2 = d.write (resolve path) (ρ.cut data) := by
  simp only [act]
  by_cases h : ρ.opened = true
  · rw [if_pos h]
    exact .inr rfl
  · rw [if_neg h]
    exact .inl rfl

/-- The reactions under which Register and Login are considered. -/
def completeIo (_ : ClientDisk) (_ : ClientCall) (ρ : Reaction) : Prop := ρ.Complete

def anyReaction (_ : ClientDisk) (_ : ClientCall) (_ : Reaction) : Prop := True

/-- The variables that a command returns match the disk. -/
def MatchedResult (ssl : OpenSsl) (resolve : Bytes → Bytes) (r : Except Exn ClientVars)
    (d : ClientDisk) : Prop :=
  ∀ v, r = .ok v → Matched ssl resolve v d

theorem matchedResult_ok (h : Matched ssl resolve v d) : MatchedResult ssl resolve (.ok v) d := by
  intro v' heq
  cases heq
  exact h

theorem matchedResult_error (e : Exn) : MatchedResult ssl resolve (.error e) d := by
  intro v heq
  cases heq

theorem wpc_generateKeys {allowed : ClientDisk → ClientCall → Reaction → Prop}
    {I : ClientDisk → Prop} {Q : Except Exn KeyPair → ClientDisk → Prop} (hI : I d)
    (herror : ∀ e, Q (.error e) d) (hok : ∀ kp, kp.pub = ssl.publicKey kp.priv → Q (.ok kp) d) :
    wpc (act resolve) allowed I (ClientApp.generateKeys ssl) Q d := by
  refine wpc_ask_bind hI fun ρ _ => ?_
  show wpc (act resolve) allowed I (outcome (KeyPair.generate ssl (ρ.random 32))) Q d
  cases ρ.random 32 with
  | none => exact ⟨hI, herror _⟩
  | some priv => exact ⟨hI, hok _ rfl⟩

section Commands

variable (hdistinct : DistinctKeyFiles resolve)
include hdistinct

theorem wpc_newKeys {user : Bytes} (h : Matched ssl resolve v d)
    (huser : ∀ e ∈ d.encrypted, e.recipient ≠ user) :
    wpc (act resolve) completeIo (Usable ssl resolve) (ClientApp.newKeys ssl v user)
      (MatchedResult ssl resolve) d := by
  refine wpc_bind (wpc_generateKeys h.usable matchedResult_error fun kp hkp => ?_)
  have hset := h.setKeys hdistinct hkp huser
  refine wpc_bind (wpc_quiet_bind all_createDirectories h.usable matchedResult_error fun _ => ?_)
  refine wpc_ask_bind h.usable fun ρ hρ => ?_
  -- `savePrivKey` does not notice a stream that fails: without `completeIo` the cache would get
  -- a key that is not on the disk
  rw [act_writeFile_complete hρ]
  exact ⟨hset.usable, hset.usable, matchedResult_ok hset⟩

theorem wpc_register {user email pw answer : Bytes} (h : Matched ssl resolve v d)
    (huser : ∀ e ∈ d.encrypted, e.recipient ≠ user) :
    wpc (act resolve) completeIo (Usable ssl resolve)
      (ClientApp.register ssl v user email pw answer) (MatchedResult ssl resolve) d := by
  refine wpc_ite (fun _ => ?_) fun _ => wpc_pure h.usable (matchedResult_ok h)
  refine wpc_bind (wpc_mono (wpc_newKeys hdistinct h huser) ?_)
  rintro (e | v') d' husable hresult
  · exact matchedResult_error e
  have h' := hresult v' rfl
  refine wpc_quiet_bind (all_ask trivial) husable matchedResult_error fun _ => ?_
  refine wpc_quiet_bind (all_sendFrame _) husable matchedResult_error fun _ => ?_
  refine wpc_quiet_bind (all_ask trivial) husable matchedResult_error fun reply => ?_
  -- the reply is printed only: the keys are replaced even if the server refuses
  cases reply with
  | none => exact wpc_pure husable (matchedResult_ok h')
  | some resp =>
      have hreply : (ClientApp.printReply resp).All ClientCall.Quiet :=
        all_ite (all_printSafe _) (all_printError _)
      refine wpc_quiet_bind hreply husable matchedResult_error fun _ => ?_
      exact wpc_pure husable (matchedResult_ok h')

/-- A key file that can be read is kept, and that of a recipient can. -/
theorem wpc_ensureKeys {user : Bytes} (h : Matched ssl resolve v d) :
    wpc (act resolve) completeIo (Usable ssl resolve) (ClientApp.ensureKeys ssl v user)
      (MatchedResult ssl resolve) d := by
  refine wpc_bind (wpc_ask_bind h.usable fun ρ hρ => wpc_pure h.usable ?_)
  have hread : (act resolve (.readFile (keyPathFor user)) ρ d).1.bind privKeyOf =
      d.storedKey resolve user := by
    show (if ρ.opened then (d.files _).map ρ.cut else none).bind privKeyOf = _
    rw [if_pos hρ.1, funext hρ.cut, Option.map_id']
    rfl
  rw [hread]
  cases hstored : d.storedKey resolve user with
  | some priv =>
      show wpc _ _ _ _ _ d
      cases v.localKeys.lookup user with
      | some kp => exact wpc_pure h.usable (matchedResult_ok h)
      | none => exact wpc_pure h.usable (matchedResult_ok (h.of_pubCache rfl))
  | none =>
      -- no key can be read for this user, so nothing readable was uploaded for it
      have huser : ∀ e ∈ d.encrypted, e.recipient ≠ user := by
        rintro e he rfl
        obtain ⟨priv, hpriv, -⟩ := h.usable e he
        rw [hstored] at hpriv
        cases hpriv
      refine wpc_bind (wpc_mono (wpc_newKeys hdistinct h huser) ?_)
      rintro (e | v') d' husable hresult
      · exact matchedResult_error e
      refine wpc_quiet_bind (all_ask trivial) husable matchedResult_error fun _ => ?_
      exact wpc_pure husable (matchedResult_ok (hresult v' rfl))

theorem wpc_loggedIn {user token : Bytes} (h : Matched ssl resolve v d) :
    wpc (act resolve) completeIo (Usable ssl resolve) (ClientApp.loggedIn ssl v user token)
      (MatchedResult ssl resolve) d := by
  refine wpc_bind (wpc_mono (wpc_ensureKeys hdistinct (h.of_pubCache rfl)) ?_)
  rintro (e | v') d' husable hresult
  · exact matchedResult_error e
  refine wpc_quiet_bind (all_printSafe _) husable matchedResult_error fun _ => ?_
  refine wpc_quiet_bind (all_ask trivial) husable matchedResult_error fun _ => ?_
  exact wpc_pure husable (matchedResult_ok (hresult v' rfl))

theorem wpc_login {user pw : Bytes} (h : Matched ssl resolve v d) :
    wpc (act resolve) completeIo (Usable ssl resolve) (ClientApp.login ssl v user pw)
      (MatchedResult ssl resolve) d := by
  refine wpc_quiet_bind (all_sendFrame _) h.usable matchedResult_error fun _ => ?_
  refine wpc_quiet_bind (all_ask trivial) h.usable matchedResult_error fun reply => ?_
  cases reply with
  | none => exact wpc_pure h.usable (matchedResult_ok h)
  | some resp =>
      refine wpc_ite (fun _ => wpc_loggedIn hdistinct h) fun _ => ?_
      refine wpc_quiet_bind (all_printError _) h.usable matchedResult_error fun _ => ?_
      exact wpc_pure h.usable (matchedResult_ok h)

end Commands

theorem wpc_logout {allowed : ClientDisk → ClientCall → Reaction → Prop}
    (h : Matched ssl resolve v d) :
    wpc (act resolve) allowed (Usable ssl resolve) (ClientApp.logout v)
      (MatchedResult ssl resolve) d := by
  refine wpc_ite (fun _ => ?_) fun _ => ?_
  · refine wpc_quiet_bind (all_printError _) h.usable matchedResult_error fun _ => ?_
    exact wpc_pure h.usable (matchedResult_ok h)
  refine wpc_quiet_bind (all_sendFrame _) h.usable matchedResult_error fun _ => ?_
  refine wpc_quiet_bind (all_ask trivial) h.usable matchedResult_error fun reply => ?_
  cases reply with
  | none => exact wpc_pure h.usable (matchedResult_ok h)
  | some resp =>
      refine wpc_quiet_bind (all_printSafe _) h.usable matchedResult_error fun _ => ?_
      exact wpc_pure h.usable (matchedResult_ok (h.of_pubCache rfl))

/-! Upload and Download leave the variables alone, and keep what matches at every call. -/

/-- What is read of a file is not longer than the file. -/
theorem length_le_of_readFile {ρ : Reaction} {path plain : Bytes}
    (h : (act resolve (.readFile path) ρ d).1 = some plain) :
    ∃ data, d.files (resolve path) = some data ∧ plain.length ≤ data.length := by
  change (if ρ.opened then (d.files (resolve path)).map ρ.cut else none) = some plain at h
  split at h
  · obtain ⟨data, hdata, rfl⟩ := Option.map_eq_some_iff.1 h
    refine ⟨data, hdata, ?_⟩
    unfold Reaction.cut
    split
    · exact List.length_take_le' _ _
    · exact le_rfl
  · cases h

theorem wpc_uploadFile {filePath recipient : Bytes} (hssl : ssl.Lawful)
    (h : Matched ssl resolve v d)
    (hlen : ∀ data, d.files (resolve filePath) = some data → data.length < 2 ^ 32) :
    wpc (act resolve) anyReaction (Matched ssl resolve v)
      (ClientApp.uploadFile ssl v filePath recipient) (fun _ => Matched ssl resolve v) d := by
  refine wpc_bind (wpc_ask_bind h fun ρ _ => ?_)
  cases hread : (act resolve (.readFile filePath) ρ d).1 with
  | none => exact wpc_throw h h
  | some plain =>
      obtain ⟨data, hdata, hle⟩ := length_le_of_readFile hread
      have hplain : plain.length < 2 ^ 32 := hle.trans_lt (hlen data hdata)
      refine wpc_pure h ?_
      show wpc _ _ _ _ _ d
      cases hpub : v.pubCache.lookup recipient with
      | none => exact wpc_quiet (all_printError _) h fun _ => h
      | some recipPub =>
          -- the draws of `encrypt` do not touch the disk
          refine wpc_quiet_bind (all_ask trivial) h (fun _ => h) fun dek => ?_
          refine wpc_quiet_bind (all_ask trivial) h (fun _ => h) fun nonce => ?_
          refine wpc_quiet_bind (all_ask trivial) h (fun _ => h) fun ephPriv => ?_
          cases henc : encrypt ssl ⟨dek, nonce, ephPriv⟩ plain ⟨recipient⟩ recipPub with
          | error e => exact wpc_throw h h
          | ok enc =>
              have h' := h.encrypted (e := ⟨recipient, plain, enc⟩) hssl hplain hpub henc
              refine wpc_ask_bind h fun _ _ => ?_
              exact wpc_quiet (all_bind (all_ask trivial) fun _ => all_sendUpload _ _) h' fun _ => h'

/-- A `try` whose handler prints the error. -/
theorem wpc_reported {x : Client Unit} {text : Bytes}
    (hx : wpc (act resolve) anyReaction (Matched ssl resolve v) x
      (fun _ => Matched ssl resolve v) d) :
    wpc (act resolve) anyReaction (Matched ssl resolve v)
      (tryCatch x fun e => printError (text ++ e.what)) (fun _ => Matched ssl resolve v) d := by
  refine wpc_tryCatch (wpc_mono hx ?_)
  rintro (e | _) d' h' -
  · exact wpc_quiet (all_printError _) h' fun _ => h'
  · exact h'

theorem wpc_upload {filePath recipient answer : Bytes} (hssl : ssl.Lawful)
    (h : Matched ssl resolve v d)
    (hlen : ∀ data, d.files (resolve filePath) = some data → data.length < 2 ^ 32) :
    wpc (act resolve) anyReaction (Matched ssl resolve v)
      (ClientApp.upload ssl v filePath recipient answer) (fun _ => Matched ssl resolve v) d := by
  refine wpc_ite (fun _ => wpc_quiet (all_printError _) h fun _ => h) fun _ => ?_
  exact wpc_ite (fun _ => wpc_reported (wpc_uploadFile hssl h hlen)) fun _ => wpc_pure h h

theorem wpc_saveDownload {outPath body : Bytes} (h : Matched ssl resolve v d)
    (hpath : ∀ u ∈ v.pubCache, resolve outPath ≠ resolve (keyPathFor u)) :
    wpc (act resolve) anyReaction (Matched ssl resolve v) (ClientApp.saveDownload v outPath body)
      (fun _ => Matched ssl resolve v) d := by
  refine wpc_ite (fun _ => wpc_quiet (all_printError _) h fun _ => h) fun _ => ?_
  refine wpc_quiet_bind (all_loadPrivKey _) h (fun _ => h) fun priv => ?_
  refine wpc_ite (fun _ => wpc_quiet (all_printError _) h fun _ => h) fun _ => ?_
  refine wpc_bind (wpc_ask_bind h fun ρ _ => ?_)
  -- the stream fails to open, or writes all or a part of the bytes
  have h' : Matched ssl resolve v
      (act resolve (.writeFile outPath (ClientApp.opaqueOf body)) ρ d).2 := by
    rcases act_writeFile ρ outPath (ClientApp.opaqueOf body) with hsame | hwritten
    · rw [hsame]
      exact h
    · rw [hwritten]
      exact h.write hpath
  refine wpc_ite (fun _ => ?_) fun _ => wpc_throw h' h'
  refine wpc_pure h' ?_
  exact wpc_quiet (all_printSafe _) h' fun _ => h'

theorem wpc_downloadFile {fileId outPath : Bytes} (h : Matched ssl resolve v d)
    (hpath : ∀ u ∈ v.pubCache, resolve outPath ≠ resolve (keyPathFor u)) :
    wpc (act resolve) anyReaction (Matched ssl resolve v) (ClientApp.downloadFile v fileId outPath)
      (fun _ => Matched ssl resolve v) d := by
  refine wpc_quiet_bind (all_sendFrame _) h (fun _ => h) fun _ => ?_
  refine wpc_quiet_bind (all_ask trivial) h (fun _ => h) fun reply => ?_
  cases reply with
  | none => exact wpc_pure h h
  | some resp =>
      refine wpc_ite (fun _ => wpc_saveDownload h hpath) fun _ => ?_
      exact wpc_quiet (all_ite (all_printError _) (all_printError _)) h fun _ => h

theorem wpc_download {fileId outPath : Bytes} (h : Matched ssl resolve v d)
    (hpath : ∀ u ∈ v.pubCache,
      resolve (ClientApp.savePath fileId outPath) ≠ resolve (keyPathFor u)) :
    wpc (act resolve) anyReaction (Matched ssl resolve v) (ClientApp.download v fileId outPath)
      (fun _ => Matched ssl resolve v) d := by
  refine wpc_ite (fun _ => wpc_quiet (all_printError _) h fun _ => h) fun _ => ?_
  exact wpc_reported (wpc_downloadFile h hpath)

/-! ## Every run -/

/-- The input does not put a key at risk: nothing was uploaded for a user who is registered, the
files of a registration and of a login can be read and written to their end, a file to upload is
shorter than 4 GiB, and a download is not saved over the key file of a user with a cached key. -/
def Careful (resolve : Bytes → Bytes) (v : ClientVars) (d : ClientDisk) (i : ClientInput) : Prop :=
  match i.command with
  | .register user _ _ answer =>
      askYesNo answer = true →
        (∀ e ∈ d.encrypted, e.recipient ≠ user) ∧ ∀ n, (i.reactions n).Complete
  | .login _ _ => ∀ n, (i.reactions n).Complete
  | .upload filePath _ _ =>
      ∀ data, d.files (resolve filePath) = some data → data.length < 2 ^ 32
  | .download fileId outPath =>
      ∀ u ∈ v.pubCache, resolve (ClientApp.savePath fileId outPath) ≠ resolve (keyPathFor u)
  | _ => True

/-- What is kept while the client runs, and after it has ended. -/
structure KeysKept (ssl : OpenSsl) (resolve : Bytes → Bytes) (s : ClientState) : Prop where
  matched : ∀ v, s.vars = some v → Matched ssl resolve v s.disk
  usable : Usable ssl resolve s.disk

/-- What a turn of the menu leaves. -/
def TurnResult (ssl : OpenSsl) (resolve : Bytes → Bytes) (r : Except Exn (Option ClientVars))
    (d : ClientDisk) : Prop :=
  ∀ v, r = .ok (some v) → Matched ssl resolve v d

/-- A command that returns new variables. -/
theorem wpc_turn_vars {allowed : ClientDisk → ClientCall → Reaction → Prop} {x : Client ClientVars}
    (hx : wpc (act resolve) allowed (Usable ssl resolve) x (MatchedResult ssl resolve) d) :
    wpc (act resolve) allowed (Usable ssl resolve) (x >>= fun v => pure (some v))
      (TurnResult ssl resolve) d := by
  refine wpc_bind (wpc_mono hx ?_)
  rintro (e | v') d' husable hresult
  · intro v heq
    cases heq
  · refine wpc_pure husable fun v heq => ?_
    cases heq
    exact hresult v' rfl

/-- A command that leaves the variables alone. -/
theorem wpc_turn_unit {allowed : ClientDisk → ClientCall → Reaction → Prop} {x : Client Unit}
    (hx : wpc (act resolve) allowed (Matched ssl resolve v) x (fun _ => Matched ssl resolve v) d) :
    wpc (act resolve) allowed (Usable ssl resolve) (x >>= fun _ => pure (some v))
      (TurnResult ssl resolve) d := by
  refine wpc_bind (wpc_mono (wpc_weaken hx fun d' h => h.usable) ?_)
  rintro (e | _) d' husable h'
  · intro v heq
    cases heq
  · refine wpc_pure husable fun v' heq => ?_
    cases heq
    exact h'

theorem turn_keepsKeys (hssl : ssl.Lawful) (hdistinct : DistinctKeyFiles resolve)
    {i : ClientInput} (h : Matched ssl resolve v d) (hc : Careful resolve v d i) :
    ∃ allowed, (∀ n d c, allowed d c (i.reactions n)) ∧
      wpc (act resolve) allowed (Usable ssl resolve) (ClientApp.turn ssl v i.command)
        (TurnResult ssl resolve) d := by
  obtain ⟨command, reactions⟩ := i
  cases command with
  | register user email pw answer =>
      by_cases hyes : askYesNo answer = true
      · obtain ⟨huser, hio⟩ := hc hyes
        exact ⟨completeIo, fun n _ _ => hio n, wpc_turn_vars (wpc_register hdistinct h huser)⟩
      · refine ⟨anyReaction, fun _ _ _ => trivial, wpc_turn_vars ?_⟩
        exact wpc_ite (fun hy => absurd hy hyes) fun _ => wpc_pure h.usable (matchedResult_ok h)
  | login user pw =>
      exact ⟨completeIo, fun n _ _ => hc n, wpc_turn_vars (wpc_login hdistinct h)⟩
  | logout => exact ⟨anyReaction, fun _ _ _ => trivial, wpc_turn_vars (wpc_logout h)⟩
  | upload filePath recipient answer =>
      exact ⟨anyReaction, fun _ _ _ => trivial, wpc_turn_unit (wpc_upload hssl h hc)⟩
  | download fileId outPath =>
      exact ⟨anyReaction, fun _ _ _ => trivial, wpc_turn_unit (wpc_download h hc)⟩
  | quit =>
      refine ⟨anyReaction, fun _ _ _ => trivial, wpc_pure h.usable fun v heq => ?_⟩
      cases heq
  | other =>
      refine ⟨anyReaction, fun _ _ _ => trivial, wpc_pure h.usable fun v heq => ?_⟩
      cases heq
      exact h

section Step

variable {s : ClientState} {i : ClientInput} {d' : ClientDisk}

theorem ClientState.step_of_ok {v' : Option ClientVars} (hv : s.vars = some v)
    (hrun : (ClientApp.turn ssl v i.command).exec (act resolve) i.reactions s.disk = (.ok v', d')) :
    (s.step ssl resolve i).2 = ⟨v', d'⟩ := by
  unfold ClientState.step
  rw [hv]
  simp only [hrun]

theorem ClientState.step_of_error {e : Exn} (hv : s.vars = some v)
    (hrun : (ClientApp.turn ssl v i.command).exec (act resolve) i.reactions s.disk =
      (.error e, d')) :
    (s.step ssl resolve i).2 = ⟨none, d'⟩ := by
  unfold ClientState.step
  rw [hv]
  simp only [hrun]

theorem KeysKept.step (hs : KeysKept ssl resolve s) (hssl : ssl.Lawful)
    (hdistinct : DistinctKeyFiles resolve)
    (hc : ∀ v, s.vars = some v → Careful resolve v s.disk i) :
    KeysKept ssl resolve (s.step ssl resolve i).2 := by
  cases hv : s.vars with
  | none =>
      unfold ClientState.step
      rw [hv]
      exact hs
  | some v =>
      obtain ⟨allowed, hallowed, hturn⟩ :=
        turn_keepsKeys hssl hdistinct (hs.matched v hv) (hc v hv)
      -- the triple holds of the reactions that this input brings
      obtain ⟨husable, hresult⟩ := hturn.exec hallowed
      rcases hrun : (ClientApp.turn ssl v i.command).exec (act resolve) i.reactions s.disk with
        ⟨e | v', d'⟩
      · rw [hrun] at husable
        rw [ClientState.step_of_error hv hrun]
        exact ⟨fun v'' hv'' => (nomatch hv''), husable⟩
      · rw [hrun] at husable hresult
        rw [ClientState.step_of_ok hv hrun]
        exact ⟨fun v'' hv'' => hresult v'' (congrArg Except.ok hv''), husable⟩

end Step

theorem keysKept_initial (files : Bytes → Option Bytes) :
    KeysKept ssl resolve (.initial files) where
  matched := by
    intro v hv
    cases hv
    constructor
    · intro u pub hpub
      cases hpub
    · intro e he
      cases he
    · intro e he
      cases he
  usable := by
    intro e he
    cases he

/-- In every run whose inputs put no key at risk, what was uploaded can be decrypted with the key
that is stored for its recipient. -/
theorem uploads_stay_decryptable (ssl : OpenSsl) (resolve : Bytes → Bytes)
    (files : Bytes → Option Bytes) (inputs : List ClientInput) (hssl : ssl.Lawful)
    (hdistinct : DistinctKeyFiles resolve)
    (hcareful : ∀ t ∈ clientTrace ssl resolve files inputs,
      ∀ v, t.before.vars = some v → Careful resolve v t.before.disk t.input) :
    ∀ e ∈ (clientAfter ssl resolve files inputs).disk.encrypted,
      Decryptable ssl resolve (clientAfter ssl resolve files inputs).disk e := by
  have hkept : KeysKept ssl resolve (clientAfter ssl resolve files inputs) := by
    revert hcareful
    refine trace_induction (P := fun h s => (∀ t ∈ h, ∀ v, t.before.vars = some v →
      Careful resolve v t.before.disk t.input) → KeysKept ssl resolve s) ?_ ?_ inputs
    · exact fun _ => keysKept_initial files
    · intro inputs i ih hcareful
      have hold := ih fun t ht => hcareful t (List.mem_append_left _ ht)
      exact hold.step hssl hdistinct fun v hv =>
        hcareful _ (List.mem_append_right _ (List.mem_singleton_self _)) v hv
  exact hkept.usable

/-! ## A recipient who registers again -/

theorem distinctKeyFiles_id : DistinctKeyFiles id := by
  intro u u' h
  exact List.append_cancel_left (List.append_cancel_right h)

/-- The environment draws the byte again and again, and the server answers with the frame. -/
def sampleReaction (byte : UInt8) (reply : Frame) (_ : Nat) : Reaction where
  random n := some ⟨List.replicate n byte, List.length_replicate⟩
  received := some reply

/-- The file that is uploaded. -/
def sampleFiles (path : Bytes) : Option Bytes :=
  if path = ascii "a.pdf" then some [1, 2, 3] else none

def registerInput (user : String) (byte : UInt8) (reply : MsgType) : ClientInput where
  command := .register (ascii user) (ascii "b@x") (ascii "password") (ascii "y")
  reactions := sampleReaction byte { type := reply }

/-- Bob registers, Alice logs in and uploads a file for him. -/
def uploadInputs : List ClientInput :=
  [ registerInput "bob" 1 .REGISTER,
    { command := .login (ascii "alice") (ascii "password")
      reactions := sampleReaction 2 { type := .AUTH, body := ascii "token" } },
    { command := .upload (ascii "a.pdf") (ascii "bob") (ascii "y")
      reactions := sampleReaction 3 { type := .UPLOAD_COMMIT } } ]

/-- Then somebody tries to register as Bob, and is refused. -/
def refusedInputs : List ClientInput := uploadInputs ++ [registerInput "bob" 4 .ERR]

set_option maxRecDepth 100000 in
theorem refusedInputs_lost :
    (clientAfter sampleSsl id sampleFiles refusedInputs).disk.encrypted.any (fun e =>
      ((clientAfter sampleSsl id sampleFiles refusedInputs).disk.storedKey id e.recipient).all
        fun k => decide
          (decryptAndVerify sampleSsl e.out.cipher e.out.wrapped e.out.digest k ≠ .ok e.plain)) =
      true := by
  decide +kernel

/-- After the refused registration the file for Bob cannot be decrypted any more. -/
theorem upload_lost_after_refused_registration :
    sampleSsl.Lawful ∧ DistinctKeyFiles id ∧
      ∃ e ∈ (clientAfter sampleSsl id sampleFiles refusedInputs).disk.encrypted,
        ¬ Decryptable sampleSsl id (clientAfter sampleSsl id sampleFiles refusedInputs).disk e := by
  refine ⟨sampleSsl_lawful, distinctKeyFiles_id, ?_⟩
  obtain ⟨e, he, hlost⟩ := List.any_eq_true.1 refusedInputs_lost
  refine ⟨e, he, ?_⟩
  rintro ⟨k, hk, hplain⟩
  rw [hk, Option.all_some, decide_eq_true_eq] at hlost
  exact hlost hplain

/-- Then another user registers. -/
def carefulInputs : List ClientInput := uploadInputs ++ [registerInput "carol" 4 .REGISTER]

theorem complete_sampleReaction (byte : UInt8) (reply : Frame) (n : Nat) :
    (sampleReaction byte reply n).Complete := ⟨rfl, rfl⟩

set_option maxRecDepth 100000 in
theorem carefulInputs_states :
    (clientAfter sampleSsl id sampleFiles (uploadInputs.take 2)).disk.files (ascii "a.pdf") =
      some [1, 2, 3] ∧
    (clientAfter sampleSsl id sampleFiles uploadInputs).disk.encrypted.map Encryption.recipient =
      [ascii "bob"] := by
  decide +kernel

theorem uploads_stay_decryptable_carol :
    (clientAfter sampleSsl id sampleFiles carefulInputs).disk.encrypted.length = 1 ∧
      ∀ e ∈ (clientAfter sampleSsl id sampleFiles carefulInputs).disk.encrypted,
        Decryptable sampleSsl id (clientAfter sampleSsl id sampleFiles carefulInputs).disk e := by
  refine ⟨by set_option maxRecDepth 100000 in decide +kernel, ?_⟩
  refine uploads_stay_decryptable _ _ _ _ sampleSsl_lawful distinctKeyFiles_id ?_
  obtain ⟨hfile, hrecipients⟩ := carefulInputs_states
  intro t ht v _
  rcases List.mem_cons.1 ht with rfl | ht
  · exact fun _ => ⟨fun e he => (nomatch he), complete_sampleReaction _ _⟩
  rcases List.mem_cons.1 ht with rfl | ht
  · exact complete_sampleReaction _ _
  rcases List.mem_cons.1 ht with rfl | ht
  · -- the file Alice uploads has three bytes
    intro data hdata
    obtain rfl := Option.some.inj (hfile.symm.trans hdata)
    decide
  obtain rfl := List.mem_singleton.1 ht
  refine fun _ => ⟨fun e he => ?_, complete_sampleReaction _ _⟩
  -- only Bob is a recipient, and Carol is not Bob
  have hbob : e.recipient ∈ [ascii "bob"] := by
    rw [← hrecipients]
    exact List.mem_map_of_mem he
  rw [List.mem_singleton.1 hbob]
  decide

end SecureFileTransfer
