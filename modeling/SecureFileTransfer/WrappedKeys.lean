import SecureFileTransfer.BlobSize
import SecureFileTransfer.ClientCrypto
import SecureFileTransfer.FileParity

/-!
# WrappedKeys — the shape of a stored wrapped key

The constructor of `WrappedKey` asks for a nonce of twelve bytes and sealed bytes.  The decoder of
an announcement fills the fields without it, and nothing on the way to the repository asks again: a
record carries the key that was announced, whatever its shape.
-/

namespace SecureFileTransfer

open Prog Service Handler Runs StdString ClientCryptoProvider

/-! ## The shape -/

/-- One of the two exceptions that `decryptAndVerify` throws before it looks at the ciphertext. -/
def RejectsShape {α : Type} (x : Except Exn α) : Prop :=
  x = .error (.integrity "nonce must be 12") ∨ x = .error (.integrity "wrapped bytes empty")

theorem not_rejectsShape_ok {α : Type} (a : α) : ¬ RejectsShape (.ok a : Except Exn α) := by
  rintro (h | h)
  · cases h
  · cases h

theorem not_rejectsShape_bind {α β : Type} {x : Except Exn α} {f : α → Except Exn β}
    (hx : ¬ RejectsShape x) (hf : ∀ a, ¬ RejectsShape (f a)) : ¬ RejectsShape (x >>= f) := by
  cases x with
  | ok a => exact hf a
  | error e =>
      rintro (h | h)
      · cases h
        exact hx (.inl rfl)
      · cases h
        exact hx (.inr rfl)

theorem not_rejectsShape_error {α : Type} {text : String}
    (hnonce : ascii text ≠ ascii "nonce must be 12")
    (hbytes : ascii text ≠ ascii "wrapped bytes empty") :
    ¬ RejectsShape (.error (.integrity text) : Except Exn α) := by
  rintro (h | h)
  · exact hnonce (congrArg Exn.what (Except.error.inj h))
  · exact hbytes (congrArg Exn.what (Except.error.inj h))

variable (ssl : OpenSsl)

theorem not_rejectsShape_unsealDEK (sealed : Bytes) (priv : Key) :
    ¬ RejectsShape (unsealDEK ssl sealed priv) := by
  rw [unsealDEK]
  split
  · refine not_rejectsShape_bind ?_ fun shared => not_rejectsShape_ok _
    rw [x25519Shared]
    split
    · exact not_rejectsShape_ok _
    · exact not_rejectsShape_error (by decide) (by decide)
  · exact not_rejectsShape_error (by decide) (by decide)

theorem not_rejectsShape_aesGcmDecrypt (cipher : Bytes) (dek : Key) (nonce : Nonce) :
    ¬ RejectsShape (aesGcmDecrypt ssl cipher dek nonce) := by
  rw [aesGcmDecrypt]
  split
  · exact not_rejectsShape_error (by decide) (by decide)
  · refine not_rejectsShape_bind ?_ fun input => ?_
    · rw [updateInput]
      split
      · exact not_rejectsShape_ok _
      · exact not_rejectsShape_error (by decide) (by decide)
    · split
      · exact not_rejectsShape_ok _
      · exact not_rejectsShape_error (by decide) (by decide)

/-- A key is rejected for its shape, by every client and with every ciphertext, or never. -/
theorem rejectsShape_iff (cipher : Bytes) (w : WrappedKey) (d : Digest) (priv : Key) :
    RejectsShape (decryptAndVerify ssl cipher w d priv) ↔ ¬ w.Shaped := by
  rw [decryptAndVerify, WrappedKey.Shaped]
  by_cases hnonce : w.nonce.length = 12
  · rw [dif_pos hnonce]
    by_cases hbytes : w.bytes = []
    · simp [RejectsShape, hbytes]
    · have hempty : ¬ w.bytes.isEmpty = true := by simpa using hbytes
      rw [if_neg hempty]
      refine iff_of_false ?_ (not_not.2 ⟨hnonce, hbytes⟩)
      refine not_rejectsShape_bind (not_rejectsShape_unsealDEK ssl _ _) fun dek => ?_
      refine not_rejectsShape_bind (not_rejectsShape_aesGcmDecrypt ssl _ _ _) fun plain => ?_
      split
      · exact not_rejectsShape_ok _
      · exact not_rejectsShape_error (by decide) (by decide)
  · rw [dif_neg hnonce]
    exact iff_of_true (.inl rfl) fun hshaped => hnonce hshaped.1

/-! ## Every run -/

variable {env : Env} {s s' : ServerState} {ev : ServerEvent} {out : Output} {r : FileRecord}

/-- The store keeps nonce and sealed bytes of the key that was announced. -/
theorem CommitsRecord.wrapped {f : Frame} {c : Conn} {init : UploadInit} {data : Bytes}
    (h : CommitsRecord env s ev out s' r f c init data) :
    r.wrapped.nonce = init.wrapped.nonce ∧ r.wrapped.bytes = init.wrapped.bytes := by
  obtain ⟨w, senderId, recipientId, now, -, rfl⟩ := h.record
  exact ⟨FileRow.getD_bindBlob _, FileRow.getD_bindBlob _⟩

/-- The frame of `t` commits the upload that `init` announced last in the history `h`. -/
def CommitsAnnounced (h : List ServerTransition) (t : ServerTransition) (init : UploadInit) : Prop :=
  ∃ f c ds, t.input = .frame f ∧ f.type = .UPLOAD_COMMIT ∧ t.before.phase = .serving c ∧
    assembled (c.resolve f.body) h = some (init, ds)

/-- The record carries the announced key, and its shape is the announced one. -/
structure CarriesAnnouncedKey (init : UploadInit) (r : FileRecord) : Prop where
  nonce : r.wrapped.nonce = init.wrapped.nonce
  bytes : r.wrapped.bytes = init.wrapped.bytes
  shaped : r.wrapped.Shaped ↔ init.wrapped.Shaped
  rejected : ∀ (ssl : OpenSsl) (cipher : Bytes) (d : Digest) (priv : Key),
    RejectsShape (decryptAndVerify ssl cipher r.wrapped d priv) ↔ ¬ init.wrapped.Shaped

/-- In every run a record carries the key of the announcement that its commit refers to. -/
theorem wrapped_keys_of_run (env : Env) (evs : List ServerEvent) :
    Throughout (fun h t => ∀ r, Creates ServerState.world t r →
      ∃ init, CommitsAnnounced h t init ∧ CarriesAnnouncedKey init r) (serverTrace env evs) := by
  refine server_induction env (P := fun h _ => Throughout _ h) throughout_nil ?_ evs
  intro evs ev ih
  refine throughout_concat.2 ⟨ih, fun r hcr => ?_⟩
  obtain ⟨f, c, init, data, hcommit⟩ := (serverNext_served env evs ev).commitsRecord hcr.1 hcr.2
  -- what is pending on the connection is the last announcement of the history
  have hstart : ∀ c, ServerState.initial.phase = .serving c → Tracks [] c := fun c hc => by cases hc
  have htracks := tracks_of_run env hstart evs c hcommit.phase
  obtain ⟨-, ds, hds, -⟩ := htracks.pending _ _ hcommit.pendingInit
  obtain ⟨hnonce, hbytes⟩ := hcommit.wrapped
  have hshaped : r.wrapped.Shaped ↔ init.wrapped.Shaped := by
    rw [WrappedKey.Shaped, WrappedKey.Shaped, hnonce, hbytes]
  exact ⟨init, ⟨f, c, ds, hcommit.frame, hcommit.type, hcommit.phase, hds⟩, hnonce, hbytes, hshaped,
    fun ssl cipher d priv => (rejectsShape_iff ssl cipher _ d priv).trans (not_congr hshaped)⟩

set_option maxRecDepth 100000 in
theorem sampleCommit_unshaped :
    (Backend.sqlite.records sampleCommit.after.world.files).any
      (fun r => decide (r.wrapped.nonce = [])) = true := by
  decide +kernel

/-- The announcement of `sampleEvents` has an empty wrapped key; the commit is answered with a
transfer, and no client can decrypt the record. -/
theorem sampleEvents_key_unshaped :
    ∃ t ∈ serverTrace Env.counting sampleEvents, ∃ r, Creates ServerState.world t r ∧
      ¬ r.wrapped.Shaped ∧ ∀ (ssl : OpenSsl) (cipher : Bytes) (d : Digest) (priv : Key),
        decryptAndVerify ssl cipher r.wrapped d priv = .error (.integrity "nonce must be 12") := by
  obtain ⟨r, hr, hunshaped⟩ := List.any_eq_true.1 sampleCommit_unshaped
  have hnonce : r.wrapped.nonce = [] := of_decide_eq_true hunshaped
  have hlength : ¬ r.wrapped.nonce.length = 12 := by simp [hnonce]
  refine ⟨sampleCommit, sampleCommit_mem, r, ⟨?_, hr⟩, fun hshaped => hlength hshaped.1, ?_⟩
  · rw [List.isEmpty_iff.1 sampleCommit_output.2.2]
    exact List.not_mem_nil
  · intro ssl cipher d priv
    rw [decryptAndVerify, dif_neg hlength]

end SecureFileTransfer
