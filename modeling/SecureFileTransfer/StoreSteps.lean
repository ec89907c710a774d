import SecureFileTransfer.TransferSpecs

/-!
# StoreSteps — what one call does to records, blobs and users

Every operation but `upload` keeps the records and the blobs (`Kept`); an upload does that too, or
adds one record with its blob (`Stored`).  `Consistent` is the invariant that both preserve.
-/

namespace SecureFileTransfer

open Prog Service

variable {b : Backend} {env : Env} {w w₁ w₂ w' : World b}

/-! ## Calls that keep the files -/

/-- Records and blobs are the same, no user is lost, the id of a new one holds no zero byte, and a
session belongs to a user or to the one it belonged to before. -/
structure Kept (w w' : World b) : Prop where
  files : w'.files = w.files
  blobs : w'.blobs = w.blobs
  ids : w.ids ≤ w'.ids
  users : ∀ id, b.users.Present w.users id → b.users.Present w'.users id
  newUsers : ∀ id, b.users.Present w'.users id →
    b.users.Present w.users id ∨ (0 : UInt8) ∉ id.value
  sessions : ∀ k s, w'.sessions.byHash.lookup k = some s →
    b.users.Present w'.users s.userId ∨
      ∃ s₀, w.sessions.byHash.lookup k = some s₀ ∧ s₀.userId = s.userId

theorem Kept.of_stores (h : w'.toStores = w.toStores) (hids : w.ids ≤ w'.ids) : Kept w w' where
  files := congrArg Stores.files h
  blobs := congrArg Stores.blobs h
  ids := hids
  users := by
    intro id hp
    rw [h]
    exact hp
  newUsers := by
    intro id hp
    rw [h] at hp
    exact .inl hp
  sessions := by
    intro k s hs
    rw [h] at hs
    exact .inr ⟨s, hs, rfl⟩

theorem Kept.refl (w : World b) : Kept w w := .of_stores rfl le_rfl

theorem Kept.trans (h₁ : Kept w w₁) (h₂ : Kept w₁ w₂) : Kept w w₂ where
  files := h₂.files.trans h₁.files
  blobs := h₂.blobs.trans h₁.blobs
  ids := h₁.ids.trans h₂.ids
  users id hp := h₂.users id (h₁.users id hp)
  newUsers id hp := (h₂.newUsers id hp).elim (h₁.newUsers id) .inr
  sessions := by
    intro k s hs
    rcases h₂.sessions k s hs with hp | ⟨s₁, hs₁, heq₁⟩
    · exact .inl hp
    · rcases h₁.sessions k s₁ hs₁ with hp | ⟨s₀, hs₀, heq₀⟩
      · exact .inl (heq₁ ▸ h₂.users _ hp)
      · exact .inr ⟨s₀, hs₀, heq₀.trans heq₁⟩

theorem Quiet.kept (h : Quiet w w') : Kept w w' := .of_stores h.stores h.ids.ge

/-- A write of the user repository that loses no user. -/
theorem Kept.of_users {users : b.users.State} (h : w'.toStores = w.toStores.withUsers users)
    (hids : w.ids ≤ w'.ids)
    (hkeep : ∀ id, b.users.Present w.users id → b.users.Present users id)
    (hnew : ∀ id, b.users.Present users id →
      b.users.Present w.users id ∨ (0 : UInt8) ∉ id.value) : Kept w w' where
  files := by rw [h]; rfl
  blobs := by rw [h]; rfl
  ids := hids
  users := by
    intro id hp
    rw [h]
    exact hkeep id hp
  newUsers := by
    intro id hp
    rw [h] at hp
    exact hnew id hp
  sessions := by
    intro k s hs
    rw [h] at hs
    exact .inr ⟨s, hs, rfl⟩

/-- A write of the user repository that neither adds nor removes a user. -/
theorem Kept.of_write {users : b.users.State} {write : b.users.State → Except Exn b.users.State}
    (hw : b.users.KeepsUsers write) (hok : write w.users = .ok users)
    (h : w'.toStores = w.toStores.withUsers users) (hids : w.ids ≤ w'.ids) : Kept w w' :=
  .of_users h hids (fun _ => (hw.present_iff hok).2) fun _ hp => .inl ((hw.present_iff hok).1 hp)

/-- A write of the session store. -/
theorem Kept.of_sessions {st : MemorySessionStore} (h : w'.toStores = w.toStores.withSessions st)
    (hids : w.ids ≤ w'.ids)
    (hsess : ∀ k s, st.byHash.lookup k = some s → b.users.Present w.users s.userId ∨
      ∃ s₀, w.sessions.byHash.lookup k = some s₀ ∧ s₀.userId = s.userId) : Kept w w' where
  files := by rw [h]; rfl
  blobs := by rw [h]; rfl
  ids := hids
  users := by
    intro id hp
    rw [h]
    exact hp
  newUsers := by
    intro id hp
    rw [h] at hp
    exact .inl hp
  sessions := by
    intro k s hs
    rw [h] at hs ⊢
    exact hsess k s hs

namespace MemorySessionStore

theorem lookup_createForUser {random : RandomBytes 32} {uid : UserId} {now : Int}
    {st st' : MemorySessionStore} {k : Bytes} {s : Session}
    (hcreate : st.createForUser random uid now = .ok st') (h : st'.byHash.lookup k = some s) :
    s.userId = uid ∨ st.byHash.lookup k = some s := by
  obtain ⟨s', hnew, hlookup⟩ := lookup_of_createForUser hcreate
  rw [hlookup] at h
  split at h
  · cases h
    exact .inl (Session.fields_of_new hnew).2.1
  · exact .inr h

theorem lookup_invalidate {token : SessionId} {st : MemorySessionStore} {k : Bytes} {s : Session}
    (h : (st.invalidate token).byHash.lookup k = some s) :
    ∃ s₀, st.byHash.lookup k = some s₀ ∧ s₀.userId = s.userId := by
  unfold invalidate at h
  cases hfind : st.findByToken token with
  | none =>
      rw [hfind] at h
      exact ⟨s, h, rfl⟩
  | some s₀ =>
      rw [hfind] at h
      simp only [Table.lookup_insert_eq] at h
      split at h
      · subst k
        cases h
        exact ⟨s₀, hfind, rfl⟩
      · exact ⟨s, h, rfl⟩

theorem userId_revokeFor (u : UserId) (s : Session) : (revokeFor u s).userId = s.userId := by
  unfold revokeFor
  split <;> rfl

theorem lookup_invalidateAllForUser {u : UserId} {st : MemorySessionStore} {k : Bytes} {s : Session}
    (h : (st.invalidateAllForUser u).byHash.lookup k = some s) :
    ∃ s₀, st.byHash.lookup k = some s₀ ∧ s₀.userId = s.userId := by
  rw [invalidateAllForUser, Table.lookup_mapValues, Option.map_eq_some_iff] at h
  obtain ⟨s₀, hs₀, rfl⟩ := h
  exact ⟨s₀, hs₀, (userId_revokeFor u s₀).symm⟩

end MemorySessionStore

theorem RegisterOutcome.kept {u : Bytes} {r : Except Exn (Result UserId)}
    (h : RegisterOutcome env u w r w') : Kept w w' := by
  cases h with
  | refused _ stores later => exact .of_stores stores later.ids
  | saved _ hid write stores later _ =>
      have hzero := hid ▸ zero_not_mem_generateUserId _
      refine .of_users stores later.ids (fun id => b.users_lawful.present_save write) fun id hp => ?_
      rcases b.users_lawful.new_of_save write hzero hp with hold | rfl
      · exact .inl hold
      · exact .inr hzero

theorem present_of_findByUsername {n : Bytes} {u : User}
    (h : b.users.findByUsername w.users n = .ok (some u)) : b.users.Present w.users u.id :=
  ⟨u, b.users_lawful.findById_of_findByUsername h, rfl⟩

theorem LoginOutcome.kept {u pw : Bytes} {r : Except Exn (Result SessionId)}
    (h : LoginOutcome env u pw w r w') : Kept w w' := by
  cases h with
  | refused _ stores later => exact .of_stores stores later.ids
  | counted _ _ write stores later =>
      rcases write with hwrite | hwrite
      · exact .of_write (b.users_lawful.recordLoginFailure _ _) hwrite stores later.ids
      · exact .of_write (b.users_lawful.resetLoginFailures _) hwrite stores later.ids
  | @opened user users st admitted write create stores ids tokens calls result =>
      -- the reset, then the session
      let mid : World b := { w with users := users }
      have hmid : Kept w mid := .of_write (b.users_lawful.resetLoginFailures _) write rfl le_rfl
      refine hmid.trans (.of_sessions (w := mid) stores ids.ge fun k s hs => ?_)
      rcases MemorySessionStore.lookup_createForUser create hs with heq | hold
      · rw [heq]
        exact .inl (hmid.users _ (present_of_findByUsername admitted.found))
      · exact .inr ⟨s, hold, rfl⟩

theorem LogoutOutcome.kept {tok : SessionId} {r : Except Exn Bool}
    (h : LogoutOutcome env tok w r w') : Kept w w' := by
  cases h with
  | unknown _ stores later => exact .of_stores stores later.ids
  | revoked stores later _ =>
      exact .of_sessions stores later.ids fun k s hs => .inr (MemorySessionStore.lookup_invalidate hs)

theorem ActivateOutcome.kept {tgt : UserId} {r : Except Exn (Result UserId)}
    (h : ActivateOutcome env tgt w r w') : Kept w w' := by
  cases h with
  | refused _ stores later => exact .of_stores stores later.ids
  | updated _ write stores later _ => exact .of_write (b.users_lawful.update _) write stores later.ids

theorem DeactivateOutcome.kept {tgt : UserId} {r : Except Exn (Result UserId)}
    (h : DeactivateOutcome env tgt w r w') : Kept w w' := by
  cases h with
  | refused _ stores later => exact .of_stores stores later.ids
  | halfway _ write stores later _ => exact .of_write (b.users_lawful.update _) write stores later.ids
  | @updated _ _ u users found write stores later result =>
      let mid : World b := { w with users := users }
      have hmid : Kept w mid := .of_write (b.users_lawful.update _) write rfl le_rfl
      exact hmid.trans (.of_sessions (w := mid) stores later.ids fun k s hs =>
        .inr (MemorySessionStore.lookup_invalidateAllForUser hs))

/-! ## Uploads -/

/-- One record is added, with its blob; it names a sender and a recipient the checks admitted. -/
structure Stored (env : Env) (a : UploadArgs) (w w' : World b) (r : FileRecord) : Prop where
  records : ∀ x, x ∈ b.records w'.files ↔ x ∈ b.records w.files ∨ x = r
  new : r ∉ b.records w.files
  blobs : w'.blobs = w.blobs.insert r.storageId a.opaqueBytes
  storageId : r.storageId = uploadStorageId env w
  ids : w'.ids = w.ids + 3
  users : w'.users = w.users
  sessions : w'.sessions = w.sessions
  parties : ∃ senderId recipientId, Admitted env a w senderId recipientId ∧
    r.owner.value = b.fileView.text senderId.value ∧
      r.recipient.value = b.fileView.text recipientId.value

/-- The name of a blob: `.bin` after one of the first `n` generated ids. -/
def StorageName (env : Env) (n : Nat) (k : Bytes) : Prop :=
  ∃ i < n, k = (generateUserId (env.randomId i)).value ++ ascii ".bin"

theorem StorageName.mono {m n : Nat} {k : Bytes} (h : StorageName env m k) (hmn : m ≤ n) :
    StorageName env n k := by
  obtain ⟨i, hi, hk⟩ := h
  exact ⟨i, hi.trans_le hmn, hk⟩

theorem storageName_uploadStorageId {n : Nat} (h : w.ids + 2 ≤ n) :
    StorageName env n (uploadStorageId env w) :=
  ⟨w.ids + 1, by omega, rfl⟩

theorem StorageName.length_eq {n : Nat} {k : Bytes} (h : StorageName env n k) : k.length = 40 := by
  obtain ⟨i, -, rfl⟩ := h
  simp [length_generateUserId, ascii]

/-- The first `n` generated ids are pairwise different. -/
def FreshIds (env : Env) (n : Nat) : Prop :=
  ∀ j < n, ∀ i < j, generateUserId (env.randomId i) ≠ generateUserId (env.randomId j)

theorem FreshIds.mono {m n : Nat} (h : FreshIds env n) (hmn : m ≤ n) : FreshIds env m :=
  fun j hj i hi => h j (hj.trans_le hmn) i hi

/-! ## The invariant under any fault -/

/-- Blobs have generated names, and sessions belong to users. -/
structure Sound (env : Env) (w : World b) : Prop where
  names : ∀ k ∈ w.blobs, StorageName env w.ids k
  userIds : ∀ id, b.users.Present w.users id → (0 : UInt8) ∉ id.value
  sessions : ∀ k s, w.sessions.byHash.lookup k = some s → b.users.Present w.users s.userId

theorem not_present_empty (id : UserId) : ¬ b.users.Present b.users.empty id := by
  cases b with
  | memory =>
      intro h
      obtain ⟨u, hu⟩ := MemoryUserRepository.present_iff.1 h
      cases hu
  | sqlite =>
      intro h
      obtain ⟨row, hrow, -⟩ := SqliteUserRepository.present_iff.1 h
      cases hrow

theorem sound_empty (env : Env) : Sound env (World.empty b) where
  names k hk := absurd hk (AList.notMem_empty k)
  userIds id hp := absurd hp (not_present_empty id)
  sessions k s h := by cases h

theorem Sound.kept (hs : Sound env w) (h : Kept w w') : Sound env w' where
  names := by
    rw [h.blobs]
    exact fun k hk => (hs.names k hk).mono h.ids
  userIds id hp := (h.newUsers id hp).elim (hs.userIds id) fun hz => hz
  sessions := by
    intro k s hlookup
    rcases h.sessions k s hlookup with hp | ⟨s₀, hs₀, heq⟩
    · exact hp
    · rw [← heq]
      exact h.users _ (hs.sessions k s₀ hs₀)

/-- A change of files and blobs only, with one name added at most. -/
theorem Sound.of_blobs (hs : Sound env w) (husers : w'.users = w.users)
    (hsess : w'.sessions = w.sessions) (hids : w.ids + 2 ≤ w'.ids)
    (hblobs : ∀ k ∈ w'.blobs, k ∈ w.blobs ∨ k = uploadStorageId env w) : Sound env w' where
  names := by
    intro k hk
    rcases hblobs k hk with hold | rfl
    · exact (hs.names k hold).mono (by omega)
    · exact storageName_uploadStorageId hids
  userIds := by
    rw [husers]
    exact hs.userIds
  sessions := by
    rw [husers, hsess]
    exact hs.sessions

theorem Sound.upload {a : UploadArgs} {res : Except Exn (Result Transfer)} (hs : Sound env w)
    (h : UploadOutcome env a w res w') : Sound env w' := by
  have hstaged : ∀ k ∈ MemoryStorage.stagedWrite (uploadStorageId env w) a.opaqueBytes w.blobs,
      k ∈ w.blobs ∨ k = uploadStorageId env w := by
    intro k hk
    exact (AList.mem_insert _).1 hk |>.symm
  cases h with
  | refused _ _ stores later => exact hs.kept (.of_stores stores later.ids)
  | withdrawn stores _ drawn =>
      refine hs.of_blobs (by rw [stores]; rfl) (by rw [stores]; rfl) drawn fun k hk => ?_
      rw [stores] at hk
      exact hstaged k (AList.mem_erase.1 (AList.mem_erase.1 hk).2).2
  | orphaned stores _ drawn _ =>
      refine hs.of_blobs (by rw [stores]; rfl) (by rw [stores]; rfl) drawn fun k hk => ?_
      rw [stores] at hk
      exact hstaged k hk
  | stored _ _ _ stores ids _ _ =>
      refine hs.of_blobs (by rw [stores]; rfl) (by rw [stores]; rfl) (by omega) fun k hk => ?_
      rw [stores] at hk
      exact hstaged k hk

/-- A name that is about to be used is not in use. -/
theorem Sound.uploadStorageId_not_mem (hs : Sound env w) (hfresh : FreshIds env (w.ids + 2)) :
    uploadStorageId env w ∉ w.blobs := by
  intro hmem
  obtain ⟨i, hi, hname⟩ := hs.names _ hmem
  refine hfresh (w.ids + 1) (by omega) i (by omega) ?_
  have hvalue := List.append_cancel_right hname
  exact congrArg UserId.mk hvalue.symm

/-- No blob has the name of a file that is still being written. -/
theorem Sound.tmp_not_mem (hs : Sound env w) :
    ascii "tmp." ++ uploadStorageId env w ++ ascii ".part" ∉ w.blobs := by
  intro hmem
  have hlen := (hs.names _ hmem).length_eq
  simp [uploadStorageId, length_generateUserId, ascii] at hlen

theorem erase_of_not_mem {m : Table Bytes} {k : Bytes} (h : k ∉ m) : m.erase k = m := by
  refine AList.ext ?_
  exact List.kerase_of_notMem_keys h

/-- Withdrawing a blob that was not there before restores the store. -/
theorem removeStaged_stagedWrite {m : Table Bytes} {k data : Bytes} (hk : k ∉ m)
    (htmp : ascii "tmp." ++ k ++ ascii ".part" ∉ m) :
    MemoryStorage.removeStaged k (MemoryStorage.stagedWrite k data m) = m := by
  have herase : (m.insert k data).erase k = m := by
    refine AList.ext ?_
    show List.kerase k (m.insert k data).entries = m.entries
    rw [AList.entries_insert_of_notMem hk]
    exact List.kerase_cons_eq rfl
  rw [MemoryStorage.removeStaged, MemoryStorage.stagedWrite, herase, erase_of_not_mem htmp]

theorem Sound.withdrawn (hs : Sound env w) (hfresh : FreshIds env (w.ids + 2)) (data : Bytes) :
    MemoryStorage.removeStaged (uploadStorageId env w)
      (MemoryStorage.stagedWrite (uploadStorageId env w) data w.blobs) = w.blobs :=
  removeStaged_stagedWrite (hs.uploadStorageId_not_mem hfresh) hs.tmp_not_mem

theorem zero_not_mem_uploadStorageId : (0 : UInt8) ∉ uploadStorageId env w := by
  rw [uploadStorageId, List.mem_append, not_or]
  exact ⟨zero_not_mem_generateUserId _, by decide⟩

/-- The parties of a stored record are the sender and the recipient themselves. -/
theorem Sound.stored_parties {a : UploadArgs} {r : FileRecord} (hs : Sound env w)
    (h : Stored env a w w' r) : Admitted env a w r.owner r.recipient ∧
      b.users.Present w.users r.owner ∧ b.users.Present w.users r.recipient := by
  obtain ⟨senderId, recipientId, hadm, howner, hrecipient⟩ := h.parties
  obtain ⟨s, hsess, -, hsender⟩ := hadm.session
  obtain ⟨u, hu, hrec⟩ := hadm.recipient
  have hps : b.users.Present w.users senderId := hsender ▸ hs.sessions _ s hsess
  have hpr : b.users.Present w.users recipientId := hrec ▸ present_of_findByUsername hu
  rw [b.fileView.text_eq (hs.userIds _ hps)] at howner
  rw [b.fileView.text_eq (hs.userIds _ hpr)] at hrecipient
  have ho : r.owner = senderId := congrArg UserId.mk howner
  have hr : r.recipient = recipientId := congrArg UserId.mk hrecipient
  rw [ho, hr]
  exact ⟨hadm, hps, hpr⟩

theorem stored_of_outcome {a : UploadArgs} {senderId recipientId : UserId} {now : Int}
    {files : b.files.State} {ts : SqliteTransferRepository}
    (admitted : Admitted env a w senderId recipientId)
    (write : b.files.save (uploadRecord env a w senderId recipientId now) w.files = .ok files)
    (stores : w'.toStores = ((w.toStores.withBlobs
      (MemoryStorage.stagedWrite (uploadStorageId env w) a.opaqueBytes w.blobs)).withFiles
        files).withTransfers ts) (ids : w'.ids = w.ids + 3) :
    Stored env a w w' (b.fileView.stored (uploadRecord env a w senderId recipientId now)) := by
  have hfiles : w'.files = files := by rw [stores]; rfl
  have hstorage : (b.fileView.stored (uploadRecord env a w senderId recipientId now)).storageId =
      uploadStorageId env w := by
    rw [b.fileView.stored_storageId]
    exact b.fileView.text_eq zero_not_mem_uploadStorageId
  constructor
  · intro x
    rw [hfiles]
    exact b.fileView.mem_save write
  · intro hmem
    exact b.fileView.fresh_save write _ hmem rfl
  · rw [hstorage, stores]
    rfl
  · exact hstorage
  · exact ids
  · rw [stores]
    rfl
  · rw [stores]
    rfl
  · exact ⟨senderId, recipientId, admitted, b.fileView.stored_owner _,
      b.fileView.stored_recipient _⟩

/-- A successful upload stored a record under the id it drew. -/
theorem UploadOutcome.stored_of_success {a : UploadArgs} {t : Transfer}
    (h : UploadOutcome env a w (.ok (.success t)) w') : ∃ fr, Stored env a w w' fr ∧
      fr.id.value = b.fileView.text (generateUserId (env.randomId w.ids)).value := by
  cases h with
  | refused failed => exact absurd rfl (failed t)
  | stored admitted write _ stores ids _ _ =>
      exact ⟨_, stored_of_outcome admitted write stores ids, b.fileView.stored_id _⟩

/-- An upload that adds a record stores it. -/
theorem UploadOutcome.stored_of_mem {a : UploadArgs} {res : Except Exn (Result Transfer)}
    {x : FileRecord} (h : UploadOutcome env a w res w') (hnot : x ∉ b.records w.files)
    (hmem : x ∈ b.records w'.files) : ∃ r, Stored env a w w' r := by
  have unchanged : w'.files = w.files → ∃ r, Stored env a w w' r := by
    intro hfiles
    rw [hfiles] at hmem
    exact absurd hmem hnot
  cases h with
  | refused _ _ stores _ => exact unchanged (by rw [stores])
  | withdrawn stores _ _ => exact unchanged (by rw [stores]; rfl)
  | orphaned stores _ _ _ => exact unchanged (by rw [stores]; rfl)
  | stored admitted write _ stores ids _ _ =>
      exact ⟨_, stored_of_outcome admitted write stores ids⟩

/-- The blob is written, but neither has it a record nor could it be removed. -/
structure Orphaned (env : Env) (a : UploadArgs) (w w' : World b) : Prop where
  files : w'.files = w.files
  blobs : w'.blobs = w.blobs.insert (uploadStorageId env w) a.opaqueBytes
  ids : w.ids + 2 ≤ w'.ids
  threw : ∃ e, Threw env .removeStaged w w' e

theorem UploadOutcome.ids_le {a : UploadArgs} {res : Except Exn (Result Transfer)}
    (h : UploadOutcome env a w res w') : w.ids ≤ w'.ids := by
  cases h with
  | refused _ _ _ later => exact later.ids
  | withdrawn _ later _ => exact later.ids
  | orphaned _ later _ _ => exact later.ids
  | stored _ _ _ _ ids _ _ => omega

/-- An upload keeps the files, stores exactly one, or leaves a blob behind. -/
theorem Sound.upload_cases {a : UploadArgs} {res : Except Exn (Result Transfer)} (hs : Sound env w)
    (hfresh : FreshIds env w'.ids) (h : UploadOutcome env a w res w') :
    Kept w w' ∨ (∃ r, Stored env a w w' r) ∨ Orphaned env a w w' := by
  cases h with
  | refused _ _ stores later => exact .inl (.of_stores stores later.ids)
  | withdrawn stores later drawn =>
      rw [hs.withdrawn (hfresh.mono drawn)] at stores
      exact .inl (.of_stores stores later.ids)
  | orphaned stores _ drawn fault =>
      exact .inr (.inr ⟨by rw [stores]; rfl, by rw [stores]; rfl, drawn, _, fault⟩)
  | stored admitted write _ stores ids _ _ =>
      exact .inr (.inl ⟨_, stored_of_outcome admitted write stores ids⟩)

/-! ## The invariant when withdrawn blobs are removed -/

/-- Blobs and records name each other, and records name users. -/
structure Consistent (env : Env) (w : World b) : Prop extends Sound env w where
  blobs : ∀ k, k ∈ w.blobs ↔ ∃ r ∈ b.records w.files, r.storageId = k
  parties : ∀ r ∈ b.records w.files,
    b.users.Present w.users r.owner ∧ b.users.Present w.users r.recipient

theorem consistent_empty (env : Env) : Consistent env (World.empty b) := by
  have hrecords : b.records (World.empty b).files = [] := b.fileView.records_empty
  refine ⟨sound_empty env, ?_, by simp [hrecords]⟩
  intro k
  rw [hrecords]
  exact ⟨fun h => absurd h (AList.notMem_empty k), by simp⟩

theorem Consistent.kept (hc : Consistent env w) (h : Kept w w') : Consistent env w' where
  toSound := hc.toSound.kept h
  blobs := by
    rw [h.blobs, h.files]
    exact hc.blobs
  parties := by
    rw [h.files]
    intro r hr
    exact ⟨h.users _ (hc.parties r hr).1, h.users _ (hc.parties r hr).2⟩

theorem Consistent.stored {a : UploadArgs} {r : FileRecord} (hc : Consistent env w)
    (h : Stored env a w w' r) : Consistent env w' where
  toSound := by
    refine hc.toSound.of_blobs h.users h.sessions (by rw [h.ids]; omega) fun k hk => ?_
    rw [h.blobs, AList.mem_insert, h.storageId] at hk
    exact hk.symm
  blobs := by
    intro k
    rw [h.blobs, AList.mem_insert, hc.blobs]
    constructor
    · rintro (rfl | ⟨x, hx, rfl⟩)
      · exact ⟨r, (h.records r).2 (.inr rfl), rfl⟩
      · exact ⟨x, (h.records x).2 (.inl hx), rfl⟩
    · rintro ⟨x, hx, rfl⟩
      rcases (h.records x).1 hx with hold | rfl
      · exact .inr ⟨x, hold, rfl⟩
      · exact .inl rfl
  parties := by
    intro x hx
    rw [h.users]
    rcases (h.records x).1 hx with hold | rfl
    · exact hc.parties x hold
    · exact (hc.toSound.stored_parties h).2

/-- An upload keeps the files or stores exactly one. -/
theorem Consistent.upload {a : UploadArgs} {res : Except Exn (Result Transfer)}
    (hc : Consistent env w) (hfresh : FreshIds env w'.ids)
    (hremove : ∀ n, env.fault .removeStaged n = none) (h : UploadOutcome env a w res w') :
    Kept w w' ∨ ∃ r, Stored env a w w' r := by
  rcases hc.toSound.upload_cases hfresh h with hk | hst | horph
  · exact .inl hk
  · exact .inr hst
  · obtain ⟨e, n, -, -, hfault⟩ := horph.threw
    rw [hremove] at hfault
    cases hfault

end SecureFileTransfer
