import SecureFileTransfer.ServiceSpecs

/-!
# TransferSpecs — what an upload and a download can do

`upload` writes three stores in sequence and recovers differently at each of them: nothing to undo
before the blob is written, the blob withdrawn when the record is not saved, the failure ignored
when only the transfer is not saved.
-/

namespace SecureFileTransfer

open Prog Service

variable {b : Backend} {env : Env} {w w₁ w₂ : World b}

/-! ## Upload -/

/-- The checks of `upload` passed for this sender and this recipient. -/
structure Admitted (env : Env) (a : UploadArgs) (w : World b) (senderId recipientId : UserId) :
    Prop where
  session : ∃ s, w.sessions.findByToken a.senderSess = some s ∧
    s.isValid (env.clock w.clockReads) = true ∧ s.userId = senderId
  recipient : ∃ u, b.users.findByUsername w.users a.recipientUsername = .ok (some u) ∧
    u.id = recipientId
  validated : PdfFileValidator.validate a.origName a.size (uploadHeader a.origName a.opaqueBytes) =
    .ok ()
  uploadId : a.uploadId ≠ []

theorem checkUpload_spec (a : UploadArgs) :
    wp (checkUpload env a)
      (fun r w' => Quiet w w' ∧ ∀ p, r = .ok p → Admitted env a w p.1 p.2) w := by
  have refused : ∀ {e : Exn} {w'}, Quiet w w' →
      Quiet w w' ∧ ∀ p, (.error e : Except Exn (UserId × UserId)) = .ok p →
        Admitted env a w p.1 p.2 := fun hq => ⟨hq, fun _ h => by cases h⟩
  unfold checkUpload
  refine wp_nowMs_bind fun w₁ h₁ _ => ?_
  refine wp_query_bind rfl (fun e _ hq => refused (h₁.trans hq)) fun valid w₂ h₂ hvalid => ?_
  have h₁₂ := h₁.trans h₂
  rw [show w₁.sessions = w.sessions from congrArg Stores.sessions h₁.stores] at hvalid
  refine wp_ite (fun _ => ?_) fun hv => ?_
  · exact wp_quiet_bind quiet_record (fun e _ hq => refused (h₁₂.trans hq))
      fun _ _ hq => refused (h₁₂.trans hq)
  obtain ⟨s, hs, hsvalid⟩ := MemorySessionStore.isValid_iff.1
    (by rw [Except.ok.inj hvalid]; simpa using hv)
  refine wp_query_bind rfl (fun e _ hq => refused (h₁₂.trans hq)) fun senderId w₃ h₃ hsender => ?_
  have h₁₃ := h₁₂.trans h₃
  rw [show w₂.sessions = w.sessions from congrArg Stores.sessions h₁₂.stores,
    MemorySessionStore.userFor_eq_ok hs] at hsender
  refine wp_query_bind rfl (fun e _ hq => refused (h₁₃.trans hq)) fun found w₄ h₄ hfound => ?_
  have h₁₄ := h₁₃.trans h₄
  rw [show w₃.users = w.users from congrArg Stores.users h₁₃.stores] at hfound
  cases found with
  | none => exact refused h₁₄
  | some recipient =>
      refine wp_quiet_bind quiet_query (fun e _ hq => refused (h₁₄.trans hq)) fun ok w₅ h₅ => ?_
      have h₁₅ := h₁₄.trans h₅
      refine wp_ite (fun _ => refused h₁₅) fun _ => ?_
      rw [wp_bind, wp_outcome]
      cases hval : PdfFileValidator.validate a.origName a.size
          (uploadHeader a.origName a.opaqueBytes) with
      | error e => exact refused h₁₅
      | ok _ =>
          rw [wpBind_ok]
          refine wp_ite (fun _ => refused h₁₅) fun hid => ?_
          refine wp_return ⟨h₁₅, fun p hp => ?_⟩
          cases hp
          exact
            { session := ⟨s, hs, hsvalid, Except.ok.inj hsender⟩
              recipient := ⟨recipient, hfound, rfl⟩
              validated := hval
              uploadId := hid }

/-- The record an upload saves; its names are the next two that are drawn. -/
def uploadRecord (env : Env) (a : UploadArgs) (w : World b) (senderId recipientId : UserId)
    (now : Int) : FileRecord :=
  a.record (generateUserId (env.randomId w.ids)) (generateUserId (env.randomId (w.ids + 1)))
    senderId recipientId now

def uploadStorageId (env : Env) (w : World b) : Bytes :=
  (generateUserId (env.randomId (w.ids + 1))).value ++ ascii ".bin"

/-- The transfer of that record. -/
def uploadTransfer (env : Env) (w : World b) (senderId recipientId : UserId) : Transfer where
  id := ⟨(generateUserId (env.randomId (w.ids + 2))).value⟩
  file := ⟨(generateUserId (env.randomId w.ids)).value⟩
  sender := senderId
  recipient := recipientId
  status := .UPLOADED

/-- The transfer is saved, or its repository threw and nothing changed there. -/
inductive TransferSaved (env : Env) (t : Transfer) (w w' : World b) :
    SqliteTransferRepository → Prop
  | saved {ts} (write : w.transfers.save t = .ok ts) : TransferSaved env t w w' ts
  | threw (cause : (∃ e, Threw env .saveTransfer w w' e) ∨ ∃ e, w.transfers.save t = .error e) :
      TransferSaved env t w w' w.transfers

theorem TransferSaved.mono {t : Transfer} {ts : SqliteTransferRepository} {w₀ w₃ : World b}
    (h : TransferSaved env t w₁ w₂ ts) (hts : w₁.transfers = w₀.transfers)
    (h₁ : w₀.calls ≤ w₁.calls) (h₂ : w₂.calls ≤ w₃.calls) : TransferSaved env t w₀ w₃ ts := by
  cases h with
  | saved write => exact .saved (hts ▸ write)
  | threw cause =>
      rw [hts] at cause ⊢
      exact .threw (cause.imp_left fun ⟨e, he⟩ => ⟨e, he.mono h₁ h₂⟩)

/-- How `upload` ends. -/
inductive UploadOutcome (env : Env) (a : UploadArgs) (w : World b) :
    Except Exn (Result Transfer) → World b → Prop
  | refused {r w'} (failed : Failed r)
      (text : ∀ t, r = .ok (.failure t) → t = ascii "duplicate upload_id")
      (stores : w'.toStores = w.toStores) (later : Later w w') : UploadOutcome env a w r w'
  /-- The record was not saved and the blob is removed again. -/
  | withdrawn {e w'}
      (stores : w'.toStores = w.toStores.withBlobs
        (MemoryStorage.removeStaged (uploadStorageId env w)
          (MemoryStorage.stagedWrite (uploadStorageId env w) a.opaqueBytes w.blobs)))
      (later : Later w w') (drawn : w.ids + 2 ≤ w'.ids) : UploadOutcome env a w (.error e) w'
  /-- The record was not saved and the blob could not be removed. -/
  | orphaned {e w' e' senderId recipientId}
      (stores : w'.toStores = w.toStores.withBlobs
        (MemoryStorage.stagedWrite (uploadStorageId env w) a.opaqueBytes w.blobs))
      (later : Later w w') (drawn : w.ids + 2 ≤ w'.ids) (fault : Threw env .removeStaged w w' e')
      (admitted : Admitted env a w senderId recipientId) : UploadOutcome env a w (.error e) w'
  | stored {r w' senderId recipientId now files ts} (admitted : Admitted env a w senderId recipientId)
      (write : b.files.save (uploadRecord env a w senderId recipientId now) w.files = .ok files)
      (transfer : TransferSaved env (uploadTransfer env w senderId recipientId) w w' ts)
      (stores : w'.toStores = ((w.toStores.withBlobs
        (MemoryStorage.stagedWrite (uploadStorageId env w) a.opaqueBytes w.blobs)).withFiles
          files).withTransfers ts)
      (ids : w'.ids = w.ids + 3) (tokens : w'.tokens = w.tokens)
      (result : r = .ok (.success (uploadTransfer env w senderId recipientId)) ∨
        ∃ e, r = .error e ∧ Threw env (.record .UPLOAD) w w' e) :
      UploadOutcome env a w r w'

theorem wp_stagedWrite_bind {β : Type} {sid data : Bytes} {k : Unit → Service b β}
    {Q : Except Exn β → World b → Prop} (herr : ∀ e w', Quiet w w' → Q (.error e) w')
    (hok : ∀ w', w'.toStores = w.toStores.withBlobs (MemoryStorage.stagedWrite sid data w.blobs) →
      Idle w w' → wp (k ()) Q w') : wp (stagedWrite env sid data >>= k) Q w := by
  rw [wp_bind]
  refine wp_write (fun e _ => herr e _ (Quiet.refl w).tick) (fun e h => by cases h) fun w' h => ?_
  cases h
  exact hok _ rfl ⟨rfl, rfl, Nat.le_succ _⟩

/-- Saving the record with its rollback, then the rest. -/
theorem wp_saveFile_bind {β : Type} {fr : FileRecord} {k : Unit → Service b β}
    {Q : Except Exn β → World b → Prop}
    (hremoved : ∀ e w', w'.toStores =
      w.toStores.withBlobs (MemoryStorage.removeStaged fr.storageId w.blobs) → Idle w w' →
      Q (.error e) w')
    (hkept : ∀ e w' e', Quiet w w' → Threw env .removeStaged w w' e' → Q (.error e) w')
    (hok : ∀ files w', b.files.save fr w.files = .ok files →
      w'.toStores = w.toStores.withFiles files → Idle w w' → wp (k ()) Q w') :
    wp (tryCatch (saveFile env fr) (fun e => do
      tryCatch (removeStaged env fr.storageId) fun _ => return ()
      throw e) >>= k) Q w := by
  have handler : ∀ e w₁, Quiet w w₁ → wp (do
      tryCatch (removeStaged env fr.storageId) fun _ => return ()
      throw e) (wpBind k Q) w₁ := by
    intro e w₁ h₁
    rw [wp_bind, wp_tryCatch]
    refine wp_write (fun e' hfault => ?_) (fun e' h => by cases h) fun w₂ h₂ => ?_
    · exact hkept e _ e' h₁.tick ((Threw.tick hfault).mono h₁.calls le_rfl)
    · cases h₂
      refine hremoved e _ ?_ (h₁.toIdle.trans ⟨rfl, rfl, Nat.le_succ _⟩)
      show w₁.toStores.withBlobs (MemoryStorage.removeStaged fr.storageId w₁.blobs) = _
      rw [h₁.stores]
  rw [wp_bind, wp_tryCatch]
  refine wp_write (fun e _ => handler e _ (Quiet.refl w).tick)
    (fun e _ => handler e _ (Quiet.refl w).tick) fun w₁ h₁ => ?_
  cases hsave : b.files.save fr w.files with
  | error e =>
      rw [show w.tick.files = w.files from rfl, hsave] at h₁
      cases h₁
  | ok files =>
      rw [show w.tick.files = w.files from rfl, hsave] at h₁
      cases h₁
      exact hok files _ hsave rfl ⟨rfl, rfl, Nat.le_succ _⟩

/-- Saving the transfer, then the rest whatever happened. -/
theorem wp_saveTransfer_bind {β : Type} {t : Transfer} {k : Unit → Service b β}
    {Q : Except Exn β → World b → Prop}
    (h : ∀ ts w', TransferSaved env t w w' ts → w'.toStores = w.toStores.withTransfers ts →
      Idle w w' → wp (k ()) Q w') :
    wp (tryCatch (saveTransfer env t) (fun _ => return ()) >>= k) Q w := by
  rw [wp_bind, wp_tryCatch]
  refine wp_write (fun e hfault => ?_) (fun e herr => ?_) fun w₁ h₁ => ?_
  · exact h w.transfers _ (.threw (.inl ⟨e, .tick hfault⟩)) rfl (idle_tick w)
  · cases hsave : w.transfers.save t with
    | ok ts =>
        rw [show w.tick.transfers = w.transfers from rfl, hsave] at herr
        cases herr
    | error e' => exact h w.transfers _ (.threw (.inr ⟨e', hsave⟩)) rfl (idle_tick w)
  · cases hsave : w.transfers.save t with
    | error e =>
        rw [show w.tick.transfers = w.transfers from rfl, hsave] at h₁
        cases h₁
    | ok ts =>
        rw [show w.tick.transfers = w.transfers from rfl, hsave] at h₁
        cases h₁
        exact h ts _ (.saved hsave) rfl ⟨rfl, rfl, Nat.le_succ _⟩

theorem storeUpload_spec {w₀ : World b} {a : UploadArgs} {senderId recipientId : UserId}
    (h₀ : Quiet w₀ w) (hadm : Admitted env a w₀ senderId recipientId) :
    wp (storeUpload env a senderId recipientId) (UploadOutcome env a w₀) w := by
  have hids₀ : w.ids = w₀.ids := h₀.ids
  unfold storeUpload
  refine wp_newId_bind fun w₁ hst₁ hids₁ htok₁ hcalls₁ => ?_
  refine wp_newId_bind fun w₂ hst₂ hids₂ htok₂ hcalls₂ => ?_
  refine wp_nowMs_bind fun w₃ h₃ _ => ?_
  have hst₃ : w₃.toStores = w₀.toStores := by rw [h₃.stores, hst₂, hst₁, h₀.stores]
  have hids₃ : w₃.ids = w₀.ids + 2 := by rw [h₃.ids, hids₂, hids₁, hids₀]
  have htok₃ : w₃.tokens = w₀.tokens := by rw [h₃.tokens, htok₂, htok₁, h₀.tokens]
  have hcalls₃ : w₀.calls ≤ w₃.calls :=
    ((h₀.calls.trans hcalls₁).trans hcalls₂).trans h₃.calls
  have hlater₃ : Later w₀ w₃ := ⟨by omega, htok₃.ge, hcalls₃⟩
  rw [hids₁, hids₀]
  refine wp_stagedWrite_bind (fun e w' hq => ?_) fun w₄ hst₄ hidle₄ => ?_
  · exact .refused (failed_error e) (fun t h => by cases h) (hq.stores.trans hst₃)
      (hlater₃.trans hq.later)
  have hst₄' : w₄.toStores = w₀.toStores.withBlobs
      (MemoryStorage.stagedWrite (uploadStorageId env w₀) a.opaqueBytes w₀.blobs) := by
    rw [hst₄, hst₃]
    rfl
  have hlater₄ : Later w₀ w₄ := hlater₃.trans hidle₄.later
  have hids₄ : w₄.ids = w₀.ids + 2 := hidle₄.ids.trans hids₃
  refine wp_saveFile_bind (fun e w' hst hidle => ?_) (fun e w' e' hq hthrew => ?_)
    fun files w₅ hsave hst₅ hidle₅ => ?_
  · refine .withdrawn ?_ (hlater₄.trans hidle.later) (by rw [hidle.ids, hids₄])
    rw [hst, hst₄']
    rfl
  · exact .orphaned (hq.stores.trans hst₄') (hlater₄.trans hq.later) (by rw [hq.ids, hids₄])
      (hthrew.mono hlater₄.calls le_rfl) hadm
  refine wp_newId_bind fun w₆ hst₆ hids₆ htok₆ hcalls₆ => ?_
  refine wp_saveTransfer_bind fun ts w₇ hts hst₇ hidle₇ => ?_
  refine wp_record_success fun r w' hq hr => ?_
  have hfiles : w₄.files = w₀.files := by
    show w₄.toStores.files = _
    rw [hst₄']
    rfl
  have hids₅ : w₅.ids = w₀.ids + 2 := hidle₅.ids.trans hids₄
  have hts₆ : w₆.transfers = w₀.transfers := by
    show w₆.toStores.transfers = _
    rw [hst₆, hst₅, hst₄']
    rfl
  have hcalls₆' : w₀.calls ≤ w₆.calls := (hlater₄.calls.trans hidle₅.calls).trans hcalls₆
  rw [hids₅] at hr hts
  rw [hfiles] at hsave
  refine .stored hadm hsave (hts.mono hts₆ hcalls₆' hq.calls) ?_ ?_ ?_ ?_
  · rw [hq.stores, hst₇, hst₆, hst₅, hst₄']
  · rw [hq.ids, hidle₇.ids, hids₆, hids₅]
  · rw [hq.tokens, hidle₇.tokens, htok₆, hidle₅.tokens, hidle₄.tokens, htok₃]
  · exact hr.imp_right fun ⟨e, hr, hthrew⟩ =>
      ⟨e, hr, hthrew.mono (hcalls₆'.trans hidle₇.calls) le_rfl⟩

theorem upload_spec (a : UploadArgs) : wp (upload env a) (UploadOutcome env a w) w := by
  have refused : ∀ {e : Exn} {w'}, Quiet w w' → UploadOutcome env a w (.error e) w' :=
    fun hq => .refused (failed_error _) (fun t h => by cases h) hq.stores hq.later
  unfold upload
  rw [wp_bind]
  refine wp_mono (checkUpload_spec a) ?_
  rintro (e | ⟨senderId, recipientId⟩) w₁ ⟨h₁, hadm⟩
  · exact refused h₁
  refine wp_quiet_bind quiet_query (fun e _ hq => refused (h₁.trans hq)) fun dup w₂ h₂ => ?_
  refine wp_ite (fun _ => ?_) fun _ => storeUpload_spec (h₁.trans h₂) (hadm _ rfl)
  refine wp_return (.refused (failed_failure _) (fun t h => ?_) (h₁.trans h₂).stores
    (h₁.trans h₂).later)
  cases h
  rfl

theorem checkUpload_success {a : UploadArgs} {s : Session} {u : User}
    (hfault : ∀ c n, env.fault c n = none) (hs : w.sessions.findByToken a.senderSess = some s)
    (hvalid : s.isValid (env.clock w.clockReads) = true)
    (hrec : b.users.findByUsername w.users a.recipientUsername = .ok (some u))
    (hkey : pubkeyExists b w.keys u.id = true)
    (hval : PdfFileValidator.validate a.origName a.size (uploadHeader a.origName a.opaqueBytes) =
      .ok ()) (hid : a.uploadId ≠ []) :
    wp (checkUpload env a) (fun r w' => r = .ok (s.userId, u.id) ∧ Quiet w w') w := by
  have hclock : Quiet w { w with clockReads := w.clockReads + 1 } := ⟨⟨rfl, rfl, le_rfl⟩, rfl⟩
  unfold checkUpload
  rw [wp_bind, nowMs, wp_modifyGet, wpBind_ok]
  refine wp_query_of_ok hfault
    (congrArg Except.ok (MemorySessionStore.isValid_iff.2 ⟨s, hs, hvalid⟩)) ?_
  refine wp_ite (fun h => absurd h (by simp)) fun _ => ?_
  refine wp_query_of_ok hfault (MemorySessionStore.userFor_eq_ok hs) ?_
  refine wp_query_of_ok hfault hrec ?_
  refine wp_query_of_ok hfault (congrArg Except.ok hkey) ?_
  refine wp_ite (fun h => absurd h (by simp)) fun _ => ?_
  rw [wp_bind, wp_outcome, hval, wpBind_ok]
  refine wp_ite (fun h => absurd h hid) fun _ => ?_
  exact ⟨rfl, hclock.tick.tick.tick.tick⟩

/-- An upload that passes the checks and whose record can be saved succeeds when nothing throws. -/
theorem upload_success {a : UploadArgs} {s : Session} {u : User}
    (hfault : ∀ c n, env.fault c n = none) (hs : w.sessions.findByToken a.senderSess = some s)
    (hvalid : s.isValid (env.clock w.clockReads) = true)
    (hrec : b.users.findByUsername w.users a.recipientUsername = .ok (some u))
    (hkey : pubkeyExists b w.keys u.id = true)
    (hval : PdfFileValidator.validate a.origName a.size (uploadHeader a.origName a.opaqueBytes) =
      .ok ()) (hid : a.uploadId ≠ []) (hnew : b.files.existsUploadId w.files a.uploadId = false)
    (hsave : ∀ now, ∃ files, b.files.save (uploadRecord env a w s.userId u.id now) w.files = .ok files) :
    wp (upload env a) (fun r _ => ∃ t, r = .ok (.success t)) w := by
  unfold upload
  rw [wp_bind]
  refine wp_mono (checkUpload_success hfault hs hvalid hrec hkey hval hid) ?_
  rintro r w₁ ⟨rfl, h₁⟩
  rw [show w.files = w₁.files from (congrArg Stores.files h₁.stores).symm] at hnew hsave
  rw [wpBind_ok]
  refine wp_query_of_ok hfault (congrArg Except.ok hnew) ?_
  refine wp_ite (fun h => absurd h (by simp)) fun _ => ?_
  unfold storeUpload
  rw [wp_bind, newId, wp_modifyGet, wpBind_ok, wp_bind, wp_modifyGet, wpBind_ok, wp_bind, nowMs,
    wp_modifyGet, wpBind_ok, wp_bind]
  refine wp_write_of_ok hfault rfl ?_
  rw [wpBind_ok, wp_bind, wp_tryCatch]
  obtain ⟨files, hfiles⟩ := hsave (env.clock w₁.clockReads)
  rw [uploadRecord, ← h₁.ids] at hfiles
  refine wp_write_of_ok hfault (congrArg (Except.map _) hfiles) ?_
  rw [wpCatch_ok, wpBind_ok, wp_bind, wp_modifyGet, wpBind_ok]
  refine wp_saveTransfer_bind fun ts w₇ _ _ _ => ?_
  rw [wp_bind]
  refine wp_record (fun e h => ?_) fun _ _ => ⟨_, rfl⟩
  rw [hfault] at h
  cases h
/-! ## Download -/

/-- The token is a valid session of the owner or the recipient of the record. -/
structure Authorised (env : Env) (w : World b) (sess : SessionId) (fr : FileRecord) : Prop where
  session : ∃ s, w.sessions.findByToken sess = some s ∧
    s.isValid (env.clock w.clockReads) = true ∧ (fr.owner = s.userId ∨ fr.recipient = s.userId)

/-- The texts of a refused download. -/
inductive DownloadError (env : Env) (fid : FileId) (w : World b) : Bytes → Prop
  | notFound : DownloadError env fid w (ascii "not found")
  | denied : DownloadError env fid w (ascii "denied")
  | missing {fr} (found : b.files.findById w.files fid = some fr) :
      DownloadError env fid w (b.missingBlob fr.storageId).what
  | threw {n e} (fault : env.fault .read n = some e) : DownloadError env fid w e.what

/-- How `download` ends; it never changes a store. -/
structure DownloadOutcome (env : Env) (sess : SessionId) (fid : FileId) (w : World b)
    (r : Except Exn (Result Bytes)) (w' : World b) : Prop where
  quiet : Quiet w w'
  success : ∀ o, r = .ok (.success o) → ∃ fr, b.files.findById w.files fid = some fr ∧
    Authorised env w sess fr ∧ w.blobs.lookup fr.storageId = some o
  failure : ∀ t, r = .ok (.failure t) → DownloadError env fid w t

theorem wp_read_bind {β : Type} {sid : Bytes} {k : Except Exn Bytes → Service b β}
    {Q : Except Exn β → World b → Prop}
    (herr : ∀ e w', Quiet w w' → e = b.missingBlob sid ∨ (∃ n, env.fault .read n = some e) →
      wp (k (.error e)) Q w')
    (hok : ∀ o w', Quiet w w' → w.blobs.lookup sid = some o → wp (k (.ok o)) Q w') :
    wp (tryCatch (do let data ← read env sid; return .ok data) (fun e => return .error e) >>= k)
      Q w := by
  rw [wp_bind, wp_tryCatch, wp_bind]
  refine wp_query (fun e hfault => herr e _ (Quiet.refl w).tick (.inr ⟨_, hfault⟩)) ?_
  rw [show w.tick.blobs = w.blobs from rfl]
  cases hblob : w.blobs.lookup sid with
  | none =>
      rw [Backend.readBlob_of_none hblob]
      exact herr _ _ (Quiet.refl w).tick (.inl rfl)
  | some o =>
      rw [Backend.readBlob_of_some hblob]
      exact hok o _ (Quiet.refl w).tick hblob

theorem download_spec (sess : SessionId) (fid : FileId) :
    wp (download env sess fid) (DownloadOutcome env sess fid w) w := by
  have threw : ∀ {e : Exn} {w'}, Quiet w w' → DownloadOutcome env sess fid w (.error e) w' :=
    fun hq => ⟨hq, fun _ h => (by cases h), fun _ h => (by cases h)⟩
  have failed : ∀ {t : Bytes} {w'}, Quiet w w' → DownloadError env fid w t →
      DownloadOutcome env sess fid w (.ok (.failure t)) w' :=
    fun hq ht => ⟨hq, fun _ h => (by cases h), fun _ h => (by cases h; exact ht)⟩
  unfold download
  refine wp_nowMs_bind fun w₁ h₁ _ => ?_
  refine wp_query_bind rfl (fun e _ hq => threw (h₁.trans hq)) fun valid w₂ h₂ hvalid => ?_
  have h₁₂ := h₁.trans h₂
  rw [show w₁.sessions = w.sessions from congrArg Stores.sessions h₁.stores] at hvalid
  refine wp_ite (fun _ => ?_) fun hv => ?_
  · exact wp_quiet_bind quiet_record (fun e _ hq => threw (h₁₂.trans hq))
      fun _ _ hq => threw (h₁₂.trans hq)
  obtain ⟨s, hs, hsvalid⟩ := MemorySessionStore.isValid_iff.1
    (by rw [Except.ok.inj hvalid]; simpa using hv)
  refine wp_query_bind rfl (fun e _ hq => threw (h₁₂.trans hq)) fun requestor w₃ h₃ hreq => ?_
  have h₁₃ := h₁₂.trans h₃
  rw [show w₂.sessions = w.sessions from congrArg Stores.sessions h₁₂.stores,
    MemorySessionStore.userFor_eq_ok hs] at hreq
  refine wp_query_bind rfl (fun e _ hq => threw (h₁₃.trans hq)) fun found w₄ h₄ hfound => ?_
  have h₁₄ := h₁₃.trans h₄
  rw [show w₃.files = w.files from congrArg Stores.files h₁₃.stores] at hfound
  cases found with
  | none => exact failed h₁₄ .notFound
  | some fr =>
      refine wp_ite (fun hauth => ?_) fun _ => ?_
      · refine wp_read_bind (fun e w₅ h₅ hthrown => failed (h₁₄.trans h₅) ?_) fun o w₅ h₅ hblob => ?_
        · rcases hthrown with rfl | ⟨n, hfault⟩
          · exact .missing (Except.ok.inj hfound)
          · exact .threw hfault
        have h₁₅ := h₁₄.trans h₅
        refine wp_quiet_bind quiet_record (fun e _ hq => threw (h₁₅.trans hq)) fun _ w₆ h₆ => ?_
        refine wp_return ⟨h₁₅.trans h₆, fun o' h => ?_, fun _ h => (by cases h)⟩
        cases h
        rw [show w₄.blobs = w.blobs from congrArg Stores.blobs h₁₄.stores] at hblob
        rw [← Except.ok.inj hreq] at hauth
        exact ⟨fr, Except.ok.inj hfound, ⟨s, hs, hsvalid, hauth⟩, hblob⟩
      · exact wp_quiet_bind quiet_record (fun e _ hq => threw (h₁₄.trans hq))
          fun _ _ hq => failed (h₁₄.trans hq) .denied

/-- An authorised request for a stored blob succeeds when none of its five calls throws. -/
theorem download_success {sess : SessionId} {fid : FileId} {fr : FileRecord} {o : Bytes}
    (hauth : Authorised env w sess fr) (hfile : b.files.findById w.files fid = some fr)
    (hblob : w.blobs.lookup fr.storageId = some o)
    (hok : ∀ c i, i < 5 → env.fault c (w.calls + i) = none) :
    wp (download env sess fid) (fun r _ => r = .ok (.success o)) w := by
  obtain ⟨s, hs, hsvalid, huser⟩ := hauth.session
  have hvalid : w.sessions.isValid sess (env.clock w.clockReads) = true :=
    MemorySessionStore.isValid_iff.2 ⟨s, hs, hsvalid⟩
  have huserFor : w.sessions.userFor sess = .ok s.userId := MemorySessionStore.userFor_eq_ok hs
  have nofault : ∀ {c e} (i : Nat), i < 5 → env.fault c (w.calls + i) = some e → False := by
    intro c e i hi h
    rw [hok c i hi] at h
    cases h
  unfold download
  rw [wp_bind, nowMs, wp_modifyGet, wpBind_ok, wp_bind]
  refine wp_query (fun e h => (nofault 0 (by decide) h).elim) ?_
  show wpBind _ _ (.ok (w.sessions.isValid sess (env.clock w.clockReads))) _
  rw [hvalid, wpBind_ok]
  refine wp_ite (fun h => absurd h (by simp)) fun _ => ?_
  rw [wp_bind]
  refine wp_query (fun e h => (nofault 1 (by decide) h).elim) ?_
  show wpBind _ _ (w.sessions.userFor sess) _
  rw [huserFor, wpBind_ok, wp_bind]
  refine wp_query (fun e h => (nofault 2 (by decide) h).elim) ?_
  show wpBind _ _ (.ok (b.files.findById w.files fid)) _
  rw [hfile, wpBind_ok]
  refine wp_ite (fun _ => ?_) fun h => absurd huser h
  rw [wp_bind, wp_tryCatch, wp_bind]
  refine wp_query (fun e h => (nofault 3 (by decide) h).elim) ?_
  show wpBind _ _ (b.readBlob fr.storageId w.blobs) _
  rw [Backend.readBlob_of_some hblob, wpBind_ok, wp_pure, wpCatch_ok, wpBind_ok]
  rw [wp_bind]
  exact wp_record (fun e h => (nofault 4 (by decide) h).elim) fun _ _ => rfl

end SecureFileTransfer
