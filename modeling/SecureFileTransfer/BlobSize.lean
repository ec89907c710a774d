import SecureFileTransfer.UploadAssembly
import SecureFileTransfer.WireRoundTrip

/-!
# BlobSize — declared and real sizes of blobs

The cap on the size of a file is checked when it is announced and again when it is committed, both
times on the number that the client declared; the bytes that arrive are not counted.  What is
stored has the declared size, and a tag, exactly if that is what has arrived at the commit.
-/

namespace SecureFileTransfer

open Prog Service Handler Runs

variable {env : Env} {s s' : ServerState} {ev : ServerEvent} {out : Output} {r : FileRecord}

/-- The blob of the record has its declared size and a tag of 16 bytes, and keeps to the cap. -/
def BlobSized (w : World .sqlite) (r : FileRecord) : Prop :=
  ∃ blob, w.blobs.lookup r.storageId = some blob ∧ blob.length = r.size.toNat + 16 ∧
    blob.length ≤ 100 * 1024 * 1024 + 16

/-- A commit finds as many bytes as were declared, and a tag. -/
def CommitSized (t : ServerTransition) : Prop :=
  ∀ f c init data, t.input = .frame f → f.type = .UPLOAD_COMMIT → t.before.phase = .serving c →
    c.pendingInit.lookup (c.resolve f.body) = some init →
    c.pendingData.lookup (c.resolve f.body) = some data → data.length = init.size.toNat + 16

/-! ## One upload -/

theorem stored_size (x : FileRecord) : (Backend.sqlite.fileView.stored x).size = x.size :=
  UInt64.toUInt64_toInt64 x.size

theorem size_le_of_validate {origName hdr : Bytes} {size : UInt64}
    (h : PdfFileValidator.validate origName size hdr = .ok ()) :
    size.toNat ≤ 100 * 1024 * 1024 := by
  have hcap : ¬ size > maxFileSize := by
    intro hgt
    unfold PdfFileValidator.validate at h
    simp only [hgt, if_true] at h
    split at h
    · cases h
    · split at h
      · cases h
      · split at h
        · cases h
        · split at h <;> cases h
  exact UInt64.le_iff_toNat_le.1 (UInt64.not_lt.1 hcap)

/-- A new record is what the store keeps of the one the upload made, and its blob is the ciphertext. -/
theorem UploadOutcome.new_record {a : UploadArgs} {res : Except Exn (Result Transfer)}
    {w w' : World .sqlite} (h : UploadOutcome env a w res w')
    (hnot : r ∉ Backend.sqlite.records w.files) (hmem : r ∈ Backend.sqlite.records w'.files) :
    ∃ senderId recipientId now, Admitted env a w senderId recipientId ∧
      r = Backend.sqlite.fileView.stored (uploadRecord env a w senderId recipientId now) ∧
      w'.blobs.lookup r.storageId = some a.opaqueBytes := by
  have changed : w'.files ≠ w.files := fun heq => hnot (heq ▸ hmem)
  cases h with
  | refused _ _ stores _ => exact absurd (congrArg Stores.files stores) changed
  | withdrawn stores _ _ => exact absurd ( congrArg Stores.files stores :) changed
  | orphaned stores _ _ _ => exact absurd ( congrArg Stores.files stores :) changed
  | @stored _ _ senderId recipientId now _ _ admitted write _ stores ids _ _ =>
      have hst := stored_of_outcome admitted write stores ids
      obtain rfl := ((hst.records r).1 hmem).resolve_left hnot
      refine ⟨senderId, recipientId, now, admitted, rfl, ?_⟩
      rw [hst.blobs, AList.lookup_insert]

/-- A commit of what was pending under its id makes the record. -/
structure CommitsRecord (env : Env) (s : ServerState) (ev : ServerEvent) (out : Output)
    (s' : ServerState) (r : FileRecord) (f : Frame) (c : Conn) (init : UploadInit) (data : Bytes) :
    Prop where
  frame : ev = .frame f
  type : f.type = .UPLOAD_COMMIT
  phase : s.phase = .serving c
  pendingInit : c.pendingInit.lookup (c.resolve f.body) = some init
  pendingData : c.pendingData.lookup (c.resolve f.body) = some data
  uploads : out.uploads = [c.uploadArgs init data]
  record : ∃ (w : World .sqlite) (senderId recipientId : UserId) (now : Int),
    Admitted env (c.uploadArgs init data) w senderId recipientId ∧
    r = Backend.sqlite.fileView.stored
      (uploadRecord env (c.uploadArgs init data) w senderId recipientId now)
  blob : s'.world.blobs.lookup r.storageId = some data

/-- Only a commit adds a record. -/
theorem Served.commitsRecord (h : Served env s ev out s')
    (hnot : r ∉ Backend.sqlite.records s.world.files)
    (hmem : r ∈ Backend.sqlite.records s'.world.files) :
    ∃ f c init data, CommitsRecord env s ev out s' r f c init data := by
  -- an event that calls no upload adds no record
  rcases h.stores with ⟨hk, -⟩ | ⟨a, w₁, res, huploads, hq, hup⟩
  · rw [hk.files] at hmem
    exact absurd hmem hnot
  rcases h.output with rfl | ⟨f, c, x, hd, rfl, hphase, handled, rfl, -⟩
  · cases huploads
  have ha : a ∈ hd.uploads := by
    rw [show hd.uploads = [a] from huploads]
    exact List.mem_singleton_self a
  obtain ⟨htype, init, data, hinit, hdata, rfl⟩ := handled.uploads ha
  have hnot₁ : r ∉ Backend.sqlite.records w₁.files := by
    rw [show w₁.files = s.world.files from congrArg Stores.files hq.stores]
    exact hnot
  obtain ⟨senderId, recipientId, now, admitted, hr, hblob⟩ := hup.new_record hnot₁ hmem
  exact ⟨f, c, init, data, rfl, htype, hphase, hinit, hdata, huploads,
    ⟨w₁, senderId, recipientId, now, admitted, hr⟩, hblob⟩

/-- The record has the declared size, which keeps to the cap. -/
theorem CommitsRecord.size {f : Frame} {c : Conn} {init : UploadInit} {data : Bytes}
    (h : CommitsRecord env s ev out s' r f c init data) :
    r.size = init.size ∧ init.size.toNat ≤ 100 * 1024 * 1024 := by
  obtain ⟨w, senderId, recipientId, now, admitted, rfl⟩ := h.record
  exact ⟨stored_size _, size_le_of_validate admitted.validated⟩

/-! ## Every run -/

/-- The blob of a new record has the right size exactly if the commit found the right number of
bytes. -/
theorem blobSized_iff_commitSized {t : ServerTransition}
    (ht : Served env t.before t.input t.output t.after) (hcr : Creates ServerState.world t r) :
    BlobSized t.after.world r ↔ CommitSized t := by
  obtain ⟨f, c, init, data, hcommit⟩ := ht.commitsRecord hcr.1 hcr.2
  obtain ⟨hsize, hcap⟩ := hcommit.size
  obtain ⟨hinput, htype, hphase, hinit, hdata, -, -, hblob⟩ := hcommit
  constructor
  · -- what `CommitSized` speaks of is determined by the transition
    rintro ⟨blob, hlookup, hlength, -⟩ f' c' init' data' hinput' - hphase' hinit' hdata'
    obtain rfl : f = f' := ServerEvent.frame.inj (hinput.symm.trans hinput')
    obtain rfl : c = c' := Phase.serving.inj (hphase.symm.trans hphase')
    obtain rfl : init = init' := Option.some.inj (hinit.symm.trans hinit')
    obtain rfl : data = data' := Option.some.inj (hdata.symm.trans hdata')
    obtain rfl : blob = data := Option.some.inj (hlookup.symm.trans hblob)
    rw [hlength, hsize]
  · intro hsized
    have hlength := hsized f c init data hinput htype hphase hinit hdata
    exact ⟨data, hblob, by rw [hlength, hsize], by omega⟩

/-- In every run whose commits find as many bytes as were declared, and a tag, each stored blob has
that size and keeps to the cap; and so have all blobs of records in the state that is reached, as
long as no id is drawn twice. -/
theorem blobs_sized_of_run (env : Env) (evs : List ServerEvent)
    (hcommits : ∀ t ∈ serverTrace env evs, CommitSized t) :
    (∀ t ∈ serverTrace env evs, ∀ r, Creates ServerState.world t r → BlobSized t.after.world r) ∧
      (FreshIds env (serverAfter env evs).world.ids →
        ∀ r ∈ Backend.sqlite.records (serverAfter env evs).world.files,
          BlobSized (serverAfter env evs).world r) := by
  have hsized : ∀ t ∈ serverTrace env evs, ∀ r, Creates ServerState.world t r →
      BlobSized t.after.world r := fun t ht r hcr =>
    (blobSized_iff_commitSized (served_of_mem_serverTrace ht) hcr).2 (hcommits t ht)
  refine ⟨hsized, fun hfresh r hr => ?_⟩
  -- with fresh ids no later upload writes over the blob
  have htr := traceable_of_serverRun env evs hfresh
  obtain ⟨t, ht, hcr⟩ := htr.created r hr
  obtain ⟨-, a, ha, hblob⟩ := htr.content t ht r hcr
  -- the blob that was written is still the one that is stored
  obtain ⟨f, c, init, data, hcommit⟩ := (served_of_mem_serverTrace ht).commitsRecord hcr.1 hcr.2
  have hwritten := hcommit.blob
  rw [uploadedIn, hcommit.uploads] at ha
  obtain rfl := List.mem_singleton.1 ha
  obtain ⟨blob, hlookup, hlength⟩ := hsized t ht r hcr
  obtain rfl : blob = data := Option.some.inj (hlookup.symm.trans hwritten)
  exact ⟨blob, hblob, hlength⟩

set_option maxRecDepth 100000 in
theorem sampleCommit_unsized :
    (Backend.sqlite.records sampleCommit.after.world.files).any (fun r =>
      (sampleCommit.after.world.blobs.lookup r.storageId).all fun blob =>
        decide (blob.length ≠ r.size.toNat + 16)) = true := by
  decide +kernel

/-- The file of `sampleEvents` is announced with three bytes, and three bytes are stored. -/
theorem sampleEvents_blob_unsized :
    ∃ t ∈ serverTrace Env.counting sampleEvents, ∃ r, Creates ServerState.world t r ∧
      ¬ BlobSized t.after.world r := by
  obtain ⟨r, hr, hunsized⟩ := List.any_eq_true.1 sampleCommit_unsized
  refine ⟨sampleCommit, sampleCommit_mem, r, ⟨?_, hr⟩, ?_⟩
  · rw [List.isEmpty_iff.1 sampleCommit_output.2.2]
    exact List.not_mem_nil
  · rintro ⟨blob, hblob, hlength, -⟩
    rw [hblob, Option.all_some, decide_eq_true_eq] at hunsized
    exact hunsized hlength

/-- The upload of `sampleEvents` with a ciphertext of nineteen bytes. -/
def sealedEvents : List ServerEvent :=
  sampleEvents.take 7 ++
    [ .frame
        { type := .UPLOAD_DATA
          requestId := 5
          body := encodeUploadData ⟨ascii "u1", 0, List.replicate 19 1⟩ },
      .frame { type := .UPLOAD_COMMIT, requestId := 6, body := [] } ]

/-- `CommitSized`, evaluated. -/
def commitSized? (t : ServerTransition) : Bool :=
  match t.input with
  | .frame f =>
      t.before.phase.conn.all fun c =>
        (c.pendingInit.lookup (c.resolve f.body)).all fun init =>
          (c.pendingData.lookup (c.resolve f.body)).all fun data =>
            f.type != .UPLOAD_COMMIT || decide (data.length = init.size.toNat + 16)
  | _ => true

theorem commitSized_of_check {t : ServerTransition} (h : commitSized? t = true) :
    CommitSized t := by
  intro f c init data hinput htype hphase hinit hdata
  unfold commitSized? at h
  rw [hinput, hphase] at h
  simpa [Phase.conn, hinit, hdata, htype] using h

set_option maxRecDepth 100000 in
theorem sealedEvents_check :
    (serverTrace Env.counting sealedEvents).all commitSized? = true ∧
    (serverAfter Env.counting sealedEvents).world.blobs.keys.length = 1 := by
  decide +kernel

theorem blobs_sized_sealedEvents :
    (serverAfter Env.counting sealedEvents).world.blobs.keys.length = 1 ∧
      (∀ t ∈ serverTrace Env.counting sealedEvents, ∀ r, Creates ServerState.world t r →
        BlobSized t.after.world r) ∧
      (FreshIds Env.counting (serverAfter Env.counting sealedEvents).world.ids →
        ∀ r ∈ Backend.sqlite.records (serverAfter Env.counting sealedEvents).world.files,
          BlobSized (serverAfter Env.counting sealedEvents).world r) := by
  obtain ⟨hcheck, hstored⟩ := sealedEvents_check
  refine ⟨hstored, blobs_sized_of_run _ _ fun t ht => ?_⟩
  exact commitSized_of_check (List.all_eq_true.1 hcheck t ht)

end SecureFileTransfer
