import Mathlib.Data.List.Find
import SecureFileTransfer.FileRepository
import SecureFileTransfer.Lib.Runs

/-!
# FileParity — the two file repositories side by side

A shelf is a list of file records.  `MemoryFileRepository` behaves as that list;
`SqliteFileRepository` does as long as its row keeps what it is given: no zero byte in a text, and a
wrapped key for the recipient of the record under the one algorithm the row readers know.
-/

namespace SecureFileTransfer

open Runs StdString

/-! ## The two row readers -/

namespace FileRow

/-- How `SqliteFileRepository::findById` rebuilds the wrapped key. -/
def readWrapped (recipient : UserId) (nonce bytes : Bytes) : WrappedKey :=
  if nonce ≠ [] ∨ bytes ≠ [] then
    if nonce.length = 12 ∧ bytes ≠ [] then
      match WrappedKey.new recipient nonce bytes defaultAlg with
      | .ok w => w
      | .error _ => { recipientId := recipient, nonce := nonce, bytes := bytes, alg := defaultAlg }
    else
      { recipientId := recipient, nonce := nonce, bytes := bytes, alg := defaultAlg }
  else
    { recipientId := recipient }

-- here the algorithm is the one of a default `WrappedKey` unless the constructor sets it
/-- How `SqliteFileRepository::findByOwner` rebuilds it. -/
def readOwnedWrapped (recipient : UserId) (nonce bytes : Bytes) : WrappedKey :=
  if nonce ≠ [] ∨ bytes ≠ [] then
    if nonce.length = 12 ∧ bytes ≠ [] then
      match WrappedKey.new recipient nonce bytes defaultAlg with
      | .ok w => w
      | .error _ => { recipientId := recipient, nonce := nonce, bytes := bytes }
    else
      { recipientId := recipient, nonce := nonce, bytes := bytes }
  else
    { recipientId := recipient }

theorem readWrapped_eq (recipient : UserId) (nonce bytes : Bytes) :
    readWrapped recipient nonce bytes =
      { recipientId := recipient, nonce := nonce, bytes := bytes, alg := defaultAlg } := by
  rw [readWrapped]
  split
  · split
    · rename_i hshape
      simp [WrappedKey.new, hshape.1, hshape.2]
    · rfl
  · rename_i hempty
    obtain ⟨hnonce, hbytes⟩ := not_or.1 hempty
    rw [not_not.1 hnonce, not_not.1 hbytes]

/-- Both readers rebuild the same key. -/
theorem readOwnedWrapped_eq (recipient : UserId) (nonce bytes : Bytes) :
    readOwnedWrapped recipient nonce bytes = readWrapped recipient nonce bytes := rfl

/-- The record `findByOwner` makes of a row. -/
def toOwnedRecord (row : FileRow) : FileRecord :=
  { row.toRecord with
    wrapped := readOwnedWrapped ⟨row.recipientId.1⟩ (row.nonce.getD []) (row.wrappedDek.getD []) }

/-- It is the one `findById` makes. -/
theorem toOwnedRecord_eq (row : FileRow) : row.toOwnedRecord = row.toRecord := by
  rw [toOwnedRecord, readOwnedWrapped_eq, readWrapped_eq]
  rfl

end FileRow

/-! ## The operations of the port -/

/-- `IFileRepository`, all of its operations. -/
structure FullFileRepository extends FileRepository where
  findByOwner : State → UserId → List FileRecord

def MemoryFileRepository.findByOwner (m : MemoryFileRepository) (owner : UserId) :
    List FileRecord :=
  m.byId.values.filter fun r => r.owner = owner

def SqliteFileRepository.findByOwner (t : SqliteFileRepository) (owner : UserId) :
    List FileRecord :=
  (t.rows.filter fun row => row.ownerId = Text.bind owner.value).map FileRow.toOwnedRecord

def memoryFileRepository : FullFileRepository where
  toFileRepository := memoryFiles
  findByOwner := MemoryFileRepository.findByOwner

def sqliteFileRepository : FullFileRepository where
  toFileRepository := sqliteFiles
  findByOwner := SqliteFileRepository.findByOwner

inductive FileOp
  | save (r : FileRecord)
  | findById (id : FileId)
  | findByOwner (owner : UserId)
  | existsUploadId (uploadId : Bytes)

/-- What a caller sees of an operation; of an exception it is the class. -/
inductive FileReply
  | done
  | record (found : Option FileRecord)
  | records (all : List FileRecord)
  | flag (b : Bool)
  | threw (cls : ExnClass)
  deriving DecidableEq

/-- The same outcome; the order of a list does not matter. -/
inductive FileReply.Same : FileReply → FileReply → Prop
  | refl (r : FileReply) : Same r r
  | records {rs rs' : List FileRecord} (h : rs.Perm rs') : Same (.records rs) (.records rs')

theorem FileReply.Same.of_record {a b : Option FileRecord} (h : Same (.record a) (.record b)) :
    a = b := by
  cases h with
  | refl => rfl

/-- One operation on a repository. -/
def FullFileRepository.step (R : FullFileRepository) (s : R.State) : FileOp → FileReply × R.State
  | .save r =>
      match R.save r s with
      | .ok s' => (.done, s')
      | .error e => (.threw e.cls, s)
  | .findById id => (.record (R.findById s id), s)
  | .findByOwner owner => (.records (R.findByOwner s owner), s)
  | .existsUploadId uploadId => (.flag (R.existsUploadId s uploadId), s)

theorem FullFileRepository.step_of_saved {R : FullFileRepository} {s s' : R.State} {r : FileRecord}
    (h : R.save r s = .ok s') : R.step s (.save r) = (.done, s') := by
  simp only [step, h]

theorem FullFileRepository.step_of_refused {R : FullFileRepository} {s : R.State} {r : FileRecord}
    {e : Exn} (h : R.save r s = .error e) : R.step s (.save r) = (.threw e.cls, s) := by
  simp only [step, h]

/-- The replies to a sequence of operations on an empty repository. -/
def FullFileRepository.replies (R : FullFileRepository) (ops : List FileOp) : List FileReply :=
  outputs R.step R.empty ops

/-! ## A shelf of records -/

namespace FileRecord

/-- Two records that cannot both be kept. -/
def Clashes (r x : FileRecord) : Prop :=
  x.id = r.id ∨ x.uploadId = r.uploadId ∨ x.storageId = r.storageId

instance (r x : FileRecord) : Decidable (r.Clashes x) :=
  inferInstanceAs (Decidable (x.id = r.id ∨ x.uploadId = r.uploadId ∨ x.storageId = r.storageId))

/-- What a file repository is for. -/
def shelve (rs : List FileRecord) : FileOp → FileReply × List FileRecord
  | .save r =>
      if ∀ x ∈ rs, ¬ r.Clashes x then (.done, rs ++ [r]) else (.threw .validation, rs)
  | .findById id => (.record (rs.find? fun r => r.id = id), rs)
  | .findByOwner owner => (.records (rs.filter fun r => r.owner = owner), rs)
  | .existsUploadId uploadId => (.flag (rs.any fun r => r.uploadId = uploadId), rs)

end FileRecord

/-! ## In memory -/

/-- The three maps hold the records. -/
structure MemoryShelves (m : MemoryFileRepository) (rs : List FileRecord) : Prop where
  unique : Unique (fun r : FileRecord => r.id.value) rs
  ids : Indexes m.byId rs (fun r => r.id.value) id
  uploadIds : Indexes m.uploadIdToId rs (fun r => r.uploadId) fun r => r.id.value
  storageIds : Indexes m.storageIdToId rs (fun r => r.storageId) fun r => r.id.value

namespace FileOp

/-- What the service and its clients call: the ids of a record are not empty. -/
def Issued : FileOp → Prop
  | .save r => r.id.value ≠ [] ∧ r.uploadId ≠ [] ∧ r.storageId ≠ []
  | _ => True

end FileOp

namespace MemoryShelves

variable {m : MemoryFileRepository} {rs : List FileRecord}

theorem empty : MemoryShelves MemoryFileRepository.empty [] := ⟨Unique.nil, .nil, .nil, .nil⟩

theorem lookup_none {index : Table Bytes} {key : FileRecord → Bytes}
    (h : Indexes index rs key fun r => r.id.value) {k : Bytes} (hnone : ¬ index.lookup k ≠ none) :
    ∀ x ∈ rs, key x ≠ k := by
  intro x hx heq
  have hsome := h.isSome_iff.2 ⟨x, hx, heq⟩
  rw [not_not.1 hnone] at hsome
  cases hsome

theorem save (h : MemoryShelves m rs) {r : FileRecord} (hissued : (FileOp.save r).Issued) :
    (memoryFileRepository.step m (.save r)).1 = (FileRecord.shelve rs (.save r)).1 ∧
      MemoryShelves (memoryFileRepository.step m (.save r)).2
        (FileRecord.shelve rs (.save r)).2 := by
  obtain ⟨hid, hupload, hstorage⟩ := hissued
  -- the three lookups of the source, in its order, against the one clash of the shelf
  have refused : ∀ {x msg}, x ∈ rs → r.Clashes x → MemoryFileRepository.save r m =
      .error (.validation msg) →
      (memoryFileRepository.step m (.save r)).1 = (FileRecord.shelve rs (.save r)).1 ∧
        MemoryShelves (memoryFileRepository.step m (.save r)).2
          (FileRecord.shelve rs (.save r)).2 := by
    intro x msg hx hclash hsave
    rw [FullFileRepository.step_of_refused (R := memoryFileRepository) hsave, FileRecord.shelve,
      if_neg fun hfree => hfree x hx hclash]
    exact ⟨rfl, h⟩
  by_cases hids : m.byId.lookup r.id.value ≠ none
  · obtain ⟨x, hx, heq⟩ := h.ids.isSome_iff.1 (Option.isSome_iff_ne_none.2 hids)
    exact refused hx (.inl (FileId.value_eq_iff.1 heq))
      (by rw [MemoryFileRepository.save, if_neg hid, if_neg hupload, if_neg hstorage, if_pos hids])
  by_cases hups : m.uploadIdToId.lookup r.uploadId ≠ none
  · obtain ⟨x, hx, heq⟩ := h.uploadIds.isSome_iff.1 (Option.isSome_iff_ne_none.2 hups)
    exact refused hx (.inr (.inl heq))
      (by rw [MemoryFileRepository.save, if_neg hid, if_neg hupload, if_neg hstorage, if_neg hids,
        dif_pos hups])
  by_cases hsts : m.storageIdToId.lookup r.storageId ≠ none
  · obtain ⟨x, hx, heq⟩ := h.storageIds.isSome_iff.1 (Option.isSome_iff_ne_none.2 hsts)
    exact refused hx (.inr (.inr heq))
      (by rw [MemoryFileRepository.save, if_neg hid, if_neg hupload, if_neg hstorage, if_neg hids,
        dif_neg hups, dif_pos hsts])
  have hnewid : ∀ x ∈ rs, x.id.value ≠ r.id.value := by
    intro x hx heq
    have hsome := h.ids.isSome_iff.2 ⟨x, hx, heq⟩
    rw [not_not.1 hids] at hsome
    cases hsome
  have hnewup := lookup_none h.uploadIds hups
  have hnewst := lookup_none h.storageIds hsts
  have hfree : ∀ x ∈ rs, ¬ r.Clashes x := by
    rintro x hx (heq | heq | heq)
    · exact hnewid x hx (FileId.value_eq_iff.2 heq)
    · exact hnewup x hx heq
    · exact hnewst x hx heq
  have hsave : memoryFileRepository.save r m =
      .ok (m.add r ⟨not_not.1 hups, not_not.1 hsts⟩) := by
    show MemoryFileRepository.save r m = _
    simp only [MemoryFileRepository.save, if_neg hid, if_neg hupload, if_neg hstorage, if_neg hids,
      dif_neg hups, dif_neg hsts]
    rfl
  rw [FullFileRepository.step_of_saved hsave, FileRecord.shelve, if_pos hfree]
  refine ⟨rfl, ?_, ?_, ?_, ?_⟩
  · exact h.unique.concat hnewid
  · exact h.ids.concat (a := r) hnewid
  · exact h.uploadIds.concat (a := r) hnewup
  · exact h.storageIds.concat (a := r) hnewst

end MemoryShelves

/-- `MemoryFileRepository` is a shelf. -/
theorem memory_shelve {m : MemoryFileRepository} {rs : List FileRecord} (h : MemoryShelves m rs)
    {op : FileOp} (hissued : op.Issued) :
    FileReply.Same (memoryFileRepository.step m op).1 (FileRecord.shelve rs op).1 ∧
      MemoryShelves (memoryFileRepository.step m op).2 (FileRecord.shelve rs op).2 := by
  cases op with
  | save r =>
      obtain ⟨hreply, hnext⟩ := h.save hissued
      exact ⟨hreply ▸ .refl _, hnext⟩
  | findById id =>
      have hlookup : m.byId.lookup id.value = rs.find? fun r => r.id = id := by
        rw [h.ids.lookup_eq, Option.map_id, id_eq]
        simp only [FileId.value_eq_iff]
      have hreply : FileReply.record (m.findById id) = (FileRecord.shelve rs (.findById id)).1 :=
        congrArg FileReply.record hlookup
      exact ⟨hreply ▸ .refl _, h⟩
  | findByOwner owner =>
      have hvalues := h.ids.values_perm h.unique
      rw [List.map_id] at hvalues
      exact ⟨.records (hvalues.filter _), h⟩
  | existsUploadId uploadId =>
      have hexists : m.existsUploadId uploadId = rs.any fun r => r.uploadId = uploadId := by
        rw [Bool.eq_iff_iff, MemoryFileRepository.existsUploadId, h.uploadIds.isSome_iff]
        simp
      have hreply : FileReply.flag (m.existsUploadId uploadId) =
          (FileRecord.shelve rs (.existsUploadId uploadId)).1 := congrArg FileReply.flag hexists
      exact ⟨hreply ▸ .refl _, h⟩

/-! ## In SQLite -/

namespace FileRecord

/-- The texts of the record have no zero byte and its time is a 64-bit number. -/
structure Storable (r : FileRecord) : Prop where
  id : (0 : UInt8) ∉ r.id.value
  owner : (0 : UInt8) ∉ r.owner.value
  recipient : (0 : UInt8) ∉ r.recipient.value
  origName : (0 : UInt8) ∉ r.origName
  storageId : (0 : UInt8) ∉ r.storageId
  uploadId : (0 : UInt8) ∉ r.uploadId
  createdAt : -2 ^ 63 ≤ r.createdAt ∧ r.createdAt < 2 ^ 63

/-- The row of the record keeps everything: its texts have no zero byte, the time is a 64-bit
number, and the wrapped key is for the recipient under the one algorithm. -/
structure Kept (r : FileRecord) : Prop where
  id : (0 : UInt8) ∉ r.id.value
  owner : (0 : UInt8) ∉ r.owner.value
  recipient : (0 : UInt8) ∉ r.recipient.value
  origName : (0 : UInt8) ∉ r.origName
  storageId : (0 : UInt8) ∉ r.storageId
  uploadId : (0 : UInt8) ∉ r.uploadId
  createdAt : -2 ^ 63 ≤ r.createdAt ∧ r.createdAt < 2 ^ 63
  wrappedFor : r.wrapped.recipientId = r.recipient
  alg : r.wrapped.alg = defaultAlg

theorem Kept.storable {r : FileRecord} (h : r.Kept) : r.Storable :=
  ⟨h.id, h.owner, h.recipient, h.origName, h.storageId, h.uploadId, h.createdAt⟩

end FileRecord

theorem hexToDigest_digestToHex (d : Digest) : hexToDigest (digestToHex d) = d := by
  have hlength : (digestToHex d).length = 64 := by rw [digestToHex, length_hexBytes, d.2]
  have hbytes := unhex_hexBytes d.1
  rw [d.2] at hbytes
  rw [hexToDigest, if_neg (not_not.2 hlength)]
  exact Subtype.ext hbytes

theorem zero_not_mem_digestToHex (d : Digest) : (0 : UInt8) ∉ digestToHex d := fun h =>
  absurd (isHexDigit_of_mem_hexBytes h) (by decide)

namespace FileRow

/-- An empty blob is stored as `NULL` and read as empty. -/
theorem getD_bindBlob (b : Bytes) : (bindBlob b).getD [] = b := by
  cases b with
  | nil => rfl
  | cons _ _ => rfl

/-- What a reader gets back of a record is the record with the key rebuilt from its columns. -/
theorem toRecord_ofRecord_eq {r : FileRecord} (h : r.Storable) :
    (ofRecord r).toRecord = { r with
      wrapped := { r.wrapped with recipientId := r.recipient, alg := defaultAlg } } := by
  simp only [ofRecord, toRecord, Text.bind, cstr_of_not_mem h.id, cstr_of_not_mem h.owner,
    cstr_of_not_mem h.recipient, cstr_of_not_mem h.origName, cstr_of_not_mem h.storageId,
    cstr_of_not_mem h.uploadId, cstr_of_not_mem (zero_not_mem_digestToHex _),
    cstr_of_not_mem (zero_not_mem_decimalInt _), hexToDigest_digestToHex, getD_bindBlob,
    stoll_decimalInt h.createdAt, Option.getD_some, UInt64.toUInt64_toInt64]

theorem toRecord_ofRecord {r : FileRecord} (h : r.Kept) : (ofRecord r).toRecord = r := by
  have hkey : { r.wrapped with recipientId := r.recipient, alg := defaultAlg } = r.wrapped := by
    rw [← h.wrappedFor, ← h.alg]
  rw [toRecord_ofRecord_eq h.storable, hkey]

end FileRow

/-- The rows are those of the records. -/
structure SqliteShelves (t : SqliteFileRepository) (rs : List FileRecord) : Prop where
  rows : t.rows = rs.map FileRow.ofRecord
  kept : ∀ r ∈ rs, r.Kept

/-- The record of a save is kept whole, and the text of a query has no zero byte. -/
def FileOp.Kept : FileOp → Prop
  | .save r => r.Kept
  | .findById id => (0 : UInt8) ∉ id.value
  | .findByOwner owner => (0 : UInt8) ∉ owner.value
  | .existsUploadId uploadId => (0 : UInt8) ∉ uploadId

namespace SqliteShelves

variable {t : SqliteFileRepository} {rs : List FileRecord}

theorem empty : SqliteShelves SqliteFileRepository.empty [] := ⟨rfl, fun r hr => by cases hr⟩

theorem save (h : SqliteShelves t rs) {r : FileRecord} (hr : r.Kept) :
    (sqliteFileRepository.step t (.save r)).1 = (FileRecord.shelve rs (.save r)).1 ∧
      SqliteShelves (sqliteFileRepository.step t (.save r)).2
        (FileRecord.shelve rs (.save r)).2 := by
  -- the constraints compare columns, the shelf strings
  have hconstraints : (∀ x ∈ t.rows, x.id ≠ (FileRow.ofRecord r).id ∧
      x.storageId ≠ (FileRow.ofRecord r).storageId ∧ x.uploadId ≠ (FileRow.ofRecord r).uploadId) ↔
      ∀ x ∈ rs, ¬ r.Clashes x := by
    rw [h.rows, List.forall_mem_map]
    refine forall₂_congr fun x hx => ?_
    have hx' := h.kept x hx
    have hid : (FileRow.ofRecord x).id = (FileRow.ofRecord r).id ↔ x.id = r.id :=
      (Text.bind_eq_iff hx'.id hr.id).trans FileId.value_eq_iff
    have hstorage : (FileRow.ofRecord x).storageId = (FileRow.ofRecord r).storageId ↔
        x.storageId = r.storageId := Text.bind_eq_iff hx'.storageId hr.storageId
    have hupload : (FileRow.ofRecord x).uploadId = (FileRow.ofRecord r).uploadId ↔
        x.uploadId = r.uploadId := Text.bind_eq_iff hx'.uploadId hr.uploadId
    rw [FileRecord.Clashes, ne_eq, ne_eq, ne_eq, hid, hstorage, hupload]
    tauto
  by_cases hfree : ∀ x ∈ rs, ¬ r.Clashes x
  · have hsave : sqliteFileRepository.save r t = .ok _ := dif_pos (hconstraints.2 hfree)
    rw [FullFileRepository.step_of_saved hsave, FileRecord.shelve, if_pos hfree]
    refine ⟨rfl, ?_, ?_⟩
    · show t.rows ++ [FileRow.ofRecord r] = _
      rw [h.rows, List.map_append]
      rfl
    · intro x hx
      rcases List.mem_append.1 hx with hx | hx
      · exact h.kept x hx
      · rw [List.mem_singleton.1 hx]
        exact hr
  · have hsave : sqliteFileRepository.save r t =
        .error (.validation "duplicate upload_id or storage_id or id") :=
      dif_neg fun hall => hfree (hconstraints.1 hall)
    rw [FullFileRepository.step_of_refused hsave, FileRecord.shelve, if_neg hfree]
    exact ⟨rfl, h⟩

/-- A column without zero bytes selects the rows of the records with that field. -/
theorem row_iff (h : SqliteShelves t rs) (col : FileRow → Text) (field : FileRecord → Bytes)
    (hcol : ∀ r, col (FileRow.ofRecord r) = Text.bind (field r))
    (hfield : ∀ r : FileRecord, r.Kept → (0 : UInt8) ∉ field r) {val : Bytes}
    (hval : (0 : UInt8) ∉ val) {r : FileRecord} (hr : r ∈ rs) :
    col (FileRow.ofRecord r) = Text.bind val ↔ field r = val := by
  rw [hcol, Text.bind_eq_iff (hfield r (h.kept r hr)) hval]

theorem findById (h : SqliteShelves t rs) {id : FileId} (hid : (0 : UInt8) ∉ id.value) :
    t.findById id = rs.find? fun r => r.id = id := by
  have hsame : rs.find? ((fun row : FileRow => row.id = Text.bind id.value) ∘ FileRow.ofRecord) =
      rs.find? fun r => r.id = id := by
    refine List.find?_congr fun r hr => ?_
    have hrow := h.row_iff FileRow.id (·.id.value) (fun _ => rfl) (fun _ hr => hr.id) hid hr
    simp only [Function.comp_apply, hrow, FileId.value_eq_iff]
  rw [SqliteFileRepository.findById, h.rows, List.find?_map, Option.map_map, hsame]
  cases hfind : rs.find? fun r => r.id = id with
  | none => rfl
  | some r =>
      have hr := h.kept r (List.mem_of_find?_eq_some hfind)
      exact congrArg some (FileRow.toRecord_ofRecord hr)

theorem findByOwner (h : SqliteShelves t rs) {owner : UserId} (howner : (0 : UInt8) ∉ owner.value) :
    t.findByOwner owner = rs.filter fun r => r.owner = owner := by
  have hsame : rs.filter ((fun row : FileRow => row.ownerId = Text.bind owner.value) ∘
      FileRow.ofRecord) = rs.filter fun r => r.owner = owner := by
    refine List.filter_congr fun r hr => ?_
    have hrow := h.row_iff FileRow.ownerId (·.owner.value) (fun _ => rfl) (fun _ hr => hr.owner)
      howner hr
    simp only [Function.comp_apply, hrow, UserId.value_eq_iff]
  rw [SqliteFileRepository.findByOwner, h.rows, List.filter_map, List.map_map, hsame]
  calc
    _ = (rs.filter fun r => r.owner = owner).map id := by
      refine List.map_congr_left fun r hr => ?_
      rw [Function.comp_apply, FileRow.toOwnedRecord_eq]
      exact FileRow.toRecord_ofRecord (h.kept r (List.mem_of_mem_filter hr))
    _ = _ := List.map_id _

theorem existsUploadId (h : SqliteShelves t rs) {uploadId : Bytes}
    (hupload : (0 : UInt8) ∉ uploadId) :
    t.existsUploadId uploadId = rs.any fun r => r.uploadId = uploadId := by
  rw [SqliteFileRepository.existsUploadId, h.rows, List.any_map, Bool.eq_iff_iff, List.any_eq_true,
    List.any_eq_true]
  refine exists_congr fun r => and_congr_right fun hr => ?_
  have hrow := h.row_iff FileRow.uploadId FileRecord.uploadId (fun _ => rfl)
    (fun _ hr => hr.uploadId) hupload hr
  simp only [Function.comp_apply, hrow]

end SqliteShelves

/-- `SqliteFileRepository` is a shelf for what its rows keep. -/
theorem sqlite_shelve {t : SqliteFileRepository} {rs : List FileRecord} (h : SqliteShelves t rs)
    {op : FileOp} (hkept : op.Kept) :
    (sqliteFileRepository.step t op).1 = (FileRecord.shelve rs op).1 ∧
      SqliteShelves (sqliteFileRepository.step t op).2 (FileRecord.shelve rs op).2 := by
  cases op with
  | save r => exact h.save hkept
  | findById id => exact ⟨congrArg FileReply.record (h.findById hkept), h⟩
  | findByOwner owner => exact ⟨congrArg FileReply.records (h.findByOwner hkept), h⟩
  | existsUploadId uploadId => exact ⟨congrArg FileReply.flag (h.existsUploadId hkept), h⟩

/-- In a run of such operations both repositories answer the same, every field of every record. -/
theorem file_repositories_agree (ops : List FileOp) (hissued : ∀ op ∈ ops, op.Issued)
    (hkept : ∀ op ∈ ops, op.Kept) :
    List.Forall₂ FileReply.Same (memoryFileRepository.replies ops)
      (sqliteFileRepository.replies ops) := by
  let Held : MemoryFileRepository → SqliteFileRepository → Prop :=
    fun m t => ∃ rs, MemoryShelves m rs ∧ SqliteShelves t rs
  have hstep : ∀ m t op, Held m t → op.Issued ∧ op.Kept →
      FileReply.Same (memoryFileRepository.step m op).1 (sqliteFileRepository.step t op).1 ∧
        Held (memoryFileRepository.step m op).2 (sqliteFileRepository.step t op).2 := by
    rintro m t op ⟨rs, hm, ht⟩ ⟨hop, hop'⟩
    obtain ⟨hsame, hm'⟩ := memory_shelve hm hop
    obtain ⟨hsame', ht'⟩ := sqlite_shelve ht hop'
    exact ⟨hsame' ▸ hsame, _, hm', ht'⟩
  refine outputs_of_simulation hstep ops ⟨[], MemoryShelves.empty, SqliteShelves.empty⟩ ?_
  intro t ht
  have hinput := input_mem_of_mem_trace ht
  exact ⟨hissued _ hinput, hkept _ hinput⟩

def report : FileRecord where
  id := ⟨ascii "fil_1"⟩
  owner := ⟨ascii "usr_a"⟩
  origName := ascii "report.pdf"
  storageId := ascii "s.bin"
  size := 3
  digest := zeroDigest
  wrapped := { recipientId := ⟨ascii "usr_b"⟩, nonce := [], bytes := [1, 2] }
  recipient := ⟨ascii "usr_b"⟩
  uploadId := ascii "u"
  createdAt := 1700000000000

theorem file_repositories_agree_on_report :
    let ops : List FileOp := [.save report, .findByOwner report.owner, .save report]
    memoryFileRepository.replies ops = [.done, .records [report], .threw .validation] ∧
      List.Forall₂ FileReply.Same (memoryFileRepository.replies ops)
        (sqliteFileRepository.replies ops) := by
  have hsave : (FileOp.save report).Issued ∧ (FileOp.save report).Kept :=
    ⟨⟨by decide, by decide, by decide⟩,
      ⟨by decide, by decide, by decide, by decide, by decide, by decide, by decide, rfl, rfl⟩⟩
  refine ⟨by decide +kernel, file_repositories_agree _ ?_ ?_⟩
  · rintro op (_ | ⟨_, _ | ⟨_, _ | ⟨_, ⟨⟩⟩⟩⟩)
    · exact hsave.1
    · trivial
    · exact hsave.1
  · rintro op (_ | ⟨_, _ | ⟨_, _ | ⟨_, ⟨⟩⟩⟩⟩)
    · exact hsave.2
    · exact (by decide : (0 : UInt8) ∉ report.owner.value)
    · exact hsave.2

/-- The key of the record is wrapped for the name of the recipient, as the client sends it. -/
def namedKey : FileRecord :=
  { report with wrapped := { report.wrapped with recipientId := ⟨ascii "bob"⟩ } }

/-- SQLite does not store for whom the key was wrapped. -/
theorem wrapped_recipient_differs :
    let ops : List FileOp := [.save namedKey, .findById namedKey.id]
    (∀ op ∈ ops, op.Issued) ∧
      memoryFileRepository.replies ops = [.done, .record (some namedKey)] ∧
      sqliteFileRepository.replies ops = [.done, .record (some report)] ∧
      ¬ List.Forall₂ FileReply.Same (memoryFileRepository.replies ops)
        (sqliteFileRepository.replies ops) := by
  have hmemory : memoryFileRepository.replies [.save namedKey, .findById namedKey.id] =
      [.done, .record (some namedKey)] := by decide +kernel
  have hsqlite : sqliteFileRepository.replies [.save namedKey, .findById namedKey.id] =
      [.done, .record (some report)] := by decide +kernel
  refine ⟨?_, hmemory, hsqlite, fun h => ?_⟩
  · rintro op (_ | ⟨_, _ | ⟨_, ⟨⟩⟩⟩)
    · exact ⟨by decide, by decide, by decide⟩
    · trivial
  · rw [hmemory, hsqlite] at h
    cases h with
    | cons _ h =>
        cases h with
        | cons hsame _ => exact absurd hsame.of_record (by decide)

end SecureFileTransfer
