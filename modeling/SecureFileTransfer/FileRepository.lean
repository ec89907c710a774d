import SecureFileTransfer.Domain
import SecureFileTransfer.Lib.StdString
import SecureFileTransfer.Lib.Tables

/-!
# FileRepository — the file records and their two stores

`IFileRepository`, `MemoryFileRepository` and `SqliteFileRepository`.  Above them stands what the
transfer service relies on: a repository state is a set of records in which id, upload id and
storage id are unique, and `save` adds one record or throws.
-/

namespace SecureFileTransfer

open StdString

/-- `IFileRepository`, the operations the transfer service calls. -/
structure FileRepository where
  State : Type
  empty : State
  save : FileRecord → State → Except Exn State
  findById : State → FileId → Option FileRecord
  existsUploadId : State → Bytes → Bool

/-! ## In memory -/

/-- Every record stands under its own id, and both indexes lead back to it. -/
structure MemoryFileRepository where
  byId : Table FileRecord
  uploadIdToId : Table Bytes
  storageIdToId : Table Bytes
  indexed : ∀ k r, byId.lookup k = some r →
    r.id.value = k ∧ uploadIdToId.lookup r.uploadId = some k ∧
      storageIdToId.lookup r.storageId = some k

namespace MemoryFileRepository

def empty : MemoryFileRepository where
  byId := ∅
  uploadIdToId := ∅
  storageIdToId := ∅
  indexed := by simp

/-- The three insertions at the end of `save`, for a record whose keys are all new. -/
def add (m : MemoryFileRepository) (r : FileRecord)
    (hnew : m.uploadIdToId.lookup r.uploadId = none ∧ m.storageIdToId.lookup r.storageId = none) :
    MemoryFileRepository where
  byId := m.byId.insert r.id.value r
  uploadIdToId := m.uploadIdToId.insert r.uploadId r.id.value
  storageIdToId := m.storageIdToId.insert r.storageId r.id.value
  indexed := by
    intro k x hx
    rw [Table.lookup_insert_eq] at hx
    split at hx
    · cases hx
      subst k
      simp
    · obtain ⟨hid, hup, hst⟩ := m.indexed k x hx
      -- an old record keeps its entry in both indexes: the new keys are new
      have hup' : x.uploadId ≠ r.uploadId := by
        intro h
        rw [h, hnew.1] at hup
        cases hup
      have hst' : x.storageId ≠ r.storageId := by
        intro h
        rw [h, hnew.2] at hst
        cases hst
      exact ⟨hid, by rw [AList.lookup_insert_ne hup']; exact hup,
        by rw [AList.lookup_insert_ne hst']; exact hst⟩

def save (r : FileRecord) (m : MemoryFileRepository) : Except Exn MemoryFileRepository :=
  if r.id.value = [] then
    .error (.validation "id empty")
  else if r.uploadId = [] then
    .error (.validation "uploadId empty")
  else if r.storageId = [] then
    .error (.validation "storageId empty")
  else if m.byId.lookup r.id.value ≠ none then
    .error (.validation "duplicate id")
  else if hup : m.uploadIdToId.lookup r.uploadId ≠ none then
    .error (.validation "duplicate upload_id")
  else if hst : m.storageIdToId.lookup r.storageId ≠ none then
    .error (.validation "duplicate storage_id")
  else
    .ok (m.add r ⟨not_not.1 hup, not_not.1 hst⟩)

def findById (m : MemoryFileRepository) (id : FileId) : Option FileRecord :=
  m.byId.lookup id.value

def existsUploadId (m : MemoryFileRepository) (uploadId : Bytes) : Bool :=
  (m.uploadIdToId.lookup uploadId).isSome

end MemoryFileRepository

/-! ## In SQLite -/

def digestToHex (d : Digest) : Bytes := hexBytes d.1

/-- A text that is not 64 characters long gives the zero digest. -/
def hexToDigest (s : Bytes) : Digest :=
  if s.length ≠ 64 then
    zeroDigest
  else
    ⟨(List.range 32).map fun i => hexValue (s.getD (2 * i) 0) * 16 + hexValue (s.getD (2 * i + 1) 0),
      by simp⟩

/-- A row of the `files` table; `none` in a blob column is `NULL`. -/
structure FileRow where
  id : Text
  ownerId : Text
  recipientId : Text
  origName : Text
  storageId : Text
  size : Int64
  digest : Text
  wrappedDek : Option Bytes
  nonce : Option Bytes
  uploadId : Text
  createdAt : Text
  deriving DecidableEq

structure SqliteFileRepository where
  rows : List FileRow
  id : Unique FileRow.id rows
  storageId : Unique FileRow.storageId rows
  uploadId : Unique FileRow.uploadId rows

namespace FileRow

/-- An empty vector is bound as `NULL`. -/
def bindBlob (b : Bytes) : Option Bytes := if b.isEmpty then none else some b

def ofRecord (r : FileRecord) : FileRow where
  id := Text.bind r.id.value
  ownerId := Text.bind r.owner.value
  recipientId := Text.bind r.recipient.value
  origName := Text.bind r.origName
  storageId := Text.bind r.storageId
  -- `sqlite3_bind_int64` on an unsigned size
  size := r.size.toInt64
  digest := Text.bind (digestToHex r.digest)
  wrappedDek := bindBlob r.wrapped.bytes
  nonce := bindBlob r.wrapped.nonce
  uploadId := Text.bind r.uploadId
  -- the time goes into a text column, as decimal digits
  createdAt := Text.bind (decimalInt r.createdAt)

-- the branches that rebuild the wrapped key differ in whether they go through the validating
-- constructor; all of them end with these four fields
def toRecord (row : FileRow) : FileRecord where
  id := ⟨row.id.1⟩
  owner := ⟨row.ownerId.1⟩
  recipient := ⟨row.recipientId.1⟩
  origName := row.origName.1
  storageId := row.storageId.1
  size := row.size.toUInt64
  digest := hexToDigest row.digest.1
  wrapped :=
    { recipientId := ⟨row.recipientId.1⟩
      nonce := row.nonce.getD []
      bytes := row.wrappedDek.getD []
      alg := defaultAlg }
  uploadId := row.uploadId.1
  -- a text that is no number reads as 0
  createdAt := (stoll row.createdAt.1).getD 0

end FileRow

namespace SqliteFileRepository

def empty : SqliteFileRepository := ⟨[], Unique.nil, Unique.nil, Unique.nil⟩

def save (r : FileRecord) (t : SqliteFileRepository) : Except Exn SqliteFileRepository :=
  let row := FileRow.ofRecord r
  if h : ∀ x ∈ t.rows, x.id ≠ row.id ∧ x.storageId ≠ row.storageId ∧ x.uploadId ≠ row.uploadId then
    .ok
      { rows := t.rows ++ [row]
        id := t.id.concat fun x hx => (h x hx).1
        storageId := t.storageId.concat fun x hx => (h x hx).2.1
        uploadId := t.uploadId.concat fun x hx => (h x hx).2.2 }
  else
    .error (.validation "duplicate upload_id or storage_id or id")

def findById (t : SqliteFileRepository) (id : FileId) : Option FileRecord :=
  (t.rows.find? fun row => row.id = Text.bind id.value).map FileRow.toRecord

def existsUploadId (t : SqliteFileRepository) (uploadId : Bytes) : Bool :=
  t.rows.any fun row => row.uploadId = Text.bind uploadId

end SqliteFileRepository

/-! ## The two as implementations of the port -/

def memoryFiles : FileRepository where
  State := MemoryFileRepository
  empty := MemoryFileRepository.empty
  save := MemoryFileRepository.save
  findById := MemoryFileRepository.findById
  existsUploadId := MemoryFileRepository.existsUploadId

def sqliteFiles : FileRepository where
  State := SqliteFileRepository
  empty := SqliteFileRepository.empty
  save := SqliteFileRepository.save
  findById := SqliteFileRepository.findById
  existsUploadId := SqliteFileRepository.existsUploadId

/-! ## A repository as a set of records -/

namespace FileRepository

/-- How a state reads as a set of records: `text` is what the repository keeps of a string and
`stored` what it keeps of a record. -/
structure View (R : FileRepository) where
  records : R.State → List FileRecord
  text : Bytes → Bytes
  stored : FileRecord → FileRecord
  records_empty : records R.empty = []
  findById_iff : ∀ {s i r}, R.findById s i = some r ↔ r ∈ records s ∧ r.id.value = text i.value
  mem_save : ∀ {r s s'}, R.save r s = .ok s' → ∀ {x}, x ∈ records s' ↔ x ∈ records s ∨ x = stored r
  fresh_save : ∀ {r s s'}, R.save r s = .ok s' → ∀ x ∈ records s, x.id ≠ (stored r).id
  unique_id : ∀ {s a b}, a ∈ records s → b ∈ records s → a.id = b.id → a = b
  unique_storageId : ∀ {s a b}, a ∈ records s → b ∈ records s → a.storageId = b.storageId → a = b
  unique_uploadId : ∀ {s a b}, a ∈ records s → b ∈ records s → a.uploadId = b.uploadId → a = b
  text_eq : ∀ {b}, (0 : UInt8) ∉ b → text b = b
  stored_id : ∀ r, (stored r).id.value = text r.id.value
  stored_owner : ∀ r, (stored r).owner.value = text r.owner.value
  stored_recipient : ∀ r, (stored r).recipient.value = text r.recipient.value
  stored_storageId : ∀ r, (stored r).storageId = text r.storageId
  stored_uploadId : ∀ r, (stored r).uploadId = text r.uploadId

end FileRepository

namespace MemoryFileRepository

variable {m : MemoryFileRepository}

theorem save_ok {r : FileRecord} {m' : MemoryFileRepository} (h : save r m = .ok m') :
    m.byId.lookup r.id.value = none ∧ m'.byId = m.byId.insert r.id.value r := by
  unfold save at h
  split at h
  · cases h
  · split at h
    · cases h
    · split at h
      · cases h
      · split at h
        · cases h
        · rename_i hid
          split at h
          · cases h
          · split at h
            · cases h
            · cases h
              exact ⟨not_not.1 hid, rfl⟩

theorem mem_values_iff {r : FileRecord} : r ∈ m.byId.values ↔ m.byId.lookup r.id.value = some r := by
  rw [Table.mem_values_iff]
  constructor
  · rintro ⟨k, hk⟩
    rw [(m.indexed k r hk).1]
    exact hk
  · intro h
    exact ⟨_, h⟩

/-- Records under the same key of an index are the same record. -/
theorem eq_of_lookup {index : Table Bytes} {a b : FileRecord} {key : Bytes}
    (ha : m.byId.lookup a.id.value = some a) (hb : m.byId.lookup b.id.value = some b)
    (hia : index.lookup key = some a.id.value) (hib : index.lookup key = some b.id.value) :
    a = b := by
  have hid : a.id.value = b.id.value := Option.some.inj (hia.symm.trans hib)
  rw [hid, hb] at ha
  exact (Option.some.inj ha).symm

theorem findById_iff {i : FileId} {r : FileRecord} :
    m.findById i = some r ↔ r ∈ m.byId.values ∧ r.id.value = i.value := by
  rw [mem_values_iff]
  constructor
  · intro h
    have hid := (m.indexed i.value r h).1
    exact ⟨by rw [hid]; exact h, hid⟩
  · rintro ⟨h, hid⟩
    rw [hid] at h
    exact h

theorem mem_save {r x : FileRecord} {m' : MemoryFileRepository} (h : save r m = .ok m') :
    x ∈ m'.byId.values ↔ x ∈ m.byId.values ∨ x = r := by
  obtain ⟨hnew, hbyId⟩ := save_ok h
  rw [mem_values_iff, mem_values_iff, hbyId, Table.lookup_insert_eq]
  by_cases hx : x.id.value = r.id.value
  · rw [if_pos hx, hx, hnew]
    simp [eq_comm]
  · have hne : x ≠ r := fun heq => hx (by rw [heq])
    simp [hx, hne]

theorem unique_id {a b : FileRecord} (ha : a ∈ m.byId.values) (hb : b ∈ m.byId.values)
    (heq : a.id = b.id) : a = b := by
  have ha' := mem_values_iff.1 ha
  rw [heq, mem_values_iff.1 hb] at ha'
  exact (Option.some.inj ha').symm

theorem fresh_save {r x : FileRecord} {m' : MemoryFileRepository} (h : save r m = .ok m')
    (hx : x ∈ m.byId.values) : x.id ≠ r.id := by
  intro heq
  have hlookup := mem_values_iff.1 hx
  rw [heq, (save_ok h).1] at hlookup
  cases hlookup

def view : memoryFiles.View where
  records := fun m : MemoryFileRepository => m.byId.values
  text := id
  stored := id
  records_empty := rfl
  findById_iff := findById_iff
  mem_save h := mem_save h
  fresh_save h _ hx := fresh_save h hx
  unique_id := unique_id
  unique_storageId := by
    intro m a b ha hb heq
    have ha' := mem_values_iff.1 ha
    have hb' := mem_values_iff.1 hb
    exact eq_of_lookup ha' hb' (m.indexed _ _ ha').2.2 (heq ▸ (m.indexed _ _ hb').2.2)
  unique_uploadId := by
    intro m a b ha hb heq
    have ha' := mem_values_iff.1 ha
    have hb' := mem_values_iff.1 hb
    exact eq_of_lookup ha' hb' (m.indexed _ _ ha').2.1 (heq ▸ (m.indexed _ _ hb').2.1)
  text_eq := fun _ => rfl
  stored_id := fun _ => rfl
  stored_owner := fun _ => rfl
  stored_recipient := fun _ => rfl
  stored_storageId := fun _ => rfl
  stored_uploadId := fun _ => rfl

end MemoryFileRepository

namespace SqliteFileRepository

variable {t : SqliteFileRepository}

theorem save_ok {r : FileRecord} {t' : SqliteFileRepository} (h : save r t = .ok t') :
    t'.rows = t.rows ++ [FileRow.ofRecord r] ∧
      ∀ x ∈ t.rows, x.id ≠ (FileRow.ofRecord r).id := by
  simp only [save] at h
  split at h
  · rename_i hnew
    cases h
    exact ⟨rfl, fun x hx => (hnew x hx).1⟩
  · cases h

/-- Records that agree on a column that is unique in the table come from the same row. -/
theorem eq_of_column {col : FileRow → Text} {f : FileRecord → Bytes} {a b : FileRecord}
    (hu : Unique col t.rows) (hf : ∀ row, f (FileRow.toRecord row) = (col row).1)
    (ha : a ∈ t.rows.map FileRow.toRecord) (hb : b ∈ t.rows.map FileRow.toRecord)
    (h : f a = f b) : a = b := by
  obtain ⟨x, hx, rfl⟩ := List.mem_map.1 ha
  obtain ⟨y, hy, rfl⟩ := List.mem_map.1 hb
  rw [hf, hf] at h
  rw [hu.inj hx hy (Subtype.ext h)]

theorem findById_iff {i : FileId} {r : FileRecord} :
    t.findById i = some r ↔ r ∈ t.rows.map FileRow.toRecord ∧ r.id.value = cstr i.value := by
  rw [findById, Option.map_eq_some_iff]
  constructor
  · rintro ⟨row, hrow, rfl⟩
    obtain ⟨hmem, hid⟩ := t.id.find?_iff.1 hrow
    exact ⟨List.mem_map_of_mem hmem, congrArg Subtype.val hid⟩
  · rintro ⟨hmem, hid⟩
    obtain ⟨row, hrow, rfl⟩ := List.mem_map.1 hmem
    exact ⟨row, t.id.find?_iff.2 ⟨hrow, Subtype.ext hid⟩, rfl⟩

theorem mem_save {r x : FileRecord} {t' : SqliteFileRepository} (h : save r t = .ok t') :
    x ∈ t'.rows.map FileRow.toRecord ↔
      x ∈ t.rows.map FileRow.toRecord ∨ x = (FileRow.ofRecord r).toRecord := by
  rw [(save_ok h).1]
  simp [eq_comm]

theorem fresh_save {r x : FileRecord} {t' : SqliteFileRepository} (h : save r t = .ok t')
    (hx : x ∈ t.rows.map FileRow.toRecord) : x.id ≠ (FileRow.ofRecord r).toRecord.id := by
  intro heq
  obtain ⟨row, hrow, rfl⟩ := List.mem_map.1 hx
  exact (save_ok h).2 row hrow (Subtype.ext (congrArg FileId.value heq))

def view : sqliteFiles.View where
  records := fun t : SqliteFileRepository => t.rows.map FileRow.toRecord
  text := cstr
  stored := fun r => (FileRow.ofRecord r).toRecord
  records_empty := rfl
  findById_iff := findById_iff
  mem_save h := mem_save h
  fresh_save h _ hx := fresh_save h hx
  unique_id := by
    intro t a b ha hb heq
    exact eq_of_column (f := fun r => r.id.value) t.id (fun _ => rfl) ha hb (by rw [heq])
  unique_storageId := by
    intro t a b ha hb heq
    exact eq_of_column t.storageId (fun _ => rfl) ha hb heq
  unique_uploadId := by
    intro t a b ha hb heq
    exact eq_of_column t.uploadId (fun _ => rfl) ha hb heq
  text_eq := cstr_of_not_mem
  stored_id := fun _ => rfl
  stored_owner := fun _ => rfl
  stored_recipient := fun _ => rfl
  stored_storageId := fun _ => rfl
  stored_uploadId := fun _ => rfl

end SqliteFileRepository

end SecureFileTransfer
