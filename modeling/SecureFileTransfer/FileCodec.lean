import SecureFileTransfer.FileParity

/-!
# FileCodec — a file record as a row, and the row read back

What `save` writes and the two readers return.  The wrapped key comes back with its nonce and its
bytes; for whom it was wrapped is not a column.
-/

namespace SecureFileTransfer

namespace FileRecord

/-- The fields that have a column of their own. -/
structure SameColumns (r r' : FileRecord) : Prop where
  id : r'.id = r.id
  owner : r'.owner = r.owner
  recipient : r'.recipient = r.recipient
  origName : r'.origName = r.origName
  storageId : r'.storageId = r.storageId
  uploadId : r'.uploadId = r.uploadId
  size : r'.size = r.size
  createdAt : r'.createdAt = r.createdAt
  digest : r'.digest = r.digest
  nonce : r'.wrapped.nonce = r.wrapped.nonce
  bytes : r'.wrapped.bytes = r.wrapped.bytes

theorem sameColumns_toRecord {r : FileRecord} (h : r.Storable) :
    r.SameColumns (FileRow.ofRecord r).toRecord := by
  rw [FileRow.toRecord_ofRecord_eq h]
  exact ⟨rfl, rfl, rfl, rfl, rfl, rfl, rfl, rfl, rfl, rfl, rfl⟩

end FileRecord

namespace SqliteFileRepository

/-- Attempts to save records, on a table and the list of the records it has taken so far; an attempt
that throws changes neither. -/
def attempts (t : SqliteFileRepository) (saved : List FileRecord) :
    List FileRecord → SqliteFileRepository × List FileRecord
  | [] => (t, saved)
  | r :: rs =>
      match save r t with
      | .ok t' => attempts t' (saved ++ [r]) rs
      | .error _ => attempts t saved rs

/-- The rows are those of the saved records. -/
theorem rows_attempts {t : SqliteFileRepository} {saved : List FileRecord}
    (h : t.rows = saved.map FileRow.ofRecord) (rs : List FileRecord) :
    (attempts t saved rs).1.rows = (attempts t saved rs).2.map FileRow.ofRecord := by
  induction rs generalizing t saved with
  | nil => exact h
  | cons r rs ih =>
      rw [attempts]
      cases hsave : save r t with
      | error e => exact ih h
      | ok t' =>
          refine ih ?_
          rw [(save_ok hsave).1, h, List.map_append]
          rfl

variable {t : SqliteFileRepository}

/-- The row under a record's id is found by that id. -/
theorem findById_of_row {r : FileRecord} (hrow : FileRow.ofRecord r ∈ t.rows) :
    t.findById r.id = some (FileRow.ofRecord r).toRecord := by
  have hfind : t.rows.find? (fun row => row.id = Text.bind r.id.value) =
      some (FileRow.ofRecord r) :=
    t.id.find?_iff.2 ⟨hrow, rfl⟩
  rw [findById, hfind]
  rfl

/-- The owner's records are the owner's rows, each as `findById` returns it. -/
theorem findByOwner_eq {saved : List FileRecord} (hrows : t.rows = saved.map FileRow.ofRecord)
    {owner : UserId} (howner : (0 : UInt8) ∉ owner.value)
    (hsaved : ∀ r ∈ saved, (0 : UInt8) ∉ r.owner.value) :
    (t.findByOwner owner).map some =
      (saved.filter fun r => r.owner = owner).map fun r => t.findById r.id := by
  have hsame : saved.filter ((fun row : FileRow => row.ownerId = Text.bind owner.value) ∘
      FileRow.ofRecord) = saved.filter fun r => r.owner = owner := by
    refine List.filter_congr fun r hr => ?_
    have hcolumn : (FileRow.ofRecord r).ownerId = Text.bind owner.value ↔ r.owner = owner :=
      (Text.bind_eq_iff (hsaved r hr) howner).trans UserId.value_eq_iff
    simp only [Function.comp_apply, hcolumn]
  rw [findByOwner, hrows, List.filter_map, hsame, List.map_map, List.map_map]
  refine List.map_congr_left fun r hr => ?_
  have hrow : FileRow.ofRecord r ∈ t.rows := by
    rw [hrows]
    exact List.mem_map_of_mem (List.mem_of_mem_filter hr)
  rw [findById_of_row hrow, Function.comp_apply, Function.comp_apply, FileRow.toOwnedRecord_eq]

/-- No record is returned twice. -/
theorem nodup_findByOwner (owner : UserId) : ((t.findByOwner owner).map (·.id)).Nodup := by
  have hrows : (t.rows.filter fun row => row.ownerId = Text.bind owner.value).map FileRow.id |>.Nodup :=
    t.id.sublist (List.filter_sublist.map _)
  rw [findByOwner, List.map_map]
  refine List.Nodup.of_map (fun id : FileId => id.value) ?_
  have hvalues := hrows.map Subtype.val_injective
  rw [List.map_map] at hvalues ⊢
  exact hvalues

end SqliteFileRepository

open SqliteFileRepository

/-- A record that is saved is found by its id with every column as it was, and after any attempts to
save records the owner's query returns the saved records of that owner, each exactly once and as the
query by id returns it. -/
theorem file_rows_read_back :
    (∀ (t t' : SqliteFileRepository) (r : FileRecord), r.Storable → save r t = .ok t' →
      ∃ r', t'.findById r.id = some r' ∧ r.SameColumns r') ∧
    ∀ rs : List FileRecord, (∀ r ∈ (attempts empty [] rs).2, r.Storable) → ∀ owner : UserId,
      (∀ r ∈ (attempts empty [] rs).2, r.owner = owner →
        ∃ r', (attempts empty [] rs).1.findById r.id = some r' ∧
          ((attempts empty [] rs).1.findByOwner owner).count r' = 1) ∧
      ((0 : UInt8) ∉ owner.value →
        ((attempts empty [] rs).1.findByOwner owner).map some =
          ((attempts empty [] rs).2.filter fun r => r.owner = owner).map
            fun r => (attempts empty [] rs).1.findById r.id) := by
  refine ⟨fun t t' r hr hsave => ?_, fun rs hstorable owner => ⟨fun r hr hro => ?_, fun howner => ?_⟩⟩
  · have hrow : FileRow.ofRecord r ∈ t'.rows := by
      rw [(save_ok hsave).1]
      simp
    exact ⟨_, findById_of_row hrow, FileRecord.sameColumns_toRecord hr⟩
  · have hrows : (attempts empty [] rs).1.rows = _ := rows_attempts rfl rs
    have hrow : FileRow.ofRecord r ∈ (attempts empty [] rs).1.rows := by
      rw [hrows]
      exact List.mem_map_of_mem hr
    have hfound := findById_of_row hrow
    refine ⟨_, hfound, List.count_eq_one_of_mem ?_ ?_⟩
    · exact List.Nodup.of_map _ (nodup_findByOwner owner)
    · have howner : (0 : UInt8) ∉ owner.value := hro ▸ (hstorable r hr).owner
      have hmap := findByOwner_eq hrows howner fun r hr => (hstorable r hr).owner
      have hmem : some (FileRow.ofRecord r).toRecord ∈
          ((attempts empty [] rs).1.findByOwner owner).map some := by
        rw [hmap, ← hfound]
        exact List.mem_map.2 ⟨r, List.mem_filter.2 ⟨hr, by simpa using hro⟩, rfl⟩
      simpa using hmem
  · have hrows : (attempts empty [] rs).1.rows = _ := rows_attempts rfl rs
    exact findByOwner_eq hrows howner fun r hr => (hstorable r hr).owner

/-- A record saved twice: the second attempt throws, and the record is there once. -/
theorem file_rows_read_back_report :
    (∃ t', save report empty = .ok t' ∧ ∃ r', t'.findById report.id = some r' ∧
      report.SameColumns r') ∧
    ((attempts empty [] [report, report]).1.findByOwner report.owner).map some =
      [(attempts empty [] [report, report]).1.findById report.id] := by
  have hreport : report.Storable :=
    ⟨by decide, by decide, by decide, by decide, by decide, by decide, by decide⟩
  have hsaved : (attempts empty [] [report, report]).2 = [report] := by decide +kernel
  constructor
  · cases hsave : save report empty with
    | error e =>
        have hok : (save report empty).isOk = true := by decide +kernel
        rw [hsave] at hok
        cases hok
    | ok t' => exact ⟨t', rfl, file_rows_read_back.1 empty t' report hreport hsave⟩
  · have hstorable : ∀ r ∈ (attempts empty [] [report, report]).2, r.Storable := by
      rw [hsaved]
      intro r hr
      rw [List.mem_singleton.1 hr]
      exact hreport
    have hall := (file_rows_read_back.2 [report, report] hstorable report.owner).2 (by decide)
    rw [hall, hsaved]
    rfl

end SecureFileTransfer
