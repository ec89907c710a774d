import SecureFileTransfer.CrashRuns

/-!
# StorageSteps — what one call can do to the disk

Inversion lemmas for the calls of `BinaryFileStorage` and of the transaction of `save`, shared by
the proofs about what a crash finds.
-/

namespace SecureFileTransfer

open Calls StdString BinaryFileStorage

/-! ## Directories -/

namespace DirOp

/-- The change neither moves the name nor links the file elsewhere. -/
def Spares (n : Bytes) (i : Nat) : DirOp → Prop
  | .link m j => m ≠ n ∧ j ≠ i
  | .unlink m => m ≠ n
  | .rename src dst j => src ≠ n ∧ dst ≠ n ∧ j ≠ i

/-- The entry the change makes. -/
def links : DirOp → Option (Bytes × Nat)
  | .link m j => some (m, j)
  | .unlink _ => none
  | .rename _ dst j => some (dst, j)

end DirOp

theorem lookup_erase_eq_some {dir : Table Nat} {m n : Bytes} {i : Nat}
    (h : (dir.erase m).lookup n = some i) : n ≠ m ∧ dir.lookup n = some i := by
  by_cases hnm : n = m
  · subst hnm
    rw [AList.lookup_erase] at h
    cases h
  · rw [AList.lookup_erase_ne hnm] at h
    exact ⟨hnm, h⟩

/-- Every entry of the directory satisfies `P`. -/
def Entries (P : Bytes → Nat → Prop) (dir : Table Nat) : Prop :=
  ∀ n i, dir.lookup n = some i → P n i

theorem Entries.apply {P : Bytes → Nat → Prop} {dir : Table Nat} {op : DirOp} (h : Entries P dir)
    (hop : ∀ e ∈ op.links, P e.1 e.2) : Entries P (op.apply dir) := by
  have hinsert : ∀ {dir : Table Nat} {m j}, Entries P dir → P m j → Entries P (dir.insert m j) := by
    intro dir m j hdir hm n i hn
    rw [Table.lookup_insert_eq] at hn
    split at hn
    · cases hn
      subst n
      exact hm
    · exact hdir n i hn
  have herase : ∀ {m}, Entries P (dir.erase m) := fun n i hn => h n i (lookup_erase_eq_some hn).2
  cases op with
  | link m j => exact hinsert h (hop (m, j) rfl)
  | unlink m => exact herase
  | rename src dst j => exact hinsert herase (hop (dst, j) rfl)

theorem Entries.applyAll {P : Bytes → Nat → Prop} {dir : Table Nat} {ops : List DirOp}
    (h : Entries P dir) (hops : ∀ op ∈ ops, ∀ e ∈ op.links, P e.1 e.2) :
    Entries P (ops.foldl DirOp.apply dir) :=
  List.foldlRecOn ops DirOp.apply h fun _ hdir op hop => hdir.apply (hops op hop)

namespace Disk

@[simp] theorem dir_push (d : Disk) (op : DirOp) : (d.push op).dir = op.apply d.dir := by
  simp [dir, push]

theorem mem_of_mem_keptOps {l : Loss} {d : Disk} {op : DirOp} (h : op ∈ d.keptOps l) :
    op ∈ d.pending := by
  rw [keptOps, List.mem_filterMap] at h
  obtain ⟨⟨kept, op'⟩, hmem, hop⟩ := h
  have hpending := (List.of_mem_zip hmem).2
  cases kept with
  | false => cases hop
  | true =>
      cases hop
      exact hpending

end Disk

/-! ## What a call can do to the files -/

namespace SysCall

/-- The file a call writes to or syncs. -/
def writes : SysCall → Option Bytes
  | .openTrunc m => some m
  | .append m _ => some m
  | .fsync m => some m
  | _ => none

/-- The call is about other names. -/
def Avoids (n : Bytes) : SysCall → Prop
  | .openTrunc m => m ≠ n
  | .append m _ => m ≠ n
  | .fsync m => m ≠ n
  | .remove m => m ≠ n
  | .rename src dst => src ≠ n ∧ dst ≠ n
  | _ => True

theorem ne_of_writes {n m : Bytes} {c : SysCall} (hc : c.Avoids n) (hm : c.writes = some m) :
    m ≠ n := by
  cases c <;> cases hm <;> exact hc

end SysCall

/-- The disk with a new empty file under the name. -/
def Disk.create (d : Disk) (m : Bytes) : Disk :=
  { d with next := d.next + 1 }.setInode d.next ⟨[], false⟩ |>.push (.link m d.next)

/-- A call that is carried out leaves the files alone or does one of five things to them. -/
inductive FileStep (d : Disk) : SysCall → Disk → Prop
  | kept {c : SysCall} {d' : Disk} (durable : d'.durable = d.durable)
      (pending : d'.pending = d.pending) (inode : d'.inode = d.inode) (next : d'.next = d.next) :
      FileStep d c d'
  | created {m : Bytes} (absent : d.dir.lookup m = none) : FileStep d (.openTrunc m) (d.create m)
  | wrote {c : SysCall} {m : Bytes} {j : Nat} (f : Inode) (writes : c.writes = some m)
      (present : d.dir.lookup m = some j) : FileStep d c (d.setInode j f)
  | removed {m : Bytes} : FileStep d (.remove m) (d.push (.unlink m))
  | renamed {src dst : Bytes} {j : Nat} (present : d.dir.lookup src = some j) :
      FileStep d (.rename src dst) (d.push (.rename src dst j))
  | synced : FileStep d .fsyncDir { d with durable := d.dir, pending := [] }

theorem FileStep.refl (d : Disk) (c : SysCall) : FileStep d c d := .kept rfl rfl rfl rfl

theorem fileStep_of_sys {d d' : Disk} {c : SysCall} (hd : d.sys c = .ok d') : FileStep d c d' := by
  cases c with
  | openTrunc m =>
      simp only [Disk.sys] at hd
      split at hd <;> cases hd
      · exact .wrote _ rfl ‹_›
      · exact .created ‹_›
  | append m byte | fsync m =>
      -- a stream whose file was unlinked writes to no name
      simp only [Disk.sys] at hd
      split at hd <;> cases hd
      · exact .wrote _ rfl ‹_›
      · exact .refl d _
  | remove m =>
      simp only [Disk.sys] at hd
      split at hd <;> cases hd
      · exact .removed
      · exact .refl d _
  | rename src dst =>
      simp only [Disk.sys] at hd
      split at hd <;> cases hd
      exact .renamed ‹_›
  | openFile m =>
      simp only [Disk.sys] at hd
      split at hd <;> cases hd
      exact .refl d _
  | fsyncDir =>
      cases hd
      exact .synced
  | flush m | close m | prepare =>
      cases hd
      exact .refl d _
  | beginImmediate | commit | rollback =>
      -- the database is not among the files
      simp only [Disk.sys] at hd
      split at hd <;> cases hd
      exact .kept rfl rfl rfl rfl

namespace SysCall

/-- The name a call may add to the directory. -/
def creates : SysCall → Option Bytes
  | .openTrunc m => some m
  | .rename _ dst => some dst
  | _ => none

end SysCall

/-- A call adds to the directory no name but the one it creates. -/
theorem Entries.step {P : Bytes → Nat → Prop} {d d' : Disk} {c : SysCall} (h : Entries P d.dir)
    (hc : ∀ m ∈ c.creates, ∀ i, P m i) (hd : FileStep d c d') : Entries P d'.dir := by
  cases hd with
  | kept durable pending inode next =>
      rw [Disk.dir, durable, pending]
      exact h
  | created absent =>
      rw [Disk.create, Disk.dir_push]
      exact h.apply fun e he => by cases he; exact hc _ rfl _
  | wrote f writes present => exact h
  | removed =>
      rw [Disk.dir_push]
      exact h.apply fun e he => by cases he
  | renamed present =>
      rw [Disk.dir_push]
      exact h.apply fun e he => by cases he; exact hc _ rfl _
  | synced => exact h

namespace Disk

/-- Only a commit changes the committed rows. -/
theorem db_of_sys {d d' : Disk} {c : SysCall} (hc : c ≠ .commit) (hd : d.sys c = .ok d') :
    d'.db = d.db := by
  cases c with
  | commit => exact absurd rfl hc
  | openTrunc m | append m byte | openFile m | fsync m | remove m | rename src dst
  | beginImmediate | rollback =>
      simp only [sys] at hd
      split at hd <;> cases hd <;> rfl
  | flush m | close m | fsyncDir | prepare =>
      cases hd
      rfl

end Disk

/-! ## The names of the uploads -/

theorem isPart_tmpName (s : Bytes) : isPart (tmpName s) = true := by
  rw [isPart, tmpName, List.isSuffixOf_iff_suffix]
  exact List.suffix_append _ _

theorem tmpName_injective {s t : Bytes} (h : tmpName s = tmpName t) : s = t := by
  simpa [tmpName] using h

/-- A storage id ends in `.bin`. -/
theorem not_isPart_storageId (u : UploadCall) : isPart u.storageId = false := by
  rw [Bool.eq_false_iff]
  intro h
  obtain ⟨t, ht⟩ := List.isSuffixOf_iff_suffix.1 h
  -- the last letters differ: `n` and `t`
  have hlast := congrArg List.getLast? ht
  simp [UploadCall.storageId, UploadCall.record, UploadArgs.record, ascii] at hlast

theorem ne_storageId_of_isPart {n : Bytes} (h : isPart n = true) (u : UploadCall) :
    n ≠ u.storageId := by
  rintro rfl
  rw [not_isPart_storageId] at h
  cases h

theorem tmpName_ne_storageId (s : Bytes) (u : UploadCall) : tmpName s ≠ u.storageId :=
  ne_storageId_of_isPart (isPart_tmpName s) u

/-! ## The transaction -/

section Save

variable {allowed : Disk → DiskCall → Fault → Prop} {I J K : Disk → Prop} {d : Disk}

theorem wpc_rollback_throw {Q : Except Exn Unit → Disk → Prop} (hI : ∀ d, J d → I d)
    (htx : ∀ d t, J d → J { d with tx := t }) (hQ : ∀ e d, J d → Q (.error e) d) (h : J d) (e : Exn) :
    wpc Disk.act allowed I (do Code.exec .rollback; throw e) Q d := by
  refine wpc_bind (wpc_bind (wpc_ask (hI d h) fun fault _ => ?_))
  cases fault with
  -- a rollback that fails throws its own exception
  | some text => exact ⟨hI d h, wpc_throw (hI d h) (hQ _ d h)⟩
  | none =>
      simp only [Disk.act, Disk.sys]
      cases htxd : d.tx with
      | none => exact ⟨hI d h, wpc_throw (hI d h) (hQ _ d h)⟩
      | some t =>
          have h' := htx d none h
          exact ⟨hI _ h', wpc_pure (hI _ h') (wpc_throw (hI _ h') (hQ e _ h'))⟩

theorem wpc_commit {t : SqliteFileRepository} (hI : ∀ d, J d → I d) (hKI : ∀ d, K d → I d)
    (hK : K { d with db := t, tx := none }) (h : J d) (ht : d.tx = some t) :
    wpc Disk.act allowed I (Code.exec .commit)
      (fun r d' => (∃ e, r = .error e ∧ J d') ∨ (r = .ok () ∧ K d')) d := by
  refine wpc_bind (wpc_ask (hI d h) fun fault _ => ?_)
  cases fault with
  | some text => exact ⟨hI d h, wpc_throw (hI d h) (.inl ⟨_, rfl, h⟩)⟩
  | none =>
      simp only [Disk.act, Disk.sys, ht]
      exact ⟨hKI _ hK, wpc_pure (hKI _ hK) (.inr ⟨rfl, hK⟩)⟩

/-- `save` adds the row of the record and nothing else, or throws.  `J` is what holds before the
commit, whatever the transaction holds, and `K` what the commit makes of it. -/
theorem wpc_save {r : FileRecord} (hI : ∀ d, J d → I d) (hKI : ∀ d, K d → I d)
    (htx : ∀ d t, J d → J { d with tx := t })
    (hcommit : ∀ d t, J d → t.rows = d.db.rows ++ [FileRow.ofRecord r] →
      K { d with db := t, tx := none }) (h : J d) :
    wpc Disk.act allowed I (Code.save r)
      (fun res d' => (∃ e, res = .error e ∧ J d') ∨ (res = .ok () ∧ K d')) d := by
  have hrollback : ∀ d e, J d → wpc Disk.act allowed I (do Code.exec .rollback; throw e)
      (fun res d' => (∃ e, res = .error e ∧ J d') ∨ (res = .ok () ∧ K d')) d := fun d e hJ =>
    wpc_rollback_throw hI htx (fun e' d' hJ' => .inl ⟨e', rfl, hJ'⟩) hJ e
  refine wpc_bind (wpc_bind (wpc_ask (hI d h) fun fault _ => ?_))
  cases fault with
  | some text => exact ⟨hI d h, wpc_throw (hI d h) (.inl ⟨_, rfl, h⟩)⟩
  | none =>
      simp only [Disk.act, Disk.sys]
      cases htxd : d.tx with
      -- a transaction is open already: `BEGIN` is refused
      | some t => exact ⟨hI d h, wpc_throw (hI d h) (.inl ⟨_, rfl, h⟩)⟩
      | none =>
          -- the transaction starts from the committed rows
          have h₁ : J { d with tx := some d.db } := htx d _ h
          refine ⟨hI _ h₁, wpc_pure (hI _ h₁) (wpc_bind (wpc_ask (hI _ h₁) fun fault _ => ?_))⟩
          cases fault with
          | some text => exact ⟨hI _ h₁, hrollback _ _ h₁⟩
          | none =>
              refine ⟨hI _ h₁, wpc_bind (wpc_ask (hI _ h₁) fun fault _ => ?_)⟩
              cases fault with
              | some text => exact ⟨hI _ h₁, hrollback _ _ h₁⟩
              | none =>
                  simp only [Disk.act, Disk.sys, Disk.insert]
                  cases hsave : d.db.save r with
                  -- a unique column is violated
                  | error e => exact ⟨hI _ h₁, hrollback _ _ h₁⟩
                  | ok t =>
                      have h₂ : J { d with tx := some t } := htx d _ h
                      have hrows := (SqliteFileRepository.save_ok hsave).1
                      exact ⟨hI _ h₂, wpc_commit hI hKI (hcommit _ t h₂ hrows) h₂ rfl⟩

end Save

end SecureFileTransfer
