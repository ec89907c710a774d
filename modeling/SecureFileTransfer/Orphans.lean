import SecureFileTransfer.DurableBlobs

/-!
# Orphans — what a kill leaves in the storage root

The boot sweeper knows leftovers by their name: it removes every `.part` file and nothing else.  A
blob that was renamed into place and whose record was not committed stays.  If no kill hits an
upload there, the root holds exactly the blobs of the records after every start.
-/

namespace SecureFileTransfer

open Calls Runs BinaryFileStorage

/-! ## Files and records -/

/-- The storage ids of the committed records. -/
def rowIds (d : Disk) : List Bytes := d.db.rows.map fun row => row.toRecord.storageId

theorem rowIds_congr {d d' : Disk} (h : d'.db = d.db) : rowIds d' = rowIds d := by
  rw [rowIds, rowIds, h]

/-- Every file in the root is the blob of exactly one record. -/
structure NoOrphans (d : Disk) : Prop where
  blob : ∀ n ∈ d.dir, d.db.rows.countP (fun row => decide (row.toRecord.storageId = n)) = 1
  noPart : ∀ n ∈ d.dir, isPart n = false

/-- Every file is a temporary one, the blob of a record, or the one that is excepted. -/
def Placed (except : Option Bytes) (d : Disk) : Prop :=
  Entries (fun n _ => isPart n = true ∨ n ∈ rowIds d ∨ except = some n) d.dir

/-- What the sweeper leaves: the blobs of records. -/
def Swept (d : Disk) : Prop := Entries (fun n _ => isPart n = false ∧ n ∈ rowIds d) d.dir

theorem Placed.mono {d : Disk} (h : Placed none d) (n : Bytes) : Placed (some n) d := by
  intro m i hm
  rcases h m i hm with hpart | hrow | hnone
  · exact .inl hpart
  · exact .inr (.inl hrow)
  · cases hnone

/-- The table has a storage id once. -/
theorem countP_storageId {d : Disk} {n : Bytes} (hn : n ∈ rowIds d) :
    d.db.rows.countP (fun row => decide (row.toRecord.storageId = n)) = 1 := by
  -- `storage_id` is a `UNIQUE` column
  have hnodup : (rowIds d).Nodup := by
    have hinj : rowIds d = (d.db.rows.map FileRow.storageId).map Subtype.val := by
      rw [List.map_map]
      rfl
    rw [hinj]
    exact List.Nodup.map Subtype.val_injective d.db.storageId
  calc d.db.rows.countP (fun row => decide (row.toRecord.storageId = n))
      = (rowIds d).countP (fun id => decide (id = n)) := by
        rw [rowIds, List.countP_map]
        rfl
    _ = (rowIds d).count n := List.countP_congr fun id _ => by simp
    _ = 1 := List.count_eq_one_of_mem hnodup hn

theorem Swept.noOrphans {d : Disk} (h : Swept d) : NoOrphans d where
  blob n hn := by
    obtain ⟨i, hi⟩ := Option.isSome_iff_exists.1 (AList.lookup_isSome.2 hn)
    exact countP_storageId (h n i hi).2
  noPart n hn := by
    obtain ⟨i, hi⟩ := Option.isSome_iff_exists.1 (AList.lookup_isSome.2 hn)
    exact (h n i hi).1

/-! ## Calls that place no blob -/

/-- A removal that is carried out removes the name and adds none. -/
theorem lookup_of_remove {d d' : Disk} {n : Bytes} (hd : d.sys (.remove n) = .ok d') {m : Bytes}
    {i : Nat} (hm : d'.dir.lookup m = some i) : m ≠ n ∧ d.dir.lookup m = some i := by
  simp only [Disk.sys] at hd
  split at hd <;> cases hd
  · rw [Disk.dir_push] at hm
    exact lookup_erase_eq_some hm
  · rename_i habsent
    refine ⟨?_, hm⟩
    rintro rfl
    rw [hm] at habsent
    exact habsent rfl

/-- `fs::remove` of a name that is not there is no error. -/
theorem sys_remove_ne_error {d : Disk} {n text : Bytes} : d.sys (.remove n) ≠ .error text := by
  intro hd
  simp only [Disk.sys] at hd
  split at hd <;> cases hd

/-- The call neither commits nor creates a name other than that of a temporary file. -/
def PlacesNothing : DiskCall → Prop
  | .sys c => c ≠ .commit ∧ ∀ m ∈ c.creates, isPart m = true
  | _ => True

namespace Placed

variable {except : Option Bytes} {d d' : Disk}

theorem congr (h : Placed except d) (hdir : d'.dir = d.dir) (hdb : d'.db = d.db) :
    Placed except d' := by
  rw [Placed, hdir, rowIds_congr hdb]
  exact h

theorem sys (h : Placed except d) {c : SysCall} (hcommit : c ≠ .commit)
    (hc : ∀ m ∈ c.creates, isPart m = true ∨ except = some m) (hd : d.sys c = .ok d') :
    Placed except d' := by
  rw [Placed, rowIds_congr (Disk.db_of_sys hcommit hd)]
  refine Entries.step h (fun m hm i => ?_) (fileStep_of_sys hd)
  exact (hc m hm).imp_right .inr

theorem placesNothing (h : Placed except d) {c : DiskCall} {fault : Fault} (hc : PlacesNothing c) :
    Placed except (Disk.act c fault d).2 := by
  cases c with
  | sys c =>
      cases fault with
      | some text => exact h
      | none =>
          simp only [Disk.act]
          cases hd : d.sys c with
          | ok d' => exact h.sys hc.1 (fun m hm => .inl (hc.2 m hm)) hd
          | error text => exact h
  | exist name => exact h
  | listDir => cases fault <;> exact h
  -- the row goes into the open transaction, not into the table
  | insert r =>
      cases fault with
      | some text => exact h
      | none =>
          simp only [Disk.act, Disk.insert]
          split
          · exact h
          · split
            · exact h.congr rfl rfl
            · exact h

/-- The excepted file is gone when it is removed. -/
theorem remove {n : Bytes} (h : Placed (some n) d) (hd : d.sys (.remove n) = .ok d') :
    Placed none d' := by
  intro m i hm
  obtain ⟨hne, hm⟩ := lookup_of_remove hd hm
  rw [rowIds_congr (Disk.db_of_sys (by simp) hd)]
  rcases h m i hm with hpart | hrow | heq
  · exact .inl hpart
  · exact .inr (.inl hrow)
  · exact absurd (Option.some.inj heq).symm hne

end Placed

/-! ## An upload -/

/-- The blob of an upload that fails can be removed. -/
def RemovesBlob (u : UploadCall) (_ : Disk) (c : DiskCall) (fault : Fault) : Prop :=
  c = .sys (.remove u.storageId) → fault = none

section Upload

variable {allowed : Disk → DiskCall → Fault → Prop} {n : Bytes} {d : Disk}

theorem wpc_placesNothing {α : Type} {x : Code α} (hx : x.All PlacesNothing) (h : Placed none d) :
    wpc Disk.act allowed (Placed (some n)) x (fun _ => Placed none) d :=
  wpc_weaken (wpc_of_all (fun _ _ _ hc _ hI => hI.placesNothing hc) hx h) fun _ hI => hI.mono n

theorem placesNothing_ignore {c : SysCall} (hc : PlacesNothing (.sys c)) :
    (Code.ignore c).All PlacesNothing :=
  all_bind ⟨hc, fun _ => trivial⟩ fun _ => trivial

theorem placesNothing_check {c : SysCall} {exn : Bytes → Exn} (hc : PlacesNothing (.sys c)) :
    (Code.check c exn).All PlacesNothing := by
  refine all_bind ⟨hc, fun _ => trivial⟩ fun failed => ?_
  cases failed <;> trivial

theorem placesNothing_remove (m : Bytes) : PlacesNothing (.sys (.remove m)) :=
  ⟨by simp, by simp [SysCall.creates]⟩

theorem placesNothing_checkOrRemove {c : SysCall} {m : Bytes} {exn : Bytes → Exn}
    (hc : PlacesNothing (.sys c)) : (Code.checkOrRemove c m exn).All PlacesNothing := by
  refine all_bind ⟨hc, fun _ => trivial⟩ fun failed => ?_
  cases failed with
  | none => trivial
  | some text => exact all_bind (placesNothing_ignore (placesNothing_remove m)) fun _ => trivial

theorem placesNothing_writeTmp (root s data : Bytes) :
    (writeTmp root (tmpName s) data).All PlacesNothing := by
  have hopen : PlacesNothing (.sys (.openTrunc (tmpName s))) := by
    refine ⟨by simp, fun m hm => ?_⟩
    cases hm
    exact isPart_tmpName s
  have hbytes : (writeBytes root (tmpName s) data).All PlacesNothing := by
    induction data with
    | nil => trivial
    | cons b data ih =>
        exact all_bind (placesNothing_checkOrRemove ⟨by simp, by simp [SysCall.creates]⟩) fun _ => ih
  refine all_bind (placesNothing_checkOrRemove hopen) fun _ => all_bind hbytes fun _ => ?_
  exact all_bind (placesNothing_checkOrRemove ⟨by simp, by simp [SysCall.creates]⟩) fun _ =>
    placesNothing_checkOrRemove ⟨by simp, by simp [SysCall.creates]⟩

theorem placesNothing_fsyncTmp (root tmp : Bytes) :
    (tryCatch (fsyncFile root tmp) fun e => do
      Code.ignore (.remove tmp)
      throw e).All PlacesNothing := by
  refine all_tryCatch (all_bind ?_ fun _ => ?_) fun e => ?_
  · exact placesNothing_check ⟨by simp, by simp [SysCall.creates]⟩
  · exact placesNothing_check ⟨by simp, by simp [SysCall.creates]⟩
  · exact all_bind (placesNothing_ignore (placesNothing_remove tmp)) fun _ => trivial

theorem placesNothing_removeExisting (dst : Bytes) : (removeExisting dst).All PlacesNothing := by
  refine all_bind ⟨trivial, fun _ => trivial⟩ fun there => ?_
  split
  · exact placesNothing_ignore (placesNothing_remove dst)
  · trivial

/-- The blob is in place after the write, and no blob is if the write failed. -/
def PlacedResult (n : Bytes) : Except Exn Unit → Disk → Prop
  | .ok _, d => Placed (some n) d
  | .error _, d => Placed none d

/-- Only the rename puts the blob in place. -/
theorem wpc_rename {tmp : Bytes} {exn : Bytes → Exn} (h : Placed none d) :
    wpc Disk.act allowed (Placed (some n)) (Code.checkOrRemove (.rename tmp n) tmp exn)
      (PlacedResult n) d := by
  -- a rename that fails takes the temporary file with it
  have hfail : ∀ text, wpc Disk.act allowed (Placed (some n))
      (do Code.ignore (.remove tmp); throw (exn text)) (PlacedResult n) d := by
    intro text
    have hremove := placesNothing_ignore (placesNothing_remove tmp)
    refine wpc_bind (wpc_mono (wpc_placesNothing hremove h) ?_)
    rintro (e | _) d' hI h'
    · exact h'
    · exact wpc_throw hI h'
  refine wpc_bind (wpc_ask (h.mono n) fun fault _ => ?_)
  cases fault with
  | some text => exact ⟨h.mono n, hfail text⟩
  | none =>
      simp only [Disk.act]
      cases hd : d.sys (.rename tmp n) with
      | error text => exact ⟨h.mono n, hfail text⟩
      | ok d' =>
          have h' : Placed (some n) d' := by
            refine (h.mono n).sys (by simp) (fun m hm => .inr ?_) hd
            cases hm
            rfl
          exact ⟨h', wpc_pure h' h'⟩

/-- A part of the write before the rename, then the rest. -/
theorem wpc_placesNothing_bind {x : Code Unit} {k : Unit → Code Unit} (hx : x.All PlacesNothing)
    (h : Placed none d) (hk : ∀ d', Placed none d' →
      wpc Disk.act allowed (Placed (some n)) (k ()) (PlacedResult n) d') :
    wpc Disk.act allowed (Placed (some n)) (x >>= k) (PlacedResult n) d := by
  refine wpc_bind (wpc_mono (wpc_placesNothing hx h) ?_)
  rintro (e | _) d' - h'
  · exact h'
  · exact hk d' h'

theorem wpc_stagedWrite_placed (root data : Bytes) (h : Placed none d) :
    wpc Disk.act allowed (Placed (some n)) (stagedWrite root n data) (PlacedResult n) d := by
  have hrefuse : ∀ e : Exn,
      wpc Disk.act allowed (Placed (some n)) (throw e) (PlacedResult n) d :=
    fun e => wpc_throw (h.mono n) h
  refine wpc_ite (fun _ => hrefuse _) fun _ => wpc_ite (fun _ => hrefuse _) fun _ =>
    wpc_ite (fun _ => hrefuse _) fun _ => ?_
  -- up to the rename only the temporary name is used
  refine wpc_placesNothing_bind (placesNothing_writeTmp root n data) h fun d₁ h₁ => ?_
  refine wpc_placesNothing_bind (placesNothing_fsyncTmp root (tmpName n)) h₁ fun d₂ h₂ => ?_
  refine wpc_placesNothing_bind (placesNothing_removeExisting n) h₂ fun d₃ h₃ => ?_
  refine wpc_bind (wpc_mono (wpc_rename h₃) ?_)
  rintro (e | _) d₄ - h₄
  · exact h₄
  · -- the sync of the directory, whether it succeeds or not
    have hsync : PlacesNothing (.sys .fsyncDir) := ⟨by simp, by simp [SysCall.creates]⟩
    refine wpc_bind (wpc_ask h₄ fun fault _ => ?_)
    have h₅ : Placed (some n) (Disk.act (.sys .fsyncDir) fault d₄).2 := h₄.placesNothing hsync
    exact ⟨h₅, wpc_pure h₅ h₅⟩

/-- `removeStaged` takes the blob away, unless the removal fails. -/
theorem wpc_removeStaged_placed {u : UploadCall} (h : Placed (some u.storageId) d) :
    wpc Disk.act (RemovesBlob u) (Placed (some u.storageId)) (removeStaged u.storageId)
      (fun _ => Placed none) d := by
  -- the second removal, from whatever the first one left
  have hblob : ∀ d₁, Placed (some u.storageId) d₁ →
      wpc Disk.act (RemovesBlob u) (Placed (some u.storageId))
        (Code.ignore (.remove u.storageId)) (fun _ => Placed none) d₁ := by
    intro d₁ h₁
    refine wpc_bind (wpc_ask h₁ fun fault hfault => ?_)
    rw [hfault rfl]
    simp only [Disk.act]
    cases hd : d₁.sys (.remove u.storageId) with
    | ok d₂ => exact ⟨(h₁.remove hd).mono _, wpc_pure ((h₁.remove hd).mono _) (h₁.remove hd)⟩
    | error text => exact absurd hd sys_remove_ne_error
  refine wpc_ite (fun hempty => absurd hempty u.storageId_ne_nil) fun _ => ?_
  refine wpc_bind (wpc_bind (wpc_ask h fun fault _ => ?_))
  have h₁ : Placed (some u.storageId) (Disk.act (.sys (.remove (tmpName u.storageId))) fault d).2 :=
    h.placesNothing (placesNothing_remove _)
  exact ⟨h₁, wpc_pure h₁ (hblob _ h₁)⟩

/-- The commit turns the blob in place into the blob of a record. -/
theorem Placed.commit {u : UploadCall} {t : SqliteFileRepository}
    (h : Placed (some u.storageId) d) (ht : t.rows = d.db.rows ++ [u.row]) :
    Placed none { d with db := t, tx := none } := by
  have hids : rowIds { d with db := t, tx := none } = rowIds d ++ [u.storageId] := by
    rw [rowIds, rowIds, ht, List.map_append, List.map_singleton, storageId_toRecord_row]
  intro m i hm
  rw [hids, List.mem_append, List.mem_singleton]
  rcases h m i hm with hpart | hrow | heq
  · exact .inl hpart
  · exact .inr (.inl (.inl hrow))
  · -- the excepted file is the blob of the new row
    exact .inr (.inl (.inr (Option.some.inj heq).symm))

/-- An upload that ends leaves temporary files and blobs of records. -/
theorem wpc_storeUpload_placed (root : Bytes) {u : UploadCall} (h : Placed none d) :
    wpc Disk.act (RemovesBlob u) (Placed (some u.storageId))
      (Code.storeUpload root u.record u.blob) (fun _ => Placed none) d := by
  refine wpc_bind (wpc_mono (wpc_stagedWrite_placed root u.blob h) ?_)
  rintro (e | _) d₁ - h₁
  · exact h₁
  · -- the handler removes what the write has left
    refine wpc_tryCatch (wpc_mono (wpc_save (fun _ h => h) (fun _ h => h.mono _)
      (fun _ _ h => h.congr rfl rfl) (fun _ _ h ht => h.commit ht) h₁) ?_)
    rintro r d₂ - (⟨e, rfl, h₂⟩ | ⟨rfl, h₂⟩)
    · refine wpc_bind (wpc_mono (wpc_removeStaged_placed h₂) ?_)
      rintro (e' | _) d₃ hI h₃
      · exact h₃
      · exact wpc_throw hI h₃
    · exact h₂

end Upload

/-! ## The sweeper -/

/-- The root can be listed, and what the sweeper removes goes away. -/
def SweepsAll (_ : Disk) (c : DiskCall) (fault : Fault) : Prop :=
  (c = .listDir ∨ ∃ n, c = .sys (.remove n)) → fault = none

/-- Temporary files are among the given names. -/
def PartsIn (names : List Bytes) (d : Disk) : Prop :=
  Entries (fun n _ => isPart n = true → n ∈ names) d.dir

theorem wpc_sweepEntries {names : List Bytes} {d : Disk} (h : Placed none d)
    (hparts : PartsIn names d) :
    wpc Disk.act SweepsAll (Placed none) (sweepEntries names)
      (fun _ d' => Placed none d' ∧ PartsIn [] d') d := by
  -- the names still to come hold every temporary file that is left
  induction names generalizing d with
  | nil => exact wpc_pure h ⟨h, hparts⟩
  | cons name names ih =>
      refine wpc_ite (fun _ => ?_) fun hpart => ?_
      · refine wpc_bind (wpc_ask h fun fault hfault => ?_)
        rw [hfault (.inr ⟨name, rfl⟩)]
        simp only [Disk.act]
        cases hd : d.sys (.remove name) with
        | error text => exact absurd hd sys_remove_ne_error
        | ok d' =>
            have h' : Placed none d' := h.sys (by simp) (by simp [SysCall.creates]) hd
            have hparts' : PartsIn names d' := by
              intro m i hm hpart
              obtain ⟨hne, hm⟩ := lookup_of_remove hd hm
              exact List.mem_of_ne_of_mem hne (hparts m i hm hpart)
            refine ⟨h', wpc_bind (wpc_mono (ih h' hparts') ?_)⟩
            rintro (e | count) d'' hI hpost
            · exact hpost
            · exact wpc_pure hI hpost
      · -- a name that the loop passes over is no temporary file
        refine ih h fun m i hm hm' => ?_
        rcases List.mem_cons.1 (hparts m i hm hm') with rfl | hmem
        · exact absurd hm' hpart
        · exact hmem

theorem wpc_boot_swept {d : Disk} (h : Placed none d) :
    wpc Disk.act SweepsAll (Placed none) CrashMachine.boot (fun _ => Swept) d := by
  -- without temporary files, only blobs of records are left
  have hswept : ∀ d', Placed none d' → PartsIn [] d' → Swept d' := by
    intro d' h' hparts n i hn
    have hpart : isPart n = false := by
      cases hp : isPart n with
      | false => rfl
      | true => exact absurd (hparts n i hn hp) (by simp)
    rcases h' n i hn with hp | hrow | hnone
    · rw [hpart] at hp
      cases hp
    · exact ⟨hpart, hrow⟩
    · cases hnone
  have hsweep : wpc Disk.act SweepsAll (Placed none) sweepOrphans (fun _ => Swept) d := by
    refine wpc_bind (wpc_ask h fun fault hfault => ?_)
    rw [hfault (.inl rfl)]
    -- the listing names every file there is
    have hkeys : PartsIn d.dir.keys d := fun n i hn _ =>
      AList.mem_keys.2 (AList.lookup_isSome.1 (by rw [hn]; rfl))
    refine ⟨h, wpc_bind (wpc_mono (wpc_sweepEntries h hkeys) ?_)⟩
    rintro (e | count) d' hI ⟨h', hparts⟩
    · exact hswept d' h' hparts
    refine wpc_ite (fun _ => ?_) fun _ => wpc_pure hI (hswept d' h' hparts)
    refine wpc_bind (wpc_bind (wpc_ask hI fun fault _ => ?_))
    have hsync : PlacesNothing (.sys .fsyncDir) := ⟨by simp, by simp [SysCall.creates]⟩
    have hdir : (Disk.act (.sys .fsyncDir) fault d').2.dir = d'.dir := by
      cases fault <;> rfl
    have h'' : Placed none (Disk.act (.sys .fsyncDir) fault d').2 := h'.placesNothing hsync
    have hparts' : PartsIn [] (Disk.act (.sys .fsyncDir) fault d').2 := by
      rw [PartsIn, hdir]
      exact hparts
    exact ⟨h'', wpc_pure h'' (wpc_pure h'' (hswept _ h'' hparts'))⟩
  refine wpc_tryCatch (wpc_bind (wpc_mono hsweep ?_))
  rintro (e | count) d' hI hpost
  · exact wpc_pure hI hpost
  · exact wpc_pure hI hpost

/-! ## Every run -/

/-- No kill hits an upload whose blob is in place and whose record is not committed, the blob of an
upload that fails can be removed, and the sweeper can list the root and remove what it finds. -/
structure CleanStep (t : Transition CrashMachine CrashEvent Unit) : Prop where
  kill : t.input = .kill → ∀ u, t.before.current = some u →
    u.storageId ∈ t.before.disk.dir → u.row ∈ t.before.disk.db.rows
  upload : ∀ u, t.before.current = some u →
    t.before.running.next? = some (.sys (.remove u.storageId)) → ∀ text, t.input ≠ .call (some text)
  sweep : t.before.current = none →
    (t.before.running.next? = some .listDir ∨ ∃ n, t.before.running.next? = some (.sys (.remove n))) →
      ∀ text, t.input ≠ .call (some text)

/-- The process may be killed, but the machine does not lose power. -/
def KillsOnly (events : List CrashEvent) : Prop := ∀ l, .powerLoss l ∉ events

/-- The code that runs leaves no orphans behind when it ends. -/
def CleanRun (m : CrashMachine) : Prop :=
  match m.current with
  | some u =>
      wpc Disk.act (RemovesBlob u) (Placed (some u.storageId)) m.running (fun _ => Placed none) m.disk
  | none => wpc Disk.act SweepsAll (Placed none) m.running (fun _ => Swept) m.disk

namespace CleanRun

variable {root : Bytes} {m : CrashMachine}

/-- Between two uploads every file is a temporary one or the blob of a record. -/
theorem placed_of_idle (h : CleanRun m) (hidle : m.Idle) : Placed none m.disk := by
  unfold CleanRun at h
  unfold CrashMachine.Idle at hidle
  cases hrun : m.running with
  | call c k =>
      rw [hrun] at hidle
      cases hidle
  -- the code has ended, and its postcondition holds now
  | done r =>
      rw [hrun] at h
      split at h
      · exact h.2
      · exact h.1

theorem kill (h : CleanRun m)
    (hclean : CleanStep (.of (CrashMachine.step root) m .kill)) :
    CleanRun (CrashMachine.step root m .kill).2 := by
  have hplaced : Placed none m.disk := by
    unfold CleanRun at h
    cases hcurrent : m.current with
    | none =>
        rw [hcurrent] at h
        exact h.here
    | some u =>
        rw [hcurrent] at h
        intro n i hn
        rcases h.here n i hn with hpart | hrow | heq
        · exact .inl hpart
        · exact .inr (.inl hrow)
        · -- the blob of the upload is in place, so its record is committed
          obtain rfl := Option.some.inj heq
          have hmem : u.storageId ∈ m.disk.dir := AList.lookup_isSome.1 (by rw [hn]; rfl)
          have hrow : u.row ∈ m.disk.db.rows := hclean.kill rfl u hcurrent hmem
          refine .inr (.inl ?_)
          rw [← storageId_toRecord_row]
          exact List.mem_map_of_mem hrow
  exact wpc_boot_swept (hplaced.congr rfl rfl)

theorem call (h : CleanRun m) {fault : Fault}
    (hclean : CleanStep (.of (CrashMachine.step root) m (.call fault))) :
    CleanRun (m.callNext fault) := by
  unfold CrashMachine.callNext
  split
  · exact h
  · rename_i c k hrun
    have hnext : m.running.next? = some c := by rw [hrun]; rfl
    unfold CleanRun at h ⊢
    rw [hrun] at h
    cases hcurrent : m.current with
    | none =>
        rw [hcurrent] at h
        -- the sweeper runs: the faults that `CleanStep` excludes are those `SweepsAll` does
        refine h.2 fault fun hc => ?_
        cases fault with
        | none => rfl
        | some text =>
            refine absurd rfl (hclean.sweep hcurrent ?_ text)
            rcases hc with rfl | ⟨n, rfl⟩
            · exact .inl hnext
            · exact .inr ⟨n, hnext⟩
    | some u =>
        rw [hcurrent] at h
        refine h.2 fault fun hc => ?_
        cases fault with
        | none => rfl
        | some text => exact absurd rfl (hclean.upload u hcurrent (hc ▸ hnext) text)

theorem upload (h : CleanRun m) (u : UploadCall) :
    CleanRun (CrashMachine.step root m (.upload u)).2 := by
  simp only [CrashMachine.step]
  split
  · exact wpc_storeUpload_placed root (h.placed_of_idle ‹_›)
  · exact h

end CleanRun

theorem cleanRun_after (root : Bytes) (events : List CrashEvent) (hkills : KillsOnly events)
    (hclean : ∀ t ∈ trace (CrashMachine.step root) .first events, CleanStep t) :
    CleanRun (CrashMachine.after root events) := by
  induction events using List.reverseRecOn with
  | nil =>
      have hempty : Placed none Disk.empty := fun n i hn => by cases hn
      exact wpc_boot_swept hempty
  | append_singleton events e ih =>
      rw [trace_concat] at hclean
      have h := ih (fun l hl => hkills l (List.mem_append_left _ hl)) fun t ht =>
        hclean t (List.mem_append_left _ ht)
      have hlast := hclean _ (List.mem_append_right _ List.mem_cons_self)
      have hafter : CrashMachine.after root (events ++ [e]) =
          (CrashMachine.step root (CrashMachine.after root events) e).2 := final_concat events e
      rw [hafter]
      cases e with
      | upload u => exact h.upload u
      | call fault => exact h.call hlast
      | kill => exact h.kill hlast
      | powerLoss l => exact absurd (List.mem_append_right _ List.mem_cons_self) (hkills l)

/-- Uploads and kills in any order: when the sweeper has run after a start, the root holds the
blobs of the records and nothing else. -/
theorem no_orphans_after_sweep (root : Bytes) (events : List CrashEvent) (hkills : KillsOnly events)
    (hclean : ∀ t ∈ trace (CrashMachine.step root) .first events, CleanStep t)
    (hboot : (CrashMachine.after root events).current = none)
    (hidle : (CrashMachine.after root events).Idle) :
    NoOrphans (CrashMachine.after root events).disk := by
  have h := cleanRun_after root events hkills hclean
  unfold CleanRun at h
  rw [hboot] at h
  unfold CrashMachine.Idle at hidle
  cases hrun : (CrashMachine.after root events).running with
  | call c k =>
      rw [hrun] at hidle
      cases hidle
  | done r =>
      rw [hrun] at h
      exact h.2.noOrphans

/-- The process is killed between the rename and the commit. -/
def killedEvents : List CrashEvent := renamedEvents ++ callsOk 1 ++ [.kill] ++ callsOk 1

set_option maxRecDepth 100000 in
theorem orphan_after_kill :
    KillsOnly killedEvents ∧
      (CrashMachine.after (ascii "./storage/encrypted") killedEvents).current = none ∧
      (CrashMachine.after (ascii "./storage/encrypted") killedEvents).Idle ∧
      ¬ NoOrphans (CrashMachine.after (ascii "./storage/encrypted") killedEvents).disk := by
  refine ⟨?_, by decide +kernel, by decide +kernel, fun h => ?_⟩
  · intro l hl
    simp [killedEvents, renamedEvents, callsOk] at hl
  · have hfile : smallUpload.storageId ∈
        (CrashMachine.after (ascii "./storage/encrypted") killedEvents).disk.dir := by
      decide +kernel
    have hrows : (CrashMachine.after (ascii "./storage/encrypted") killedEvents).disk.db.rows =
        [] := by
      decide +kernel
    have hone := h.blob _ hfile
    rw [hrows] at hone
    cases hone

/-- A kill while the temporary file is written, and one after the commit of a second try. -/
def retriedEvents : List CrashEvent :=
  callsOk 1 ++ [.upload smallUpload] ++ callsOk 3 ++ [.kill] ++ callsOk 3 ++
    [.upload { smallUpload with storage := Env.counting.randomId 4 }] ++ callsOk 15 ++ [.kill] ++ callsOk 1

/-- The condition on kills, as a check on one transition. -/
def killIsClean (t : Transition CrashMachine CrashEvent Unit) : Bool :=
  match t.input, t.before.current with
  | .kill, some u =>
      !decide (u.storageId ∈ t.before.disk.dir) || decide (u.row ∈ t.before.disk.db.rows)
  | _, _ => true

theorem cleanStep_of_noFaults {events : List CrashEvent} {root : Bytes}
    (hfaults : ∀ text, .call (some text) ∉ events)
    (hkills : ∀ t ∈ trace (CrashMachine.step root) .first events, killIsClean t = true) :
    ∀ t ∈ trace (CrashMachine.step root) .first events, CleanStep t := by
  intro t ht
  have hinput : ∀ text, t.input ≠ .call (some text) := fun text heq =>
    hfaults text (heq ▸ input_mem_of_mem_trace ht)
  refine ⟨fun hkill u hu hmem => ?_, fun _ _ _ => hinput, fun _ _ => hinput⟩
  have hcheck := hkills t ht
  simp only [killIsClean, hkill, hu, hmem, decide_true, Bool.not_true, Bool.false_or,
    decide_eq_true_eq] at hcheck
  exact hcheck

set_option maxRecDepth 100000 in
theorem no_orphans_after_sweep_retry :
    (CrashMachine.after (ascii "./storage/encrypted") retriedEvents).disk.db.rows.length = 1 ∧
      NoOrphans (CrashMachine.after (ascii "./storage/encrypted") retriedEvents).disk := by
  have hkills : ∀ t ∈ trace (CrashMachine.step (ascii "./storage/encrypted")) .first retriedEvents,
      killIsClean t = true := List.all_eq_true.1 (by decide +kernel)
  refine ⟨by decide +kernel, no_orphans_after_sweep _ _ ?_ (cleanStep_of_noFaults ?_ hkills)
    (by decide +kernel) (by decide +kernel)⟩
  · intro l hl
    simp [retriedEvents, callsOk] at hl
  · intro text htext
    simp [retriedEvents, callsOk] at htext

end SecureFileTransfer
