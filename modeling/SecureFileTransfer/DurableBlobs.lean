import SecureFileTransfer.StorageSteps

/-!
# DurableBlobs — the blob of a committed record outlives every crash

A blob is settled when its directory entry and its content are on the medium and nothing pending
touches either.  No call on other names and no crash unsettles it; an upload settles its blob
before it commits, provided that the fsync of the directory goes through.
-/

namespace SecureFileTransfer

open Calls Runs StdString BinaryFileStorage

/-- The name stands for the file, and no other name does. -/
structure Solo (dir : Table Nat) (n : Bytes) (i : Nat) : Prop where
  here : dir.lookup n = some i
  only : ∀ m, dir.lookup m = some i → m = n

theorem Solo.insert {dir : Table Nat} {n m : Bytes} {i j : Nat} (h : Solo dir n i) (hm : m ≠ n)
    (hj : j ≠ i) : Solo (dir.insert m j) n i where
  here := by rw [Table.lookup_insert_eq, if_neg hm.symm, h.here]
  only := by
    intro k hk
    rw [Table.lookup_insert_eq] at hk
    split at hk
    · exact absurd (Option.some.inj hk) hj
    · exact h.only k hk

theorem Solo.erase {dir : Table Nat} {n m : Bytes} {i : Nat} (h : Solo dir n i) (hm : m ≠ n) :
    Solo (dir.erase m) n i where
  here := by rw [AList.lookup_erase_ne hm.symm, h.here]
  only k hk := h.only k (lookup_erase_eq_some hk).2

theorem Solo.apply {dir : Table Nat} {n : Bytes} {i : Nat} {op : DirOp} (h : Solo dir n i)
    (hop : op.Spares n i) : Solo (op.apply dir) n i := by
  cases op with
  | link m j => exact h.insert hop.1 hop.2
  | unlink m => exact h.erase hop
  | rename src dst j => exact (h.erase hop.1).insert hop.2.1 hop.2.2

theorem Solo.applyAll {dir : Table Nat} {n : Bytes} {i : Nat} {ops : List DirOp}
    (h : Solo dir n i) (hops : ∀ op ∈ ops, op.Spares n i) :
    Solo (ops.foldl DirOp.apply dir) n i :=
  List.foldlRecOn (motive := fun dir => Solo dir n i) ops DirOp.apply h fun _ hdir op hop =>
    hdir.apply (hops op hop)

/-! ## Settled blobs -/

/-- The file under the name and what it holds are on the medium, and no pending change touches
them. -/
structure Settled (d : Disk) (n data : Bytes) (i : Nat) : Prop where
  solo : Solo d.durable n i
  content : d.inode i = ⟨data, true⟩
  old : i < d.next
  pending : ∀ op ∈ d.pending, op.Spares n i

namespace Settled

variable {d d' : Disk} {n data : Bytes} {i : Nat}

theorem dir (h : Settled d n data i) : Solo d.dir n i := h.solo.applyAll h.pending

/-- The file of another name is another file. -/
theorem ne_of_lookup (h : Settled d n data i) {m : Bytes} {j : Nat} (hm : m ≠ n)
    (hj : d.dir.lookup m = some j) : j ≠ i := by
  rintro rfl
  exact hm (h.dir.only m hj)

theorem push (h : Settled d n data i) {op : DirOp} (hop : op.Spares n i) :
    Settled (d.push op) n data i where
  solo := h.solo
  content := h.content
  old := h.old
  pending := by
    intro op' hop'
    rcases List.mem_append.1 hop' with hold | hnew
    · exact h.pending op' hold
    · rwa [List.mem_singleton.1 hnew]

theorem setInode (h : Settled d n data i) {j : Nat} {f : Inode} (hj : j ≠ i) :
    Settled (d.setInode j f) n data i where
  solo := h.solo
  content := by
    show Function.update d.inode j f i = _
    rw [Function.update_of_ne hj.symm, h.content]
  old := h.old
  pending := h.pending

/-- The blob does not depend on the database. -/
theorem congr (h : Settled d n data i) (durable : d'.durable = d.durable)
    (pending : d'.pending = d.pending) (inode : d'.inode = d.inode) (next : d'.next = d.next) :
    Settled d' n data i where
  solo := durable ▸ h.solo
  content := inode ▸ h.content
  old := next ▸ h.old
  pending := pending ▸ h.pending

/-- Whatever part of the pending changes a loss of power keeps, it does not touch the blob. -/
theorem lose (h : Settled d n data i) (l : Loss) : Settled (d.lose l) n data i where
  solo := h.solo.applyAll fun op hop => h.pending op (Disk.mem_of_mem_keptOps hop)
  content := by
    -- what was synced is not replaced by garbage
    show (if (d.inode i).synced then d.inode i else _) = _
    rw [h.content]
    rfl
  old := h.old
  pending op hop := by cases hop

theorem create (h : Settled d n data i) {m : Bytes} (hm : m ≠ n) :
    Settled (d.create m) n data i := by
  -- the new file takes the next number, which no file on the medium has
  have hnext : d.next ≠ i := Nat.ne_of_gt h.old
  have hroom : Settled { d with next := d.next + 1 } n data i :=
    ⟨h.solo, h.content, Nat.lt_succ_of_lt h.old, h.pending⟩
  exact (hroom.setInode hnext).push ⟨hm, hnext⟩

/-- A call on other names leaves the blob settled. -/
theorem step (h : Settled d n data i) {c : SysCall} (hc : c.Avoids n) (hd : FileStep d c d') :
    Settled d' n data i := by
  cases hd with
  | kept durable pending inode next => exact h.congr durable pending inode next
  | created absent => exact h.create hc
  | wrote f writes present =>
      exact h.setInode (h.ne_of_lookup (SysCall.ne_of_writes hc writes) present)
  | removed => exact h.push hc
  | renamed present => exact h.push ⟨hc.1, hc.2, h.ne_of_lookup hc.1 present⟩
  -- the pending changes become the directory on the medium; all of them spare the blob
  | synced => exact ⟨h.dir, h.content, h.old, by intro op hop; cases hop⟩

end Settled

/-- The names an upload uses. -/
def NameOf (us : List UploadCall) (n : Bytes) : Prop :=
  ∃ u ∈ us, n = tmpName u.storageId ∨ n = u.storageId

/-- Every entry, on the medium or pending, is a file that exists, under the name of an upload. -/
structure Known (us : List UploadCall) (d : Disk) : Prop where
  durable : Entries (fun n i => NameOf us n ∧ i < d.next) d.durable
  pending : ∀ op ∈ d.pending, ∀ e ∈ op.links, NameOf us e.1 ∧ e.2 < d.next

namespace Known

variable {us : List UploadCall} {d d' : Disk}

theorem dir (h : Known us d) : Entries (fun n i => NameOf us n ∧ i < d.next) d.dir :=
  h.durable.applyAll h.pending

theorem mono {us' : List UploadCall} (h : Known us d) (hus : us ⊆ us') : Known us' d := by
  have hname : ∀ n, NameOf us n → NameOf us' n := fun n ⟨u, hu, hn⟩ => ⟨u, hus hu, hn⟩
  exact ⟨fun n i hn => ⟨hname n (h.durable n i hn).1, (h.durable n i hn).2⟩,
    fun op hop e he => ⟨hname _ (h.pending op hop e he).1, (h.pending op hop e he).2⟩⟩

theorem push (h : Known us d) {op : DirOp} (hop : ∀ e ∈ op.links, NameOf us e.1 ∧ e.2 < d.next) :
    Known us (d.push op) where
  durable := h.durable
  pending := by
    intro op' hop'
    rcases List.mem_append.1 hop' with hold | hnew
    · exact h.pending op' hold
    · rwa [List.mem_singleton.1 hnew]

theorem congr (h : Known us d) (durable : d'.durable = d.durable)
    (pending : d'.pending = d.pending) (next : d.next ≤ d'.next) : Known us d' where
  durable := by
    rw [durable]
    exact fun n i hn => ⟨(h.durable n i hn).1, (h.durable n i hn).2.trans_le next⟩
  pending := by
    rw [pending]
    exact fun op hop e he => ⟨(h.pending op hop e he).1, (h.pending op hop e he).2.trans_le next⟩

theorem lose (h : Known us d) (l : Loss) : Known us (d.lose l) where
  durable := h.durable.applyAll fun op hop => h.pending op (Disk.mem_of_mem_keptOps hop)
  pending op hop := by cases hop

/-- A call that creates no name of its own keeps the names known. -/
theorem step (h : Known us d) {c : SysCall} (hc : ∀ m ∈ c.creates, NameOf us m)
    (hd : FileStep d c d') : Known us d' := by
  cases hd with
  | kept durable pending inode next => exact h.congr durable pending next.ge
  | created absent =>
      -- the number of the new file is the old `next`, so `next` moves past it first
      have hroom : Known us ({ d with next := d.next + 1 }.setInode d.next ⟨[], false⟩) :=
        h.congr rfl rfl (Nat.le_succ _)
      refine hroom.push fun e he => ?_
      cases he
      exact ⟨hc _ rfl, Nat.lt_succ_self _⟩
  | wrote f writes present => exact h.congr rfl rfl le_rfl
  | removed => exact h.push fun e he => by cases he
  | renamed present =>
      refine h.push fun e he => ?_
      cases he
      exact ⟨hc _ rfl, (h.dir _ _ present).2⟩
  | synced => exact ⟨h.dir, by intro op hop; cases hop⟩

/-- The file that is created next has no name yet. -/
theorem lookup_ne_next (h : Known us d) (n : Bytes) : d.dir.lookup n ≠ some d.next := fun hn =>
  Nat.lt_irrefl _ (h.dir n d.next hn).2

/-- Storage ids are not reused, so the temporary name of a new upload is free. -/
theorem lookup_tmpName (h : Known us d) {u : UploadCall}
    (hfresh : ∀ v ∈ us, v.storageId ≠ u.storageId) : d.dir.lookup (tmpName u.storageId) = none := by
  rw [Option.eq_none_iff_forall_ne_some]
  intro i hi
  obtain ⟨⟨v, hv, htmp | hdst⟩, -⟩ := h.dir _ _ hi
  · exact hfresh v hv (tmpName_injective htmp).symm
  · -- a storage id ends in `.bin`, never in `.part`
    exact tmpName_ne_storageId _ v hdst

end Known

/-! ## What a crash finds -/

/-- Every committed record is that of an upload whose blob is settled. -/
def RecordsSettled (us : List UploadCall) (d : Disk) : Prop :=
  ∀ row ∈ d.db.rows, ∃ u ∈ us, row = u.row ∧ ∃ i, Settled d u.storageId u.blob i

/-- The condition that holds at every point of a run. -/
structure CrashSafe (us : List UploadCall) (d : Disk) : Prop where
  known : Known us d
  records : RecordsSettled us d

theorem RecordsSettled.mono {us us' : List UploadCall} {d : Disk} (h : RecordsSettled us d) (hus : us ⊆ us') :
    RecordsSettled us' d := by
  intro row hrow
  obtain ⟨u, hu, hsettled⟩ := h row hrow
  exact ⟨u, hus hu, hsettled⟩

/-- What keeps the rows and the settled blobs of their uploads keeps the records. -/
theorem RecordsSettled.congr {us : List UploadCall} {d d' : Disk} (h : RecordsSettled us d) (hdb : d'.db = d.db)
    (hsettled : ∀ u ∈ us, ∀ i, Settled d u.storageId u.blob i → Settled d' u.storageId u.blob i) :
    RecordsSettled us d' := by
  intro row hrow
  rw [hdb] at hrow
  obtain ⟨u, hu, hueq, i, hi⟩ := h row hrow
  exact ⟨u, hu, hueq, i, hsettled u hu i hi⟩

namespace CrashSafe

variable {us : List UploadCall} {d d' : Disk}

theorem kill (h : CrashSafe us d) : CrashSafe us d.kill where
  known := h.known.congr rfl rfl le_rfl
  records := h.records.congr rfl fun _ _ _ hi => hi.congr rfl rfl rfl rfl

theorem lose (h : CrashSafe us d) (l : Loss) : CrashSafe us (d.lose l) where
  known := h.known.lose l
  records := h.records.congr rfl fun _ _ _ hi => hi.lose l

end CrashSafe

theorem crashSafe_empty : CrashSafe [] Disk.empty where
  known :=
    { durable := by
        intro n i hn
        cases hn
      pending := by
        intro op hop
        cases hop }
  records := by
    intro row hrow
    cases hrow

/-! ## The calls of an upload -/

/-- The calls an upload makes before it commits. -/
def SysCall.Of (s : Bytes) : SysCall → Prop
  | .openTrunc m => m = tmpName s
  | .append m _ => m = tmpName s
  | .flush m => m = tmpName s
  | .close m => m = tmpName s
  | .openFile m => m = tmpName s
  | .fsync m => m = tmpName s
  | .remove m => m = tmpName s ∨ m = s
  | .rename src dst => src = tmpName s ∧ dst = s
  | .commit => False
  | _ => True

/-- The fsync of the directory goes through. -/
def SyncsDir (_ : Disk) (c : DiskCall) (fault : Fault) : Prop := c = .sys .fsyncDir → fault = none

/-- While upload `u` is on its way, `us` are the uploads before it. -/
structure Uploading (us : List UploadCall) (u : UploadCall) (d : Disk) : Prop where
  known : Known (us ++ [u]) d
  records : RecordsSettled us d
  fresh : ∀ v ∈ us, v.storageId ≠ u.storageId

namespace Uploading

variable {us : List UploadCall} {u : UploadCall} {d d' : Disk}

theorem crashSafe (h : Uploading us u d) : CrashSafe (us ++ [u]) d :=
  ⟨h.known, h.records.mono (List.subset_append_left us [u])⟩

theorem avoids (h : Uploading us u d) {c : SysCall} (hc : c.Of u.storageId) {v : UploadCall}
    (hv : v ∈ us) : c.Avoids v.storageId := by
  have htmp := tmpName_ne_storageId u.storageId v
  have hne : u.storageId ≠ v.storageId := (h.fresh v hv).symm
  cases c with
  | openTrunc m | append m byte | fsync m =>
      obtain rfl : m = tmpName u.storageId := hc
      exact htmp
  | remove m =>
      obtain rfl | rfl : m = tmpName u.storageId ∨ m = u.storageId := hc
      · exact htmp
      · exact hne
  | rename src dst =>
      obtain ⟨rfl, rfl⟩ : src = tmpName u.storageId ∧ dst = u.storageId := hc
      exact ⟨htmp, hne⟩
  | flush m | close m | openFile m | fsyncDir | beginImmediate | prepare | commit | rollback =>
      trivial

theorem nameOf_creates {c : SysCall} (hc : c.Of u.storageId) :
    ∀ m ∈ c.creates, NameOf (us ++ [u]) m := by
  intro m hm
  refine ⟨u, by simp, ?_⟩
  cases c <;> cases hm
  · exact .inl hc
  · exact .inr hc.2

theorem sys (h : Uploading us u d) {c : SysCall} (hc : c.Of u.storageId)
    (hd : d.sys c = .ok d') : Uploading us u d' := by
  have hstep := fileStep_of_sys hd
  have hcommit : c ≠ .commit := by
    rintro rfl
    exact hc
  exact ⟨h.known.step (nameOf_creates hc) hstep,
    h.records.congr (Disk.db_of_sys hcommit hd) fun v hv i hi => hi.step (h.avoids hc hv) hstep, h.fresh⟩

end Uploading

section Rules

variable {us : List UploadCall} {u : UploadCall} {d : Disk}

/-- A call of the upload is carried out, or it fails and changes nothing. -/
theorem wpc_sysCall (h : Uploading us u d) {c : SysCall} (hc : c.Of u.storageId)
    {Q : Except Exn (Option Bytes) → Disk → Prop}
    (hok : ∀ d', d.sys c = .ok d' → Uploading us u d' → Q (.ok none) d')
    (hfail : c ≠ .fsyncDir → ∀ text, Q (.ok (some text)) d) :
    wpc Disk.act SyncsDir (CrashSafe (us ++ [u])) (Code.sysCall c) Q d := by
  refine wpc_ask h.crashSafe fun fault hfault => ?_
  cases fault with
  | some text =>
      -- this fault is one that `SyncsDir` excludes for the directory
      have hne : c ≠ .fsyncDir := by
        rintro rfl
        cases hfault rfl
      exact ⟨h.crashSafe, hfail hne text⟩
  | none =>
      simp only [Disk.act]
      cases hd : d.sys c with
      | ok d' => exact ⟨(h.sys hc hd).crashSafe, hok d' hd (h.sys hc hd)⟩
      | error text =>
          have hne : c ≠ .fsyncDir := by
            rintro rfl
            cases hd
          exact ⟨h.crashSafe, hfail hne text⟩

theorem wpc_ignore (h : Uploading us u d) {c : SysCall} (hc : c.Of u.storageId)
    {Q : Except Exn Unit → Disk → Prop}
    (hok : ∀ d', d.sys c = .ok d' → Uploading us u d' → Q (.ok ()) d')
    (hfail : c ≠ .fsyncDir → Q (.ok ()) d) :
    wpc Disk.act SyncsDir (CrashSafe (us ++ [u])) (Code.ignore c) Q d := by
  refine wpc_bind (wpc_sysCall h hc (fun d' hd hup => ?_) fun hne text => ?_)
  · exact wpc_pure hup.crashSafe (hok d' hd hup)
  · exact wpc_pure h.crashSafe (hfail hne)

theorem wpc_check (h : Uploading us u d) {c : SysCall} (hc : c.Of u.storageId) {exn : Bytes → Exn}
    {Q : Except Exn Unit → Disk → Prop}
    (hok : ∀ d', d.sys c = .ok d' → Uploading us u d' → Q (.ok ()) d')
    (hfail : ∀ e, Q (.error e) d) :
    wpc Disk.act SyncsDir (CrashSafe (us ++ [u])) (Code.check c exn) Q d := by
  refine wpc_bind (wpc_sysCall h hc (fun d' hd hup => ?_) fun _ text => ?_)
  · exact wpc_pure hup.crashSafe (hok d' hd hup)
  · exact wpc_throw h.crashSafe (hfail _)

theorem wpc_checkOrRemove (h : Uploading us u d) {c : SysCall} (hc : c.Of u.storageId)
    {exn : Bytes → Exn} {Q : Except Exn Unit → Disk → Prop}
    (hok : ∀ d', d.sys c = .ok d' → Uploading us u d' → Q (.ok ()) d')
    (hfail : ∀ e d', Uploading us u d' → Q (.error e) d') :
    wpc Disk.act SyncsDir (CrashSafe (us ++ [u]))
      (Code.checkOrRemove c (tmpName u.storageId) exn) Q d := by
  have hremove : (SysCall.remove (tmpName u.storageId)).Of u.storageId := Or.inl rfl
  refine wpc_bind (wpc_sysCall h hc (fun d' hd hup => ?_) fun _ text => ?_)
  · exact wpc_pure hup.crashSafe (hok d' hd hup)
  · refine wpc_bind (wpc_ignore h hremove (fun d' _ hup => ?_) fun _ => ?_)
    · exact wpc_throw hup.crashSafe (hfail _ d' hup)
    · exact wpc_throw h.crashSafe (hfail _ d h)

end Rules

/-! ## From the first byte to the commit -/

/-- The file under the name, and no other name, holds the bytes. -/
def Holds (d : Disk) (n data : Bytes) (synced : Bool) : Prop :=
  ∃ i, Solo d.dir n i ∧ d.inode i = ⟨data, synced⟩ ∧ i < d.next

/-- A blob in place whose directory has been synced is settled. -/
theorem Holds.settled {d : Disk} {n data : Bytes} (h : Holds d n data true) :
    ∃ i, Settled { d with durable := d.dir, pending := [] } n data i := by
  obtain ⟨i, hsolo, hdata, hi⟩ := h
  exact ⟨i, hsolo, hdata, hi, fun op hop => by cases hop⟩

section Stages

variable {us : List UploadCall} {u : UploadCall} {d d' : Disk}

theorem holds_of_openTrunc (h : Uploading us u d) (hfree : d.dir.lookup (tmpName u.storageId) = none)
    (hd : d.sys (.openTrunc (tmpName u.storageId)) = .ok d') :
    Holds d' (tmpName u.storageId) [] false := by
  simp only [Disk.sys, hfree] at hd
  cases hd
  -- the name is free, so the file is a new one that no name leads to yet
  refine ⟨d.next, ⟨?_, fun m hm => ?_⟩, ?_, Nat.lt_succ_self _⟩
  · rw [Disk.dir_push]
    exact AList.lookup_insert _
  · rw [Disk.dir_push, DirOp.apply, Table.lookup_insert_eq] at hm
    split at hm
    · assumption
    · exact absurd hm (h.known.lookup_ne_next m)
  · exact Function.update_self d.next _ d.inode

theorem holds_of_append {n data : Bytes} {byte : UInt8} (h : Holds d n data false)
    (hd : d.sys (.append n byte) = .ok d') : Holds d' n (data ++ [byte]) false := by
  obtain ⟨i, hsolo, hdata, hi⟩ := h
  simp only [Disk.sys, hsolo.here, hdata] at hd
  cases hd
  exact ⟨i, hsolo, Function.update_self i _ d.inode, hi⟩

theorem holds_of_fsync {n data : Bytes} (h : Holds d n data false)
    (hd : d.sys (.fsync n) = .ok d') : Holds d' n data true := by
  obtain ⟨i, hsolo, hdata, hi⟩ := h
  simp only [Disk.sys, hsolo.here, hdata] at hd
  cases hd
  exact ⟨i, hsolo, Function.update_self i _ d.inode, hi⟩

theorem holds_of_remove {n m data : Bytes} {synced : Bool} (h : Holds d n data synced) (hm : m ≠ n)
    (hd : d.sys (.remove m) = .ok d') : Holds d' n data synced := by
  obtain ⟨i, hsolo, hdata, hi⟩ := h
  simp only [Disk.sys] at hd
  split at hd <;> cases hd
  · exact ⟨i, by rw [Disk.dir_push]; exact hsolo.erase hm, hdata, hi⟩
  · exact ⟨i, hsolo, hdata, hi⟩

theorem holds_of_rename {src dst data : Bytes} {synced : Bool} (h : Holds d src data synced)
    (hd : d.sys (.rename src dst) = .ok d') : Holds d' dst data synced := by
  obtain ⟨i, hsolo, hdata, hi⟩ := h
  simp only [Disk.sys, hsolo.here] at hd
  cases hd
  refine ⟨i, ⟨?_, fun m hm => ?_⟩, hdata, hi⟩
  · rw [Disk.dir_push]
    exact AList.lookup_insert _
  · rw [Disk.dir_push, DirOp.apply, Table.lookup_insert_eq] at hm
    split at hm
    · assumption
    -- the only other name of the file was the one it had
    · obtain ⟨hne, hm⟩ := lookup_erase_eq_some hm
      exact absurd (hsolo.only m hm) hne

variable (root : Bytes)

theorem wpc_writeBytes {written : Bytes} (data : Bytes) (h : Uploading us u d)
    (hholds : Holds d (tmpName u.storageId) written false) :
    wpc Disk.act SyncsDir (CrashSafe (us ++ [u]))
      (writeBytes root (tmpName u.storageId) data)
      (fun r d' => Uploading us u d' ∧
        (r = .ok () → Holds d' (tmpName u.storageId) (written ++ data) false)) d := by
  -- induction on the bytes still to write; `written` are those already in the file, and a byte
  -- that cannot be written removes the temporary file and ends the loop
  induction data generalizing d written with
  | nil => exact wpc_pure h.crashSafe ⟨h, fun _ => by simpa using hholds⟩
  | cons byte data ih =>
      have hcall : (SysCall.append (tmpName u.storageId) byte).Of u.storageId := rfl
      refine wpc_bind (wpc_checkOrRemove h hcall (fun d' hd hup => ?_) fun e d' hup => ?_)
      · have hrest := ih hup (holds_of_append hholds hd)
        simpa using hrest
      · exact ⟨hup, fun h => by cases h⟩

theorem wpc_writeTmp (data : Bytes) (h : Uploading us u d)
    (hfree : d.dir.lookup (tmpName u.storageId) = none) :
    wpc Disk.act SyncsDir (CrashSafe (us ++ [u])) (writeTmp root (tmpName u.storageId) data)
      (fun r d' => Uploading us u d' ∧
        (r = .ok () → Holds d' (tmpName u.storageId) data false)) d := by
  have hopen : (SysCall.openTrunc (tmpName u.storageId)).Of u.storageId := rfl
  have hflush : (SysCall.flush (tmpName u.storageId)).Of u.storageId := rfl
  have hclose : (SysCall.close (tmpName u.storageId)).Of u.storageId := rfl
  refine wpc_bind (wpc_checkOrRemove h hopen (fun d₁ hd₁ h₁ => ?_) fun e d' hup => ?_)
  · refine wpc_bind (wpc_mono (wpc_writeBytes root data h₁ (holds_of_openTrunc h hfree hd₁)) ?_)
    rintro (e | _) d₂ - ⟨h₂, hholds⟩
    · exact ⟨h₂, fun h => by cases h⟩
    refine wpc_bind (wpc_checkOrRemove h₂ hflush (fun d₃ hd₃ h₃ => ?_) fun e d' hup => ?_)
    · refine wpc_checkOrRemove h₃ hclose (fun d₄ hd₄ h₄ => ?_) fun e d' hup => ?_
      · -- `flush` and `close` leave the disk as it is
        cases hd₃
        cases hd₄
        exact ⟨h₄, fun _ => by simpa using hholds rfl⟩
      · exact ⟨hup, fun h => by cases h⟩
    · exact ⟨hup, fun h => by cases h⟩
  · exact ⟨hup, fun h => by cases h⟩

/-- `fsyncFile`, with the removal of the file when it throws. -/
theorem wpc_fsyncTmp {data : Bytes} (h : Uploading us u d)
    (hholds : Holds d (tmpName u.storageId) data false) :
    wpc Disk.act SyncsDir (CrashSafe (us ++ [u]))
      (tryCatch (fsyncFile root (tmpName u.storageId)) fun e => do
        Code.ignore (.remove (tmpName u.storageId))
        throw e)
      (fun r d' => Uploading us u d' ∧
        (r = .ok () → Holds d' (tmpName u.storageId) data true)) d := by
  have hopen : (SysCall.openFile (tmpName u.storageId)).Of u.storageId := rfl
  have hfsync : (SysCall.fsync (tmpName u.storageId)).Of u.storageId := rfl
  have hremove : (SysCall.remove (tmpName u.storageId)).Of u.storageId := Or.inl rfl
  -- what the handler leaves, whichever of the two calls failed
  have hhandler : ∀ (e : Exn) (d' : Disk), Uploading us u d' →
      wpc Disk.act SyncsDir (CrashSafe (us ++ [u]))
        (do Code.ignore (.remove (tmpName u.storageId)); throw e)
        (fun r d'' => Uploading us u d'' ∧
          (r = .ok () → Holds d'' (tmpName u.storageId) data true)) d' := by
    intro e d' hup
    refine wpc_bind (wpc_ignore hup hremove (fun d'' _ hup' => ?_) fun _ => ?_)
    · exact wpc_throw hup'.crashSafe ⟨hup', fun h => by cases h⟩
    · exact wpc_throw hup.crashSafe ⟨hup, fun h => by cases h⟩
  refine wpc_tryCatch (wpc_bind (wpc_check h hopen (fun d₁ hd₁ h₁ => ?_) fun e => hhandler e d h))
  -- opening the file for its fsync changes nothing
  have hsame : d₁ = d := by
    simp only [Disk.sys] at hd₁
    split at hd₁ <;> cases hd₁
    rfl
  subst hsame
  refine wpc_check h₁ hfsync (fun d₂ hd₂ h₂ => ?_) fun e => hhandler e d₁ h₁
  exact ⟨h₂, fun _ => holds_of_fsync hholds hd₂⟩

theorem wpc_removeExisting {data : Bytes} (h : Uploading us u d)
    (hholds : Holds d (tmpName u.storageId) data true) :
    wpc Disk.act SyncsDir (CrashSafe (us ++ [u])) (removeExisting u.storageId)
      (fun r d' => r = .ok () ∧ Uploading us u d' ∧ Holds d' (tmpName u.storageId) data true) d := by
  have hremove : (SysCall.remove u.storageId).Of u.storageId := Or.inr rfl
  refine wpc_ask_bind h.crashSafe fun fault _ => wpc_ite (fun _ => ?_) fun _ => ?_
  · refine wpc_ignore h hremove (fun d' hd hup => ?_) fun _ => ?_
    · exact ⟨rfl, hup, holds_of_remove hholds (tmpName_ne_storageId _ u).symm hd⟩
    · exact ⟨rfl, h, hholds⟩
  · exact wpc_pure h.crashSafe ⟨rfl, h, hholds⟩

/-- A staged write that returns has settled the blob. -/
theorem wpc_stagedWrite (data : Bytes) (h : Uploading us u d)
    (hfree : d.dir.lookup (tmpName u.storageId) = none) :
    wpc Disk.act SyncsDir (CrashSafe (us ++ [u])) (stagedWrite root u.storageId data)
      (fun r d' => Uploading us u d' ∧
        (r = .ok () → ∃ i, Settled d' u.storageId data i)) d := by
  have hrename : (SysCall.rename (tmpName u.storageId) u.storageId).Of u.storageId := ⟨rfl, rfl⟩
  have hrefuse : ∀ e : Exn, wpc Disk.act SyncsDir (CrashSafe (us ++ [u])) (throw e)
      (fun r d' => Uploading us u d' ∧ (r = .ok () → ∃ i, Settled d' u.storageId data i)) d :=
    fun e => wpc_throw h.crashSafe ⟨h, fun h => by cases h⟩
  refine wpc_ite (fun _ => hrefuse _) fun _ => wpc_ite (fun _ => hrefuse _) fun _ =>
    wpc_ite (fun _ => hrefuse _) fun _ => ?_
  -- the temporary file is filled, then synced, then moved over the old blob if there is one
  refine wpc_bind (wpc_mono (wpc_writeTmp root data h hfree) ?_)
  rintro (e | _) d₁ - ⟨h₁, hholds₁⟩
  · exact ⟨h₁, fun h => by cases h⟩
  refine wpc_bind (wpc_mono (wpc_fsyncTmp root h₁ (hholds₁ rfl)) ?_)
  rintro (e | _) d₂ - ⟨h₂, hholds₂⟩
  · exact ⟨h₂, fun h => by cases h⟩
  refine wpc_bind (wpc_mono (wpc_removeExisting h₂ (hholds₂ rfl)) ?_)
  rintro (e | _) d₃ - ⟨hr, h₃, hholds₃⟩
  · cases hr
  refine wpc_bind (wpc_checkOrRemove h₃ hrename (fun d₄ hd₄ h₄ => ?_) fun e d' hup => ?_)
  · -- the one call that must not fail
    have hsync : SysCall.fsyncDir.Of u.storageId := trivial
    refine wpc_ignore h₄ hsync (fun d₅ hd₅ h₅ => ?_) fun hne => absurd rfl hne
    cases hd₅
    exact ⟨h₅, fun _ => (holds_of_rename hholds₃ hd₄).settled⟩
  · exact ⟨hup, fun h => by cases h⟩

end Stages

/-- `removeStaged` in the handler of `upload`. -/
theorem wpc_removeStaged {us : List UploadCall} {u : UploadCall} {d : Disk}
    (h : Uploading us u d) :
    wpc Disk.act SyncsDir (CrashSafe (us ++ [u])) (removeStaged u.storageId)
      (fun _ d' => Uploading us u d') d := by
  have htmp : (SysCall.remove (tmpName u.storageId)).Of u.storageId := Or.inl rfl
  have hdst : (SysCall.remove u.storageId).Of u.storageId := Or.inr rfl
  have hlast : ∀ d', Uploading us u d' →
      wpc Disk.act SyncsDir (CrashSafe (us ++ [u])) (Code.ignore (.remove u.storageId))
        (fun _ d'' => Uploading us u d'') d' :=
    fun d' hup => wpc_ignore hup hdst (fun _ _ hup' => hup') fun _ => hup
  refine wpc_ite (fun _ => wpc_pure h.crashSafe h) fun _ => ?_
  exact wpc_bind (wpc_ignore h htmp (fun d' _ hup => hlast d' hup) fun _ => hlast d h)

section Upload

variable {us : List UploadCall} {u : UploadCall} {d : Disk}

/-- The upload is done with its files. -/
structure Staged (us : List UploadCall) (u : UploadCall) (d : Disk) : Prop
    extends Uploading us u d where
  settled : ∃ i, Settled d u.storageId u.blob i

/-- The transaction does not touch the files. -/
theorem Staged.withTx (h : Staged us u d) (t : Option SqliteFileRepository) :
    Staged us u { d with tx := t } := by
  obtain ⟨i, hi⟩ := h.settled
  exact
    { known := h.known.congr rfl rfl le_rfl
      records := h.records.congr rfl fun _ _ _ hj => hj.congr rfl rfl rfl rfl
      fresh := h.fresh
      settled := ⟨i, hi.congr rfl rfl rfl rfl⟩ }

/-- The row that is committed is that of the upload, whose blob is settled. -/
theorem Staged.commit {t : SqliteFileRepository} (h : Staged us u d)
    (ht : t.rows = d.db.rows ++ [u.row]) :
    CrashSafe (us ++ [u]) { d with db := t, tx := none } where
  known := h.known.congr rfl rfl le_rfl
  records := by
    intro row hrow
    have hrow' : row ∈ d.db.rows ++ [u.row] := ht ▸ hrow
    rcases List.mem_append.1 hrow' with hold | hnew
    · -- a record from before: the commit changes no file
      obtain ⟨v, hv, hveq, i, hi⟩ := h.records row hold
      exact ⟨v, List.mem_append_left _ hv, hveq, i, hi.congr rfl rfl rfl rfl⟩
    · obtain ⟨i, hi⟩ := h.settled
      exact ⟨u, by simp, List.mem_singleton.1 hnew, i, hi.congr rfl rfl rfl rfl⟩

/-- An upload leaves the disk safe at every point and when it ends, however it ends. -/
theorem wpc_storeUpload (root : Bytes) (h : Uploading us u d)
    (hfree : d.dir.lookup (tmpName u.storageId) = none) :
    wpc Disk.act SyncsDir (CrashSafe (us ++ [u])) (Code.storeUpload root u.record u.blob)
      (fun _ => CrashSafe (us ++ [u])) d := by
  refine wpc_bind (wpc_mono (wpc_stagedWrite root u.blob h hfree) ?_)
  rintro (e | _) d₁ - ⟨h₁, hsettled⟩
  · exact h₁.crashSafe
  -- from here to the commit no call touches a file
  have hstaged : Staged us u d₁ := { h₁ with settled := hsettled rfl }
  refine wpc_tryCatch (wpc_mono (wpc_save (fun _ h => h.crashSafe) (fun _ h => h)
    (fun _ t h => h.withTx t) (fun _ _ h ht => h.commit ht) hstaged) ?_)
  rintro r d₂ - (⟨e, rfl, h₂⟩ | ⟨rfl, hsafe⟩)
  · -- no row was added, so the blob may go again
    refine wpc_bind (wpc_mono (wpc_removeStaged h₂.toUploading) ?_)
    rintro (e' | _) d₃ - h₃
    · exact h₃.crashSafe
    · exact wpc_throw h₃.crashSafe h₃.crashSafe
  · exact hsafe

end Upload

/-! ## The boot sweeper -/

/-- The calls the sweeper makes. -/
def Sweeps : DiskCall → Prop
  | .sys (.remove name) => isPart name = true
  | .sys .fsyncDir => True
  | .listDir => True
  | _ => False

/-- The loop removes `.part` names only, by induction on the entries. -/
theorem sweeps_sweepEntries (names : List Bytes) : (sweepEntries names).All Sweeps := by
  induction names with
  | nil => trivial
  | cons name names ih =>
      rw [sweepEntries]
      split
      · exact all_bind ⟨‹_›, fun _ => trivial⟩ fun failed => all_bind ih fun count => trivial
      · exact ih

theorem sweeps_sweepOrphans : sweepOrphans.All Sweeps := by
  refine all_bind ⟨trivial, fun _ => trivial⟩ fun names => ?_
  cases names with
  | none => trivial
  | some names =>
      refine all_bind (sweeps_sweepEntries names) fun count => ?_
      split
      · exact all_bind (all_bind ⟨trivial, fun _ => trivial⟩ fun _ => trivial) fun _ => trivial
      · trivial

theorem sweeps_boot : CrashMachine.boot.All Sweeps :=
  all_tryCatch (all_bind sweeps_sweepOrphans fun _ => trivial) fun _ => trivial

/-- The sweeper removes no blob of a record. -/
theorem CrashSafe.sweep {us : List UploadCall} {d : Disk} {c : DiskCall} {fault : Fault}
    (h : CrashSafe us d) (hc : Sweeps c) : CrashSafe us (Disk.act c fault d).2 := by
  cases c with
  | sys c =>
      have hkeep : ∀ d', d.sys c = .ok d' → c ≠ .commit → c.creates = none →
          (∀ v ∈ us, c.Avoids v.storageId) → CrashSafe us d' := by
        intro d' hd hcommit hcreates havoids
        have hstep := fileStep_of_sys hd
        exact ⟨h.known.step (by simp [hcreates]) hstep,
          h.records.congr (Disk.db_of_sys hcommit hd) fun v hv i hi => hi.step (havoids v hv) hstep⟩
      cases fault with
      | some text => exact h
      | none =>
          simp only [Disk.act]
          cases hd : d.sys c with
          | error text => exact h
          | ok d' =>
              cases c with
              | remove name =>
                  exact hkeep d' hd (by simp) rfl fun v _ => ne_storageId_of_isPart hc v
              | fsyncDir => exact hkeep d' hd (by simp) rfl fun v _ => trivial
              | _ => cases hc
  | exist name => exact h
  | listDir => cases fault <;> exact h
  | insert r => cases hc

theorem wpc_boot {us : List UploadCall} {d : Disk} (h : CrashSafe us d)
    {allowed : Disk → DiskCall → Fault → Prop} :
    wpc Disk.act allowed (CrashSafe us) CrashMachine.boot (fun _ => CrashSafe us) d :=
  wpc_of_all (fun _ _ _ hc _ hI => hI.sweep hc) sweeps_boot h

/-! ## Every run -/

/-- The faults of the run: those that the fsync of the directory may not have in an upload. -/
def UploadFaults (m : CrashMachine) : Disk → DiskCall → Fault → Prop :=
  if m.current.isSome then SyncsDir else fun _ _ _ => True

/-- The code that runs keeps the disk safe, wherever it is stopped. -/
def SafeRun (events : List CrashEvent) (m : CrashMachine) : Prop :=
  ∃ us, us ⊆ uploadsOf events ∧
    wpc Disk.act (UploadFaults m) (CrashSafe us) m.running (fun _ => CrashSafe us) m.disk

/-- In an upload, the fsync of the directory goes through. -/
def SyncsOnUpload (t : Transition CrashMachine CrashEvent Unit) : Prop :=
  t.before.current.isSome → t.before.running.next? = some (.sys .fsyncDir) →
    ∀ text, t.input ≠ .call (some text)

theorem uploadsOf_concat (events : List CrashEvent) (e : CrashEvent) :
    uploadsOf (events ++ [e]) = uploadsOf events ++ e.upload?.toList := by
  rw [uploadsOf, List.filterMap_append]
  cases h : e.upload? <;> simp [h, uploadsOf]

theorem mem_uploadsOf {events : List CrashEvent} {u : UploadCall} :
    u ∈ uploadsOf events ↔ .upload u ∈ events := by
  rw [uploadsOf, List.mem_filterMap]
  constructor
  · rintro ⟨e, he, heq⟩
    cases e <;> cases heq
    exact he
  · intro h
    exact ⟨_, h, rfl⟩

namespace SafeRun

variable {root : Bytes} {events : List CrashEvent} {m : CrashMachine}

theorem crashSafe (h : SafeRun events m) : ∃ us, us ⊆ uploadsOf events ∧ CrashSafe us m.disk := by
  obtain ⟨us, hus, hwpc⟩ := h
  exact ⟨us, hus, hwpc.here⟩

theorem restart (h : SafeRun events m) (e : CrashEvent) {d : Disk}
    (hd : ∀ us, CrashSafe us m.disk → CrashSafe us d) :
    SafeRun (events ++ [e]) ⟨d, none, CrashMachine.boot⟩ := by
  obtain ⟨us, hus, hsafe⟩ := h.crashSafe
  refine ⟨us, fun v hv => ?_, wpc_boot (hd us hsafe)⟩
  rw [uploadsOf_concat]
  exact List.mem_append_left _ (hus hv)

theorem call (h : SafeRun events m) {fault : Fault}
    (hsync : SyncsOnUpload (.of (CrashMachine.step root) m (.call fault))) :
    SafeRun (events ++ [.call fault]) (m.callNext fault) := by
  obtain ⟨us, hus, hwpc⟩ := h
  have huploads : uploadsOf (events ++ [.call fault]) = uploadsOf events := by
    rw [uploadsOf_concat]
    simp [CrashEvent.upload?]
  refine ⟨us, huploads ▸ hus, ?_⟩
  unfold CrashMachine.callNext
  split
  · exact hwpc
  · rename_i c k hrun
    rw [hrun] at hwpc
    refine hwpc.2 fault ?_
    unfold UploadFaults
    split
    · rintro rfl
      cases fault with
      | none => rfl
      | some text => exact absurd rfl (hsync ‹_› (by simp [Transition.of, hrun, next?]) text)
    · trivial

theorem upload (h : SafeRun events m) {u : UploadCall}
    (hfresh : ∀ v ∈ uploadsOf events, v.storageId ≠ u.storageId) :
    SafeRun (events ++ [.upload u]) (CrashMachine.step root m (.upload u)).2 := by
  have huploads : uploadsOf (events ++ [.upload u]) = uploadsOf events ++ [u] := uploadsOf_concat _ _
  obtain ⟨us, hus, hsafe⟩ := h.crashSafe
  rw [SafeRun, huploads]
  simp only [CrashMachine.step]
  split
  · have hfresh' : ∀ v ∈ us, v.storageId ≠ u.storageId := fun v hv => hfresh v (hus hv)
    refine ⟨us ++ [u], ?_, wpc_storeUpload root ⟨?_, hsafe.records, hfresh'⟩ ?_⟩
    · intro v hv
      rcases List.mem_append.1 hv with hold | hnew
      · exact List.mem_append_left _ (hus hold)
      · exact List.mem_append_right _ hnew
    · exact hsafe.known.mono (List.subset_append_left us [u])
    · exact hsafe.known.lookup_tmpName hfresh'
  · -- a busy process does not take the upload
    obtain ⟨us', hus', hwpc⟩ := h
    exact ⟨us', List.Subset.trans hus' (List.subset_append_left _ _), hwpc⟩

end SafeRun

theorem safeRun_after (root : Bytes) (events : List CrashEvent) (hfresh : FreshStorageIds events)
    (hsync : ∀ t ∈ trace (CrashMachine.step root) .first events, SyncsOnUpload t) :
    SafeRun events (CrashMachine.after root events) := by
  -- induction on the events, the last one taken off: `SafeRun` says what the rest of the running
  -- code will do, so the step lemmas need not know how far it is
  induction events using List.reverseRecOn with
  | nil => exact ⟨[], List.Subset.refl _, wpc_boot crashSafe_empty⟩
  | append_singleton events e ih =>
      rw [FreshStorageIds, uploadsOf_concat, List.map_append, List.nodup_append] at hfresh
      rw [trace_concat] at hsync
      have h := ih hfresh.1 fun t ht => hsync t (List.mem_append_left _ ht)
      have hafter : CrashMachine.after root (events ++ [e]) =
          (CrashMachine.step root (CrashMachine.after root events) e).2 := final_concat events e
      rw [hafter]
      cases e with
      | upload u =>
          refine h.upload fun v hv heq => ?_
          exact hfresh.2.2 v.storageId (List.mem_map_of_mem hv) u.storageId
            (by simp [CrashEvent.upload?]) heq
      | call fault => exact h.call (hsync _ (List.mem_append_right _ List.mem_cons_self))
      | kill => exact h.restart .kill fun us hsafe => hsafe.kill
      | powerLoss loss => exact h.restart (.powerLoss loss) fun us hsafe => hsafe.lose loss

/-- Every record of the `files` table is that of an upload, and `read` returns what was uploaded. -/
def RecordsReadable (events : List CrashEvent) (d : Disk) : Prop :=
  ∀ row ∈ d.db.rows, ∃ u, .upload u ∈ events ∧ row = FileRow.ofRecord u.record ∧
    BinaryFileStorage.read d row.toRecord.storageId = .ok u.args.opaqueBytes

theorem storageId_toRecord_row (u : UploadCall) : u.row.toRecord.storageId = u.storageId := by
  have hzero : (0 : UInt8) ∉ u.storageId := by
    rw [UploadCall.storageId, UploadCall.record, UploadArgs.record, List.mem_append, not_or]
    exact ⟨zero_not_mem_generateUserId _, by decide⟩
  exact cstr_of_not_mem hzero

theorem UploadCall.storageId_ne_nil (u : UploadCall) : u.storageId ≠ [] := by
  simp [UploadCall.storageId, UploadCall.record, UploadArgs.record, ascii]

theorem read_of_settled {d : Disk} {u : UploadCall} {i : Nat}
    (h : Settled d u.storageId u.blob i) : BinaryFileStorage.read d u.storageId = .ok u.blob := by
  rw [BinaryFileStorage.read, if_neg u.storageId_ne_nil, h.dir.here]
  simp only [h.content]

/-- Uploads, kills and losses of power in any order: every record reads back as it was uploaded.
Any call may fail too, the fsync of the directory in an upload apart: `fsyncDir` ignores its own
failure, and the record is then committed over a rename that may still be lost. -/
theorem records_survive_crashes (root : Bytes) (events : List CrashEvent)
    (hfresh : FreshStorageIds events)
    (hsync : ∀ t ∈ trace (CrashMachine.step root) .first events, SyncsOnUpload t) :
    RecordsReadable events (CrashMachine.after root events).disk := by
  intro row hrow
  obtain ⟨us, hus, hsafe⟩ := (safeRun_after root events hfresh hsync).crashSafe
  obtain ⟨u, hu, rfl, i, hi⟩ := hsafe.records row hrow
  refine ⟨u, mem_uploadsOf.1 (hus hu), rfl, ?_⟩
  rw [storageId_toRecord_row]
  exact read_of_settled hi

/-- An upload of three bytes. -/
def smallUpload : UploadCall where
  args :=
    { senderSess := ⟨ascii "sess_alice"⟩
      recipientUsername := ascii "bob"
      origName := ascii "a.pdf"
      opaqueBytes := [1, 2, 3]
      uploadId := ascii "u1"
      size := 3
      digest := zeroDigest
      wrapped := {} }
  fileId := Env.counting.randomId 2
  storage := Env.counting.randomId 3
  sender := generateUserId (Env.counting.randomId 0)
  recipient := generateUserId (Env.counting.randomId 1)
  now := 0

def callsOk (n : Nat) : List CrashEvent := List.replicate n (.call none)

/-- The first start, then an upload up to its rename. -/
def renamedEvents : List CrashEvent := callsOk 1 ++ [.upload smallUpload] ++ callsOk 10

/-- The rest of the upload, then a loss of power that keeps nothing it may lose. -/
def syncedEvents : List CrashEvent :=
  renamedEvents ++ callsOk 5 ++ [.powerLoss ⟨[], fun _ => []⟩] ++ callsOk 1

set_option maxRecDepth 100000 in
theorem records_survive_crashes_power_loss :
    smallUpload.row ∈ (CrashMachine.after (ascii "./storage/encrypted") syncedEvents).disk.db.rows ∧
      RecordsReadable syncedEvents
        (CrashMachine.after (ascii "./storage/encrypted") syncedEvents).disk := by
  refine ⟨by decide +kernel, records_survive_crashes _ _ ?_ fun t ht => ?_⟩
  · unfold FreshStorageIds
    decide +kernel
  · intro _ _ text heq
    have hmem := input_mem_of_mem_trace ht
    rw [heq] at hmem
    simp [syncedEvents, renamedEvents, callsOk] at hmem

end SecureFileTransfer
