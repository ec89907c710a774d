import SecureFileTransfer.Orphans

/-!
# StagedWrite — what a staged write does to the blobs

The storage root as the blobs under their names.  A call that is not about a blob's name leaves the
blob as it is, so a staged write is its steps on the temporary file, the removal of the old blob and
the rename.
-/

namespace SecureFileTransfer

open Calls StdString BinaryFileStorage

/-! ## Names and files -/

/-- A storage id of the form `TransferService` generates. -/
structure BinName (k : Bytes) : Prop where
  noSlash : (47 : UInt8) ∉ k
  noNul : (0 : UInt8) ∉ k
  noDots : (find k (ascii "..") 0).isSome = false
  suffix : (ascii ".bin").isSuffixOf k = true

instance (k : Bytes) : Decidable (BinName k) :=
  decidable_of_iff ((47 : UInt8) ∉ k ∧ (0 : UInt8) ∉ k ∧ (find k (ascii "..") 0).isSome = false ∧
      (ascii ".bin").isSuffixOf k = true)
    ⟨fun h => ⟨h.1, h.2.1, h.2.2.1, h.2.2.2⟩, fun h => ⟨h.noSlash, h.noNul, h.noDots, h.suffix⟩⟩

namespace BinName

variable {k : Bytes}

theorem ne_nil (h : BinName k) : k ≠ [] := by
  rintro rfl
  exact absurd h.suffix (by decide)

theorem not_isPart (h : BinName k) : isPart k = false := by
  rw [Bool.eq_false_iff]
  intro hpart
  obtain ⟨s, hs⟩ := List.isSuffixOf_iff_suffix.1 h.suffix
  obtain ⟨t, ht⟩ := List.isSuffixOf_iff_suffix.1 hpart
  -- the last letters differ: `n` and `t`
  have hlast := congrArg List.getLast? (hs.trans ht.symm)
  simp [ascii] at hlast

theorem ne_of_isPart (h : BinName k) {n : Bytes} (hn : isPart n = true) : n ≠ k := by
  rintro rfl
  rw [h.not_isPart] at hn
  cases hn

theorem ne_tmpName (h : BinName k) (s : Bytes) : tmpName s ≠ k := h.ne_of_isPart (isPart_tmpName s)

end BinName

namespace Disk

/-- Every file has one name, and its number has been given out. -/
structure Sound (d : Disk) : Prop where
  solo : ∀ n i, d.dir.lookup n = some i → Solo d.dir n i
  old : ∀ n i, d.dir.lookup n = some i → i < d.next

theorem Sound.step {d d' : Disk} {c : SysCall} (h : d.Sound) (hd : FileStep d c d') : d'.Sound := by
  have hpush : ∀ {d : Disk} {op : DirOp}, d.Sound →
      (∀ n i, (op.apply d.dir).lookup n = some i → Solo (op.apply d.dir) n i ∧ i < d.next) →
      (d.push op).Sound := by
    intro d op h hop
    rw [← dir_push] at hop
    exact ⟨fun n i hn => (hop n i hn).1, fun n i hn => (hop n i hn).2⟩
  cases hd with
  | kept durable pending inode next =>
      have hdir : d'.dir = d.dir := by rw [dir, durable, pending, ← dir]
      exact ⟨hdir ▸ h.solo, by rw [hdir, next]; exact h.old⟩
  | @created m absent =>
      -- the new file has a number that no name leads to yet
      have hdir : (d.create m).dir = d.dir.insert m d.next := dir_push _ _
      have hnew : ∀ n i, (d.dir.insert m d.next).lookup n = some i →
          Solo (d.dir.insert m d.next) n i ∧ i < d.next + 1 := by
        intro n i hn
        rw [Table.lookup_insert_eq] at hn
        split at hn
        · next heq =>
            cases hn
            subst heq
            refine ⟨⟨AList.lookup_insert _, fun k hk => ?_⟩, Nat.lt_succ_self _⟩
            rw [Table.lookup_insert_eq] at hk
            split at hk
            · assumption
            · exact absurd (h.old k _ hk) (Nat.lt_irrefl _)
        · next hne =>
            exact ⟨(h.solo n i hn).insert (Ne.symm hne) (Nat.ne_of_gt (h.old n i hn)),
              Nat.lt_succ_of_lt (h.old n i hn)⟩
      exact ⟨fun n i hn => hdir ▸ (hnew n i (hdir ▸ hn)).1, fun n i hn => (hnew n i (hdir ▸ hn)).2⟩
  | wrote f writes present => exact ⟨h.solo, h.old⟩
  | removed =>
      refine hpush h fun n i hn => ?_
      obtain ⟨hne, hn⟩ := lookup_erase_eq_some hn
      exact ⟨(h.solo n i hn).erase (Ne.symm hne), h.old n i hn⟩
  | @renamed src dst j present =>
      refine hpush h fun n i hn => ?_
      rw [DirOp.apply, Table.lookup_insert_eq] at hn
      split at hn
      · next heq =>
          cases hn
          subst heq
          refine ⟨⟨AList.lookup_insert _, fun k hk => ?_⟩, h.old src j present⟩
          rw [DirOp.apply, Table.lookup_insert_eq] at hk
          split at hk
          · assumption
          · obtain ⟨hne, hk⟩ := lookup_erase_eq_some hk
            exact absurd ((h.solo src j present).only k hk) hne
      · next hne =>
          obtain ⟨hsrc, hn⟩ := lookup_erase_eq_some hn
          have hij : j ≠ i := fun heq => hsrc ((h.solo src j present).only n (heq ▸ hn))
          exact ⟨((h.solo n i hn).erase (Ne.symm hsrc)).insert (Ne.symm hne) hij, h.old n i hn⟩
  | synced => exact ⟨h.solo, h.old⟩

/-- The file under the name is the same, with the same content. -/
structure SameFile (d d' : Disk) (k : Bytes) : Prop where
  entry : d'.dir.lookup k = d.dir.lookup k
  content : ∀ i, d.dir.lookup k = some i → (d'.inode i).data = (d.inode i).data

theorem SameFile.refl (d : Disk) (k : Bytes) : SameFile d d k := ⟨rfl, fun _ _ => rfl⟩

theorem SameFile.trans {d d' d'' : Disk} {k : Bytes} (h : SameFile d d' k) (h' : SameFile d' d'' k) :
    SameFile d d'' k :=
  ⟨h'.entry.trans h.entry, fun i hi => (h'.content i (h.entry.trans hi)).trans (h.content i hi)⟩

theorem SameFile.read {d d' : Disk} {k : Bytes} (h : SameFile d d' k) :
    BinaryFileStorage.read d' k = BinaryFileStorage.read d k := by
  rw [BinaryFileStorage.read, BinaryFileStorage.read, h.entry]
  cases hk : d.dir.lookup k with
  | none => rfl
  | some i =>
      simp only [h.content i hk]

/-- A call on other names leaves the file as it is. -/
theorem Sound.sameFile {d d' : Disk} {c : SysCall} {k : Bytes} (h : d.Sound) (hc : c.Avoids k)
    (hd : FileStep d c d') : SameFile d d' k := by
  cases hd with
  | kept durable pending inode next =>
      exact ⟨by rw [dir, durable, pending, ← dir], fun i _ => by rw [inode]⟩
  | @created m absent =>
      have hdir : (d.create m).dir = d.dir.insert m d.next := dir_push _ _
      refine ⟨by rw [hdir, AList.lookup_insert_ne (Ne.symm hc)], fun i hi => ?_⟩
      show (Function.update d.inode d.next _ i).data = _
      rw [Function.update_of_ne (Nat.ne_of_lt (h.old k i hi))]
  | @wrote c m j f writes present =>
      refine ⟨rfl, fun i hi => ?_⟩
      have hne : j ≠ i := fun heq =>
        SysCall.ne_of_writes hc writes ((h.solo k i hi).only m (heq ▸ present))
      show (Function.update d.inode j f i).data = _
      rw [Function.update_of_ne (Ne.symm hne)]
  | removed =>
      exact ⟨by rw [dir_push]; exact AList.lookup_erase_ne (Ne.symm hc), fun _ _ => rfl⟩
  | renamed present =>
      refine ⟨?_, fun _ _ => rfl⟩
      rw [dir_push, DirOp.apply, AList.lookup_insert_ne (Ne.symm hc.2),
        AList.lookup_erase_ne (Ne.symm hc.1)]
  | synced => exact ⟨rfl, fun _ _ => rfl⟩

/-- A removal takes the name away and nothing else. -/
theorem Sound.remove {d : Disk} (h : d.Sound) (n : Bytes) :
    ∃ d', d.sys (.remove n) = .ok d' ∧ d'.Sound ∧ d'.dir.lookup n = none ∧
      ∀ m, m ≠ n → SameFile d d' m := by
  cases hsys : d.sys (.remove n) with
  | error text => exact absurd hsys sys_remove_ne_error
  | ok d' =>
      have hstep := fileStep_of_sys hsys
      refine ⟨d', rfl, h.step hstep, ?_, fun m hm => h.sameFile (c := .remove n) (Ne.symm hm) hstep⟩
      rw [Option.eq_none_iff_forall_ne_some]
      exact fun i hi => (lookup_of_remove hsys hi).1 rfl

/-- Every blob is as it was. -/
def BlobsKept (d d' : Disk) : Prop := ∀ k, BinName k → SameFile d d' k

theorem BlobsKept.refl (d : Disk) : BlobsKept d d := fun k _ => .refl d k

theorem BlobsKept.trans {d d' d'' : Disk} (h : BlobsKept d d') (h' : BlobsKept d' d'') :
    BlobsKept d d'' :=
  fun k hk => (h k hk).trans (h' k hk)

end Disk

open Disk

/-- The call is about no blob. -/
def SparesBlobs : DiskCall → Prop
  | .sys c => ∀ k, BinName k → c.Avoids k
  | .exist _ => True
  | .listDir => True
  | .insert _ => False

theorem SparesBlobs.of_sweeps {c : DiskCall} (hc : Sweeps c) : SparesBlobs c := by
  cases c with
  | sys c =>
      cases c with
      | remove name => exact fun k hk => hk.ne_of_isPart hc
      | fsyncDir => exact fun _ _ => trivial
      | _ => cases hc
  | exist name => trivial
  | listDir => trivial
  | insert r => cases hc

section Spares

variable {d₀ d : Disk}

theorem kept_act {c : DiskCall} {fault : Fault} (hc : SparesBlobs c) (h : d.Sound)
    (hkept : BlobsKept d₀ d) :
    (Disk.act c fault d).2.Sound ∧ BlobsKept d₀ (Disk.act c fault d).2 := by
  cases c with
  | sys c =>
      cases fault with
      | some text => exact ⟨h, hkept⟩
      | none =>
          simp only [Disk.act]
          cases hd : d.sys c with
          | error text => exact ⟨h, hkept⟩
          | ok d' =>
              have hstep := fileStep_of_sys hd
              exact ⟨h.step hstep, hkept.trans fun k hk => h.sameFile (hc k hk) hstep⟩
  | exist name => exact ⟨h, hkept⟩
  | listDir => cases fault <;> exact ⟨h, hkept⟩
  | insert r => cases hc

/-- Code about no blob leaves them all as they are, wherever it is stopped. -/
theorem wpc_spares {α : Type} {x : Code α} (hx : x.All SparesBlobs) (h : d.Sound) :
    wpc Disk.act (fun _ _ _ => True) (fun d' => d'.Sound ∧ BlobsKept d d') x
      (fun _ d' => d'.Sound ∧ BlobsKept d d') d :=
  wpc_of_all (fun _ _ _ hc _ hI => kept_act hc hI.1 hI.2) hx ⟨h, .refl d⟩

theorem kept_stopped {α : Type} {x : Code α} (hx : x.All SparesBlobs) (h : d.Sound) (n : Nat)
    (faults : Nat → Fault) :
    (stopped Disk.act n x faults d).Sound ∧ BlobsKept d (stopped Disk.act n x faults d) :=
  (wpc_spares hx h).stopped (fun _ _ _ => trivial) n

theorem kept_exec {α : Type} {x : Code α} (hx : x.All SparesBlobs) (h : d.Sound)
    (faults : Nat → Fault) :
    (Calls.exec Disk.act x faults d).2.Sound ∧ BlobsKept d (Calls.exec Disk.act x faults d).2 :=
  ((wpc_spares hx h).exec fun _ _ _ => trivial).1

theorem spares_ignore {c : SysCall} (hc : SparesBlobs (.sys c)) : (Code.ignore c).All SparesBlobs :=
  all_bind ⟨hc, fun _ => trivial⟩ fun _ => trivial

theorem spares_checkOrRemove {c : SysCall} {m : Bytes} {exn : Bytes → Exn}
    (hc : SparesBlobs (.sys c)) (hm : SparesBlobs (.sys (.remove m))) :
    (Code.checkOrRemove c m exn).All SparesBlobs := by
  refine all_bind ⟨hc, fun _ => trivial⟩ fun answer => ?_
  cases answer with
  | none => trivial
  | some text => exact all_bind (spares_ignore hm) fun _ => trivial

end Spares

/-! ## The steps of a staged write -/

/-- A call with the exception its failure throws. -/
abbrev CheckedStep := SysCall × (Bytes → Exn)

/-- The steps one after the other; the first that fails removes the file and throws. -/
def checkedSteps (tmp : Bytes) : List CheckedStep → Code Unit
  | [] => pure ()
  | s :: ss => do
      Code.checkOrRemove s.1 tmp s.2
      checkedSteps tmp ss

theorem checkedSteps_append (tmp : Bytes) (ss ss' : List CheckedStep) :
    checkedSteps tmp (ss ++ ss') = checkedSteps tmp ss >>= fun _ => checkedSteps tmp ss' := by
  induction ss with
  | nil => rfl
  | cons s ss ih =>
      show Code.checkOrRemove s.1 tmp s.2 >>= (fun _ => checkedSteps tmp (ss ++ ss')) = _
      rw [ih]
      exact (Calls.bind_assoc _ _ _).symm

variable (root : Bytes)

/-- The steps that fill the temporary file and sync it. -/
def stagingSteps (id data : Bytes) : List CheckedStep :=
  let tmp := tmpName id
  [(.openTrunc tmp, storageExn root "open tmp failed: " tmp)] ++
    data.map (fun b => (.append tmp b, storageExn root "write tmp failed: " tmp)) ++
    [ (.flush tmp, storageExn root "flush tmp failed: " tmp),
      (.close tmp, storageExn root "close tmp failed: " tmp),
      (.openFile tmp, storageExn root "fsync open file failed: " tmp),
      (.fsync tmp, fun errno => ⟨.storage, ascii "fsync file failed: " ++ errno⟩) ]

@[simp] theorem length_stagingSteps (id data : Bytes) :
    (stagingSteps root id data).length = data.length + 5 := by
  simp [stagingSteps]

/-- The rename over the blob, and the fsync of the directory. -/
def moveOver (id : Bytes) : Code Unit := do
  Code.checkOrRemove (.rename (tmpName id) id) (tmpName id) fun text =>
    ⟨.storage, ascii "rename tmp->dst failed: " ++ text⟩
  fsyncDir

theorem writeBytes_eq (tmp data : Bytes) :
    writeBytes root tmp data = checkedSteps tmp
      (data.map fun b => (.append tmp b, storageExn root "write tmp failed: " tmp)) := by
  induction data with
  | nil => rfl
  | cons b data ih => rw [writeBytes, ih]; rfl

/-- `fsyncFile` in its handler is two more steps. -/
theorem fsyncTmp_eq (tmp : Bytes) :
    (tryCatch (fsyncFile root tmp) fun e => do
      Code.ignore (.remove tmp)
      throw e) =
      checkedSteps tmp
        [ (.openFile tmp, storageExn root "fsync open file failed: " tmp),
          (.fsync tmp, fun errno => ⟨.storage, ascii "fsync file failed: " ++ errno⟩) ] := by
  refine congrArg (Calls.call _) (funext fun answer => ?_)
  cases answer with
  | some text => rfl
  | none =>
      refine congrArg (Calls.call _) (funext fun answer => ?_)
      cases answer <;> rfl

/-- A staged write under a valid id: the steps on the temporary file, then the move. -/
theorem stagedWrite_eq {id : Bytes} (hid : BinName id) (data : Bytes) :
    stagedWrite root id data = checkedSteps (tmpName id) (stagingSteps root id data) >>= fun _ =>
      removeExisting id >>= fun _ => moveOver id := by
  rw [stagedWrite, if_neg hid.ne_nil, if_neg hid.noNul, if_neg (by rw [hid.noDots]; decide)]
  simp only [writeTmp, writeBytes_eq, fsyncTmp_eq, stagingSteps, checkedSteps_append, checkedSteps,
    moveOver, Calls.bind_assoc, Calls.pure_bind]

theorem moveOver_eq (id : Bytes) :
    moveOver id = Calls.call (.sys (.rename (tmpName id) id)) fun answer : Option Bytes =>
      match answer with
      | none => fsyncDir
      | some text => Calls.call (.sys (.remove (tmpName id))) fun _ =>
          .done (.error ⟨.storage, ascii "rename tmp->dst failed: " ++ text⟩) := by
  refine congrArg (Calls.call _) (funext fun answer : Option Bytes => ?_)
  cases answer <;> rfl

/-- What comes after the temporary file is filled. -/
theorem finish_eq (id : Bytes) :
    (removeExisting id >>= fun _ => moveOver id) = Calls.call (.exist id) fun there : Bool =>
      match there with
      | true => Calls.call (.sys (.remove id)) fun _ => moveOver id
      | false => moveOver id := by
  refine congrArg (Calls.call _) (funext fun there : Bool => ?_)
  cases there <;> rfl

/-! ## How far the steps get -/

section Steps

variable {tmp : Bytes} {ss : List CheckedStep} {faults : Nat → Fault} {d d' : Disk}

/-- The disk once all steps have been carried out. -/
def carriedOut (ss : List CheckedStep) (d : Disk) : Except Bytes Disk :=
  ss.foldlM (fun d s => d.sys s.1) d

/-- One step is one call; when it fails, the removal of the file is the last call. -/
theorem checkedSteps_cons (s : CheckedStep) :
    checkedSteps tmp (s :: ss) = Calls.call (.sys s.1) fun answer : Option Bytes =>
      match answer with
      | none => checkedSteps tmp ss
      | some text => Calls.call (.sys (.remove tmp)) fun _ => .done (.error (s.2 text)) := by
  refine congrArg (Calls.call _) (funext fun answer : Option Bytes => ?_)
  cases answer <;> rfl

theorem exec_checkedSteps_cons (s : CheckedStep) :
    Calls.exec Disk.act (checkedSteps tmp (s :: ss)) faults d =
        (match Disk.act (.sys s.1) (faults 0) d with
        | (none, d₁) => Calls.exec Disk.act (checkedSteps tmp ss) (fun i => faults (i + 1)) d₁
        | (some text, d₁) =>
            (.error (s.2 text), (Disk.act (.sys (.remove tmp)) (faults 1) d₁).2)) ∧
      (Calls.log Disk.act (checkedSteps tmp (s :: ss)) faults d).length =
        match Disk.act (.sys s.1) (faults 0) d with
        | (none, d₁) =>
            (Calls.log Disk.act (checkedSteps tmp ss) (fun i => faults (i + 1)) d₁).length + 1
        | (some _, _) => 2 := by
  rw [checkedSteps_cons, Calls.exec, Calls.log, List.length_cons]
  cases hact : Disk.act (.sys s.1) (faults 0) d with
  | mk answer d₁ =>
      cases answer with
      | none => exact ⟨rfl, rfl⟩
      | some text => exact ⟨rfl, rfl⟩

/-- Steps that end well have met no fault, one call each. -/
theorem checkedSteps_ok
    (h : Calls.exec Disk.act (checkedSteps tmp ss) faults d = (.ok (), d')) :
    (∀ i < ss.length, faults i = none) ∧
      (Calls.log Disk.act (checkedSteps tmp ss) faults d).length = ss.length ∧
      carriedOut ss d = .ok d' := by
  induction ss generalizing faults d with
  | nil =>
      obtain rfl : d = d' := congrArg Prod.snd h
      exact ⟨fun i hi => absurd hi (Nat.not_lt_zero i), rfl, rfl⟩
  | cons s ss ih =>
      obtain ⟨hexec, hlog⟩ := @exec_checkedSteps_cons tmp ss faults d s
      rw [h] at hexec
      cases hfault : faults 0 with
      | some text =>
          rw [hfault] at hexec
          cases hexec
      | none =>
          rw [hfault] at hexec hlog
          simp only [Disk.act] at hexec hlog
          cases hsys : d.sys s.1 with
          | error text =>
              rw [hsys] at hexec
              cases hexec
          | ok d₁ =>
              rw [hsys] at hexec hlog
              obtain ⟨hrest, hlength, hcarried⟩ := ih hexec.symm
              refine ⟨fun i hi => ?_, ?_, ?_⟩
              · cases i with
                | zero => exact hfault
                | succ i => exact hrest i (Nat.lt_of_succ_lt_succ hi)
              · rw [hlog]
                exact congrArg (· + 1) hlength
              · rw [carriedOut, List.foldlM_cons, hsys]
                exact hcarried

/-- Without faults the steps end well if they can be carried out. -/
theorem checkedSteps_run (hfaults : ∀ i < ss.length, faults i = none)
    (hcarried : carriedOut ss d = .ok d') :
    Calls.exec Disk.act (checkedSteps tmp ss) faults d = (.ok (), d') := by
  induction ss generalizing faults d with
  | nil =>
      obtain rfl : d = d' := Except.ok.inj hcarried
      rfl
  | cons s ss ih =>
      rw [(exec_checkedSteps_cons s).1, hfaults 0 (Nat.zero_lt_succ _)]
      simp only [Disk.act]
      rw [carriedOut, List.foldlM_cons] at hcarried
      cases hsys : d.sys s.1 with
      | error text =>
          rw [hsys] at hcarried
          cases hcarried
      | ok d₁ =>
          rw [hsys] at hcarried
          exact ih (fun i hi => hfaults (i + 1) (Nat.succ_lt_succ hi)) hcarried

theorem spares_checkedSteps (hss : ∀ s ∈ ss, SparesBlobs (.sys s.1))
    (htmp : SparesBlobs (.sys (.remove tmp))) : (checkedSteps tmp ss).All SparesBlobs := by
  induction ss with
  | nil => trivial
  | cons s ss ih =>
      exact all_bind (spares_checkOrRemove (hss s (List.mem_cons_self ..)) htmp)
        fun _ => ih fun s' hs' => hss s' (List.mem_cons_of_mem _ hs')

end Steps

theorem spares_remove_tmp (id : Bytes) : SparesBlobs (.sys (.remove (tmpName id))) :=
  fun _ hk => hk.ne_tmpName id

theorem spares_stagingSteps (root id data : Bytes) :
    ∀ s ∈ stagingSteps root id data, SparesBlobs (.sys s.1) := by
  intro s hs k hk
  have htmp := hk.ne_tmpName id
  simp only [stagingSteps, List.mem_append, List.mem_cons, List.not_mem_nil, or_false,
    List.mem_map] at hs
  rcases hs with (rfl | ⟨b, -, rfl⟩) | rfl | rfl | rfl | rfl
  · exact htmp
  · exact htmp
  · trivial
  · trivial
  · trivial
  · exact htmp

/-! ## What the temporary file holds -/

/-- The file under the name has the content. -/
def HasData (d : Disk) (n data : Bytes) : Prop :=
  ∃ i, d.dir.lookup n = some i ∧ (d.inode i).data = data

theorem HasData.congr {d d' : Disk} {k data : Bytes} (h : HasData d k data)
    (hsame : SameFile d d' k) : HasData d' k data := by
  obtain ⟨i, hi, hdata⟩ := h
  exact ⟨i, hsame.entry.trans hi, (hsame.content i hi).trans hdata⟩

theorem read_eq_ok_iff {d : Disk} {k data : Bytes} (hk : k ≠ []) :
    BinaryFileStorage.read d k = .ok data ↔ HasData d k data := by
  rw [BinaryFileStorage.read, if_neg hk]
  cases hlookup : d.dir.lookup k with
  | none => simp [HasData, hlookup]
  | some i => simp [HasData, hlookup]

theorem carriedOut_append (ss ss' : List CheckedStep) (d : Disk) :
    carriedOut (ss ++ ss') d = carriedOut ss d >>= carriedOut ss' := by
  rw [carriedOut, List.foldlM_append]
  rfl

/-- The bytes are appended one after the other. -/
theorem carriedOut_appends {d : Disk} {n written : Bytes} (h : HasData d n written)
    (data : Bytes) (exn : Bytes → Exn) :
    ∃ d', carriedOut (data.map fun b => (.append n b, exn)) d = .ok d' ∧
      HasData d' n (written ++ data) := by
  induction data generalizing d written with
  | nil => exact ⟨d, rfl, by rwa [List.append_nil]⟩
  | cons b data ih =>
      obtain ⟨i, hi, hdata⟩ := h
      have hsys : d.sys (.append n b) = .ok (d.setInode i ⟨(d.inode i).data ++ [b], false⟩) := by
        simp only [Disk.sys, hi]
      have hnext : HasData (d.setInode i ⟨(d.inode i).data ++ [b], false⟩) n (written ++ [b]) := by
        refine ⟨i, hi, ?_⟩
        show (Function.update d.inode i _ i).data = _
        rw [Function.update_self, hdata]
      obtain ⟨d', hcarried, hdata'⟩ := ih hnext
      refine ⟨d', ?_, by simpa using hdata'⟩
      rw [List.map_cons, carriedOut, List.foldlM_cons, hsys]
      exact hcarried

/-- Without faults the steps fill the temporary file, whatever was there before. -/
theorem carriedOut_stagingSteps (root id data : Bytes) (d : Disk) :
    ∃ d', carriedOut (stagingSteps root id data) d = .ok d' ∧ HasData d' (tmpName id) data := by
  obtain ⟨d₁, hopen, h₁⟩ : ∃ d₁, d.sys (.openTrunc (tmpName id)) = .ok d₁ ∧
      HasData d₁ (tmpName id) [] := by
    cases hlookup : d.dir.lookup (tmpName id) with
    | some i =>
        refine ⟨d.setInode i ⟨[], false⟩, by simp only [Disk.sys, hlookup], i, hlookup, ?_⟩
        show (Function.update d.inode i _ i).data = _
        rw [Function.update_self]
    | none =>
        refine ⟨d.create (tmpName id), by simp only [Disk.sys, hlookup]; rfl, d.next, ?_, ?_⟩
        · rw [Disk.create, Disk.dir_push]
          exact AList.lookup_insert _
        · show (Function.update d.inode d.next _ d.next).data = _
          rw [Function.update_self]
  obtain ⟨d₂, happends, i, hi, hdata⟩ := carriedOut_appends h₁ data
    (storageExn root "write tmp failed: " (tmpName id))
  -- neither `flush` nor `close` nor the opening for the fsync changes the disk
  refine ⟨d₂.setInode i ⟨(d₂.inode i).data, true⟩, ?_, i, hi, ?_⟩
  · rw [stagingSteps, carriedOut_append, carriedOut_append]
    have hfirst : carriedOut [(SysCall.openTrunc (tmpName id),
        storageExn root "open tmp failed: " (tmpName id))] d = .ok d₁ := by
      rw [carriedOut, List.foldlM_cons, hopen]
      rfl
    rw [hfirst]
    show carriedOut _ d₁ >>= _ = _
    rw [happends]
    show carriedOut _ d₂ = _
    have hopened : d₂.sys (.openFile (tmpName id)) = .ok d₂ := by
      rw [Disk.sys, hi, Option.isSome_some, if_pos rfl]
    have hsynced : d₂.sys (.fsync (tmpName id)) = .ok (d₂.setInode i ⟨(d₂.inode i).data, true⟩) := by
      rw [Disk.sys, hi]
    simp only [carriedOut, List.foldlM_cons, List.foldlM_nil]
    show d₂.sys (.openFile (tmpName id)) >>= _ = _
    rw [hopened]
    show d₂.sys (.fsync (tmpName id)) >>= _ = _
    rw [hsynced]
    rfl
  · show (Function.update d₂.inode i _ i).data = _
    rw [Function.update_self]
    exact hdata

/-! ## The rename -/

/-- The blob is the new one. -/
structure Replaced (d d' : Disk) (id data : Bytes) : Prop where
  sound : d'.Sound
  others : ∀ k, BinName k → k ≠ id → SameFile d d' k
  blob : HasData d' id data

/-- The rename puts the temporary file in the place of the blob. -/
theorem rename_over {d : Disk} {id data : Bytes} (hid : BinName id) (h : d.Sound)
    (hdata : HasData d (tmpName id) data) :
    ∃ d', d.sys (.rename (tmpName id) id) = .ok d' ∧ Replaced d d' id data ∧
      d'.dir.lookup (tmpName id) = none := by
  obtain ⟨i, hi, hcontent⟩ := hdata
  have hsys : d.sys (.rename (tmpName id) id) = .ok (d.push (.rename (tmpName id) id i)) := by
    simp only [Disk.sys, hi]
  have hstep := fileStep_of_sys hsys
  refine ⟨_, hsys, ⟨h.step hstep, fun k hk hne => ?_, i, ?_, hcontent⟩, ?_⟩
  · have havoids : (SysCall.rename (tmpName id) id).Avoids k := ⟨hk.ne_tmpName id, hne.symm⟩
    exact h.sameFile havoids hstep
  · rw [dir_push]
    exact AList.lookup_insert _
  · rw [dir_push, DirOp.apply, AList.lookup_insert_ne (hid.ne_tmpName id)]
    exact AList.lookup_erase _ d.dir

/-! ## A root with one file -/

def oneFile (name data : Bytes) : Disk :=
  { Disk.empty with
    durable := (∅ : Table Nat).insert name 0
    inode := fun _ => ⟨data, true⟩
    next := 1 }

theorem lookup_oneFile {name data n : Bytes} {i : Nat}
    (h : (oneFile name data).dir.lookup n = some i) : n = name ∧ i = 0 := by
  have hinsert : ((∅ : Table Nat).insert name 0).lookup n = some i := h
  rw [Table.lookup_insert_eq] at hinsert
  split at hinsert
  · next heq =>
      cases hinsert
      exact ⟨heq, rfl⟩
  · cases hinsert

theorem sound_oneFile (name data : Bytes) : (oneFile name data).Sound where
  solo n i hn := by
    refine ⟨hn, fun m hm => ?_⟩
    rw [(lookup_oneFile hn).1, (lookup_oneFile hm).1]
  old n i hn := by
    rw [(lookup_oneFile hn).2]
    exact Nat.zero_lt_one

end SecureFileTransfer
