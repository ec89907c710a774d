import SecureFileTransfer.StagedWrite

/-!
# AtomicOverwrite — a staged write that stops, and the restart after it

The blob is only touched by the last calls: the old one is removed and the new one renamed into its
place.  Wherever the call stops, the restart finds the old blob or the new one, except between
these two.
-/

namespace SecureFileTransfer

open Calls BinaryFileStorage Disk

variable (root : Bytes)

/-- The root after a staged write that is killed once it has made `n` calls, the restart and the
sweep. -/
def afterRestart (id data : Bytes) (n : Nat) (faults sweepFaults : Nat → Fault) (d : Disk) : Disk :=
  (Calls.exec Disk.act sweepOrphans sweepFaults
    (stopped Disk.act n (stagedWrite root id data) faults d).kill).2

/-- The blob is the old one or the new one, and every other blob is as it was. -/
structure OverwriteAtomic (d d' : Disk) (id data : Bytes) : Prop where
  blob : BinaryFileStorage.read d' id = BinaryFileStorage.read d id ∨
    BinaryFileStorage.read d' id = .ok data
  others : ∀ k, BinName k → k ≠ id → BinaryFileStorage.read d' k = BinaryFileStorage.read d k

/-- There is an old blob, the calls up to its removal all go through, and then the process is killed
before the rename or the rename fails. -/
structure LosesOld (d : Disk) (id data : Bytes) (n : Nat) (faults : Nat → Fault) : Prop where
  old : id ∈ d.dir
  noFault : ∀ i < data.length + 7, faults i = none
  removed : data.length + 7 ≤ n
  stop : n = data.length + 7 ∨ faults (data.length + 7) ≠ none

/-! ## What a part of the call leaves -/

/-- The blob is gone if it is lost, and otherwise the old one or the new one. -/
structure Outcome (lost : Prop) (d d' : Disk) (id data : Bytes) : Prop where
  sound : d'.Sound
  others : ∀ k, BinName k → k ≠ id → SameFile d d' k
  kept : ¬ lost → SameFile d d' id ∨ HasData d' id data
  gone : lost → d'.dir.lookup id = none

namespace Outcome

variable {lost : Prop} {d d₁ d' : Disk} {id data : Bytes}

theorem of_kept (hid : BinName id) (hlost : ¬ lost) (h : d'.Sound) (hkept : BlobsKept d d') :
    Outcome lost d d' id data :=
  ⟨h, fun k hk _ => hkept k hk, fun _ => .inl (hkept id hid), fun h => absurd h hlost⟩

theorem of_replaced (hlost : ¬ lost) (h : Replaced d d' id data) : Outcome lost d d' id data :=
  ⟨h.sound, h.others, fun _ => .inr h.blob, fun h => absurd h hlost⟩

theorem congr {lost' : Prop} (h : Outcome lost d d' id data) (hlost : lost ↔ lost') :
    Outcome lost' d d' id data :=
  ⟨h.sound, h.others, fun hn => h.kept fun hl => hn (hlost.1 hl), fun hl => h.gone (hlost.2 hl)⟩

/-- Code before it that is about no blob. -/
theorem after_kept (h : Outcome lost d₁ d' id data) (hid : BinName id) (hkept : BlobsKept d d₁) :
    Outcome lost d d' id data where
  sound := h.sound
  others k hk hne := (hkept k hk).trans (h.others k hk hne)
  kept hlost := (h.kept hlost).imp_left (hkept id hid).trans
  gone := h.gone

/-- Code after it that is about no blob. -/
theorem then_kept (h : Outcome lost d d₁ id data) (hid : BinName id) (hsound : d'.Sound)
    (hkept : BlobsKept d₁ d') : Outcome lost d d' id data where
  sound := hsound
  others k hk hne := (h.others k hk hne).trans (hkept k hk)
  kept hlost := by
    rcases h.kept hlost with hsame | hdata
    · exact .inl (hsame.trans (hkept id hid))
    · exact .inr (hdata.congr (hkept id hid))
  gone hlost := (hkept id hid).entry.trans (h.gone hlost)

theorem atomic_iff (h : Outcome lost d d' id data) (hid : BinName id)
    (hold : lost → id ∈ d.dir) : OverwriteAtomic d d' id data ↔ ¬ lost := by
  constructor
  · intro hatomic hlost
    obtain ⟨i, hi⟩ := Option.isSome_iff_exists.1 (AList.lookup_isSome.2 (hold hlost))
    have hgone : ∀ content, BinaryFileStorage.read d' id ≠ .ok content := by
      intro content hread
      obtain ⟨j, hj, -⟩ := (read_eq_ok_iff hid.ne_nil).1 hread
      rw [h.gone hlost] at hj
      cases hj
    rcases hatomic.blob with hsame | hnew
    · exact hgone _ (hsame.trans ((read_eq_ok_iff hid.ne_nil).2 ⟨i, hi, rfl⟩))
    · exact hgone _ hnew
  · intro hlost
    refine ⟨?_, fun k hk hne => (h.others k hk hne).read⟩
    rcases h.kept hlost with hsame | hdata
    · exact .inl hsame.read
    · exact .inr ((read_eq_ok_iff hid.ne_nil).2 hdata)

end Outcome

/-! ## The rename -/

section Finish

variable {d : Disk} {id data : Bytes} (n : Nat) (faults : Nat → Fault)

/-- A move that does not get past its rename leaves every blob as it is. -/
theorem moveOver_early (h : d.Sound) (hstop : n = 0 ∨ faults 0 ≠ none) :
    (stopped Disk.act n (moveOver id) faults d).Sound ∧
      BlobsKept d (stopped Disk.act n (moveOver id) faults d) := by
  rw [moveOver_eq]
  cases n with
  | zero => exact ⟨h, .refl d⟩
  | succ n =>
      obtain ⟨text, htext⟩ : ∃ text, faults 0 = some text :=
        Option.ne_none_iff_exists'.1 (hstop.resolve_left (Nat.succ_ne_zero n))
      simp only [stopped, htext, Disk.act]
      have hclean : Calls.All SparesBlobs (Calls.call (DiskCall.sys (.remove (tmpName id)))
          fun _ => .done (.error ⟨.storage, ascii "rename tmp->dst failed: " ++ text⟩) : Code Unit) :=
        ⟨spares_remove_tmp id, fun _ => trivial⟩
      exact kept_stopped hclean h n _

/-- After the rename the blob is what the temporary file held. -/
theorem moveOver_renamed (hid : BinName id) (h : d.Sound) (hdata : HasData d (tmpName id) data)
    (hn : n ≠ 0) (hfault : faults 0 = none) :
    Replaced d (stopped Disk.act n (moveOver id) faults d) id data := by
  rw [moveOver_eq]
  obtain ⟨n, rfl⟩ := Nat.exists_eq_succ_of_ne_zero hn
  obtain ⟨d', hsys, hreplaced, -⟩ := rename_over hid h hdata
  simp only [stopped, hfault, Disk.act, hsys]
  -- only the fsync of the directory is left
  have hrest := kept_stopped (spares_ignore (c := .fsyncDir) fun _ _ => trivial) hreplaced.sound n
    fun i => faults (i + 1)
  exact ⟨hrest.1, fun k hk hne => (hreplaced.others k hk hne).trans (hrest.2 k hk),
    hreplaced.blob.congr (hrest.2 id hid)⟩

/-- Both cases of a move: it gets past its rename or not. -/
theorem moveOver_outcome (hid : BinName id) (h : d.Sound) (hdata : HasData d (tmpName id) data) :
    Outcome False d (stopped Disk.act n (moveOver id) faults d) id data := by
  by_cases hstop : n = 0 ∨ faults 0 ≠ none
  · exact .of_kept hid not_false (moveOver_early n faults h hstop).1
      (moveOver_early n faults h hstop).2
  · rw [not_or, not_not] at hstop
    exact .of_replaced not_false (moveOver_renamed n faults hid h hdata hstop.1 hstop.2)

/-- The blob is lost if the removal goes through and the rename does not. -/
theorem finish_outcome (hid : BinName id) (h : d.Sound) (hdata : HasData d (tmpName id) data) :
    Outcome (id ∈ d.dir ∧ faults 0 = none ∧ faults 1 = none ∧ 2 ≤ n ∧ (n = 2 ∨ faults 2 ≠ none)) d
      (stopped Disk.act n (removeExisting id >>= fun _ => moveOver id) faults d) id data := by
  rw [finish_eq]
  -- one call after the other: the search, the removal, the move
  rcases n with _ | n
  · exact .of_kept hid (by omega) h (.refl d)
  rw [stopped]
  cases hthere : (Disk.act (.exist id) (faults 0) d).1 with
  | false =>
      have hlost : ¬ (id ∈ d.dir ∧ faults 0 = none) := by
        rintro ⟨hmem, hfault⟩
        simp only [Disk.act, hfault, Option.isNone_none, Bool.true_and] at hthere
        rw [AList.lookup_isSome.2 hmem] at hthere
        cases hthere
      exact (moveOver_outcome n _ hid h hdata).congr
        ⟨False.elim, fun hl => hlost ⟨hl.1, hl.2.1⟩⟩
  | true =>
      simp only [Disk.act, Bool.and_eq_true, Option.isNone_iff_eq_none] at hthere
      obtain ⟨hfault, hmem⟩ := hthere
      rcases n with _ | n
      · exact .of_kept hid (by omega) h (.refl d)
      simp only [stopped, Disk.act]
      cases hremove : faults 1 with
      | some text =>
          -- the old blob stays, and the rename replaces it in one step
          exact (moveOver_outcome n _ hid h hdata).congr
            ⟨False.elim, fun hl => by simp at hl⟩
      | none =>
          obtain ⟨d₂, hsys, hsound, hgone, hsame⟩ := h.remove id
          simp only [hsys]
          have hothers : ∀ k, BinName k → k ≠ id → SameFile d d₂ k := fun k _ hne => hsame k hne
          have htmp : HasData d₂ (tmpName id) data := hdata.congr (hsame _ (hid.ne_tmpName id))
          by_cases hstop : n = 0 ∨ faults 2 ≠ none
          · -- no blob is under the name, and none comes there any more
            have hearly : (stopped Disk.act n (moveOver id) (fun i => faults (i + 2)) d₂).Sound ∧
                BlobsKept d₂ _ := moveOver_early n _ hsound hstop
            refine ⟨hearly.1, fun k hk hne => (hothers k hk hne).trans (hearly.2 k hk), ?_, ?_⟩
            · exact fun hlost => absurd
                ⟨AList.lookup_isSome.1 hmem, hfault, trivial, by omega, by simpa using hstop⟩ hlost
            · exact fun _ => (hearly.2 id hid).entry.trans hgone
          · rw [not_or, not_not] at hstop
            have hrenamed := moveOver_renamed n (fun i => faults (i + 2)) hid hsound htmp
              hstop.1 hstop.2
            refine .of_replaced (fun hlost => ?_) ⟨hrenamed.sound,
              fun k hk hne => (hothers k hk hne).trans (hrenamed.others k hk hne), hrenamed.blob⟩
            rcases hlost.2.2.2.2 with htwo | hfault₂
            · exact hstop.1 (by omega)
            · exact hfault₂ hstop.2

end Finish

/-! ## The whole call -/

section Whole

variable {d : Disk} {id data : Bytes} (n : Nat) (faults : Nat → Fault)

/-- The steps before the search for the old blob use one call each, unless one of them fails. -/
theorem staging_ends (hfaults : ∀ i < data.length + 5, faults i = none) :
    ∃ d', Calls.exec Disk.act (checkedSteps (tmpName id) (stagingSteps root id data)) faults d =
      (.ok (), d') := by
  obtain ⟨d', hcarried, -⟩ := carriedOut_stagingSteps root id data d
  exact ⟨d', checkedSteps_run (fun i hi => hfaults i (by simpa using hi)) hcarried⟩

theorem mem_dir_iff {d' : Disk} (h : SameFile d d' id) : id ∈ d'.dir ↔ id ∈ d.dir := by
  rw [← AList.lookup_isSome, ← AList.lookup_isSome, h.entry]

/-- What `LosesOld` says of the calls that are left when the temporary file is filled. -/
theorem losesOld_iff (hstaged : ∀ i < data.length + 5, faults i = none) :
    LosesOld d id data n faults ↔ id ∈ d.dir ∧ faults (data.length + 5) = none ∧
      faults (data.length + 6) = none ∧ data.length + 7 ≤ n ∧
      (n = data.length + 7 ∨ faults (data.length + 7) ≠ none) := by
  constructor
  · rintro ⟨old, noFault, removed, stop⟩
    exact ⟨old, noFault _ (by omega), noFault _ (by omega), removed, stop⟩
  · rintro ⟨old, hsearch, hremove, removed, stop⟩
    refine ⟨old, fun i hi => ?_, removed, stop⟩
    obtain hlt | rfl | rfl : i < data.length + 5 ∨ i = data.length + 5 ∨ i = data.length + 6 := by
      omega
    · exact hstaged i hlt
    · exact hsearch
    · exact hremove

theorem stagedWrite_outcome (hid : BinName id) (h : d.Sound) :
    Outcome (LosesOld d id data n faults) d
      (stopped Disk.act n (stagedWrite root id data) faults d) id data := by
  have hstaging : (checkedSteps (tmpName id) (stagingSteps root id data)).All SparesBlobs :=
    spares_checkedSteps (spares_stagingSteps root id data) (spares_remove_tmp id)
  -- if the blob is lost, the steps on the temporary file have all gone through
  have hends : LosesOld d id data n faults → ∃ d',
      Calls.exec Disk.act (checkedSteps (tmpName id) (stagingSteps root id data)) faults d =
        (.ok (), d') := fun hlost =>
    staging_ends root faults fun i hi => hlost.noFault i (by omega)
  rw [stagedWrite_eq root hid, stopped_bind]
  split
  · next hn =>
      have hkept := kept_stopped hstaging h n faults
      refine .of_kept hid (fun hlost => ?_) hkept.1 hkept.2
      obtain ⟨d', hok⟩ := hends hlost
      have hlog := (checkedSteps_ok hok).2.1
      have hremoved := hlost.removed
      rw [length_stagingSteps] at hlog
      omega
  · next hn =>
      have hkept := kept_exec hstaging h faults
      cases hexec : Calls.exec Disk.act (checkedSteps (tmpName id) (stagingSteps root id data))
          faults d with
      | mk result d₁ =>
          rw [hexec] at hkept
          cases result with
          | error e =>
              refine .of_kept hid (fun hlost => ?_) hkept.1 hkept.2
              obtain ⟨d', hok⟩ := hends hlost
              rw [hexec] at hok
              cases hok
          | ok =>
              obtain ⟨hfaults, hlog, hcarried⟩ := checkedSteps_ok hexec
              rw [length_stagingSteps] at hfaults hlog
              obtain ⟨d₂, hcarried', hdata⟩ := carriedOut_stagingSteps root id data d
              obtain rfl : d₁ = d₂ := Except.ok.inj (hcarried.symm.trans hcarried')
              refine ((finish_outcome _ _ hid hkept.1 hdata).after_kept hid hkept.2).congr ?_
              rw [hlog, losesOld_iff n faults hfaults, mem_dir_iff (hkept.2 id hid)]
              rw [Nat.zero_add, Nat.add_comm 1, Nat.add_comm 2]
              have hsub : 2 ≤ n - (data.length + 5) ↔ data.length + 7 ≤ n := by omega
              have hsub' : n - (data.length + 5) = 2 ↔ n = data.length + 7 := by omega
              rw [hsub, hsub']

/-- A staged write that stops anywhere, and the restart after it: the blob is the old one or the new
one, unless the call stops between the removal of the old one and the rename. -/
theorem overwriteAtomic_iff (hid : BinName id) (h : d.Sound) (sweepFaults : Nat → Fault) :
    OverwriteAtomic d (afterRestart root id data n faults sweepFaults d) id data ↔
      ¬ LosesOld d id data n faults := by
  have hout : Outcome (LosesOld d id data n faults) d
      (stopped Disk.act n (stagedWrite root id data) faults d).kill id data :=
    -- the kill ends the transaction; the files are as they were
    (stagedWrite_outcome root n faults hid h).then_kept hid
      ⟨(stagedWrite_outcome root n faults hid h).sound.solo,
        (stagedWrite_outcome root n faults hid h).sound.old⟩ fun k _ => ⟨rfl, fun _ _ => rfl⟩
  have hswept := kept_exec (sweeps_sweepOrphans.mono fun _ => SparesBlobs.of_sweeps) hout.sound
    sweepFaults
  exact (hout.then_kept hid hswept.1 hswept.2).atomic_iff hid fun hlost => hlost.old

end Whole

/-! ## One blob -/

/-- A root that holds the blob `a.bin`. -/
def oldBlob : Disk := oneFile (ascii "a.bin") [9]

/-- The process is killed while it fills the temporary file: the sweep leaves the old blob. -/
theorem overwriteAtomic_early_kill :
    BinaryFileStorage.read oldBlob (ascii "a.bin") = .ok [9] ∧
      OverwriteAtomic oldBlob (afterRestart (ascii "./storage/encrypted") (ascii "a.bin") [1] 3
        (fun _ => none) (fun _ => none) oldBlob) (ascii "a.bin") [1] := by
  refine ⟨by decide, (overwriteAtomic_iff _ 3 _ (by decide) (sound_oneFile _ _) _).2 fun hlost => ?_⟩
  exact absurd hlost.removed (by decide)

/-- The process is killed after the removal of the old blob, and the sweep removes the new one. -/
theorem not_overwriteAtomic_late_kill :
    oldBlob.Sound ∧ BinName (ascii "a.bin") ∧
      BinaryFileStorage.read oldBlob (ascii "a.bin") = .ok [9] ∧
      ¬ OverwriteAtomic oldBlob (afterRestart (ascii "./storage/encrypted") (ascii "a.bin") [1] 8
        (fun _ => none) (fun _ => none) oldBlob) (ascii "a.bin") [1] := by
  refine ⟨sound_oneFile _ _, by decide, by decide, fun h => ?_⟩
  have hread : BinaryFileStorage.read (afterRestart (ascii "./storage/encrypted") (ascii "a.bin")
      [1] 8 (fun _ => none) (fun _ => none) oldBlob) (ascii "a.bin") =
        .error ⟨.notFound, ascii "missing blob: a.bin"⟩ := by
    decide +kernel
  rcases h.blob with hold | hnew
  · rw [hread] at hold
    exact absurd hold (by decide)
  · rw [hread] at hnew
    cases hnew

end SecureFileTransfer
