import SecureFileTransfer.StagedWrite
import SecureFileTransfer.Lib.Runs

/-!
# BlobMap — the storage is a map from storage ids to blobs

Without I/O errors the calls on `BinaryFileStorage` are those on a finite map, although blobs and
temporary files share a directory: the temporary name of an id is the id of no blob.
-/

namespace SecureFileTransfer

open Calls Runs StdString BinaryFileStorage Disk

/-! ## The map -/

/-- A call on the storage. -/
inductive BlobCall
  | stagedWrite (storageId data : Bytes)
  | write (k v : Bytes)
  | read (k : Bytes)
  | removeStaged (storageId : Bytes)
  | sweepOrphans

inductive BlobResult
  | unit (r : Except Exn Unit)
  | data (r : Except Exn Bytes)
  | count (r : Except Exn Nat)

namespace BlobCall

/-- The id a call is about has the form that `TransferService` generates. -/
def Regular : BlobCall → Prop
  | .stagedWrite k _ => BinName k
  | .write k _ => BinName k
  | .read k => BinName k
  | .removeStaged k => BinName k
  | .sweepOrphans => True

/-- The call writes the data under the id. -/
def Writes (k v : Bytes) (c : BlobCall) : Prop := c = .stagedWrite k v ∨ c = .write k v

/-- What a call does to the map. -/
def apply (m : Bytes → Option Bytes) : BlobCall → Bytes → Option Bytes
  | .stagedWrite k v => Function.update m k (some v)
  | .write k v => Function.update m k (some v)
  | .read _ => m
  | .removeStaged k => Function.update m k none
  | .sweepOrphans => m

/-- The call on the storage, when no system call fails. -/
def step (root : Bytes) (d : Disk) : BlobCall → BlobResult × Disk
  | .stagedWrite k v =>
      let (r, d') := Calls.exec Disk.act (BinaryFileStorage.stagedWrite root k v) (fun _ => none) d
      (.unit r, d')
  | .write k v =>
      let (r, d') := Calls.exec Disk.act (BinaryFileStorage.write root k v) (fun _ => none) d
      (.unit r, d')
  | .read k => (.data (BinaryFileStorage.read d k), d)
  | .removeStaged k =>
      let (r, d') := Calls.exec Disk.act (BinaryFileStorage.removeStaged k) (fun _ => none) d
      (.unit r, d')
  | .sweepOrphans =>
      let (r, d') := Calls.exec Disk.act BinaryFileStorage.sweepOrphans (fun _ => none) d
      (.count r, d')

end BlobCall

/-- The map after the calls. -/
def blobMap (calls : List BlobCall) : Bytes → Option Bytes :=
  calls.foldl BlobCall.apply fun _ => none

theorem blobMap_concat (calls : List BlobCall) (c : BlobCall) :
    blobMap (calls ++ [c]) = c.apply (blobMap calls) := List.foldl_append

theorem BlobCall.apply_eq_some_iff {m : Bytes → Option Bytes} {c : BlobCall} {k v : Bytes} :
    c.apply m k = some v ↔
      c.Writes k v ∨ m k = some v ∧ c ≠ .removeStaged k ∧ ∀ w, ¬ c.Writes k w := by
  cases c with
  | stagedWrite id data | write id data =>
      simp only [apply, Writes, Function.update_apply]
      by_cases hk : k = id
      · subst hk
        simp
      · simp [hk, Ne.symm hk]
  | removeStaged id =>
      simp only [apply, Writes, Function.update_apply]
      by_cases hk : k = id
      · subst hk
        simp
      · simp [hk, Ne.symm hk]
  | read id | sweepOrphans => simp [apply, Writes]

/-- One of the calls writes the data under the id, and no later one writes or removes it. -/
def LastWrite (calls : List BlobCall) (k v : Bytes) : Prop :=
  ∃ pre c post, calls = pre ++ c :: post ∧ c.Writes k v ∧
    ∀ c' ∈ post, c' ≠ .removeStaged k ∧ ∀ w, ¬ c'.Writes k w

/-- The map holds what the last write put there, unless a removal came after it. -/
theorem blobMap_eq_some_iff {calls : List BlobCall} {k v : Bytes} :
    blobMap calls k = some v ↔ LastWrite calls k v := by
  unfold LastWrite
  induction calls using List.reverseRecOn with
  | nil => simp [blobMap]
  | append_singleton calls c ih =>
      rw [blobMap_concat, BlobCall.apply_eq_some_iff, ih]
      constructor
      · rintro (hwrites | ⟨⟨pre, c', post, rfl, hwrites, hpost⟩, hlast⟩)
        · exact ⟨calls, c, [], rfl, hwrites, by simp⟩
        · refine ⟨pre, c', post ++ [c], by simp, hwrites, fun c'' hc'' => ?_⟩
          rcases List.mem_append.1 hc'' with hold | hnew
          · exact hpost c'' hold
          · rwa [List.mem_singleton.1 hnew]
      · rintro ⟨pre, c', post, heq, hwrites, hpost⟩
        rcases List.eq_nil_or_concat post with rfl | ⟨post', last, rfl⟩
        · obtain ⟨-, hc⟩ := List.append_inj' heq rfl
          obtain rfl : c = c' := by simpa using hc
          exact .inl hwrites
        · have heq' : calls ++ [c] = (pre ++ c' :: post') ++ [last] := by simpa using heq
          obtain ⟨rfl, hc⟩ := List.append_inj' heq' rfl
          obtain rfl : c = last := by simpa using hc
          refine .inr ⟨⟨pre, c', post', rfl, hwrites, fun c'' hc'' => hpost c'' ?_⟩, hpost c ?_⟩
          · simp [hc'']
          · simp

/-! ## The calls without faults -/

section NoFault

variable {d : Disk}

theorem exec_ignore_remove (h : d.Sound) (n : Bytes) :
    ∃ d', Calls.exec Disk.act (Code.ignore (.remove n)) (fun _ => none) d = (.ok (), d') ∧
      d'.Sound ∧ d'.dir.lookup n = none ∧ ∀ m, m ≠ n → SameFile d d' m := by
  obtain ⟨d', hsys, hrest⟩ := h.remove n
  refine ⟨d', ?_, hrest⟩
  show ((.ok () : Except Exn Unit), (Disk.act (.sys (.remove n)) none d).2) = _
  simp only [Disk.act, hsys]

/-- The search for the old blob, and its removal. -/
theorem exec_removeExisting (h : d.Sound) (id : Bytes) :
    ∃ d', Calls.exec Disk.act (removeExisting id) (fun _ => none) d = (.ok (), d') ∧
      d'.Sound ∧ ∀ m, m ≠ id → SameFile d d' m := by
  have hexec : Calls.exec Disk.act (removeExisting id) (fun _ => none) d =
      Calls.exec Disk.act (if (d.dir.lookup id).isSome then Code.ignore (.remove id) else pure ())
        (fun _ => none) d := rfl
  rw [hexec]
  split
  · obtain ⟨d', hrun, hsound, -, hsame⟩ := exec_ignore_remove h id
    exact ⟨d', hrun, hsound, hsame⟩
  · exact ⟨d, rfl, h, fun m _ => .refl d m⟩

theorem exec_moveOver {id data : Bytes} (hid : BinName id) (h : d.Sound)
    (hdata : HasData d (tmpName id) data) :
    ∃ d', Calls.exec Disk.act (moveOver id) (fun _ => none) d = (.ok (), d') ∧
      Replaced d d' id data ∧ d'.dir.lookup (tmpName id) = none := by
  obtain ⟨d', hsys, hreplaced, htmp⟩ := rename_over hid h hdata
  -- the fsync of the directory changes no file
  refine ⟨{ d' with durable := d'.dir, pending := [] }, ?_, ⟨⟨hreplaced.sound.solo,
    hreplaced.sound.old⟩, fun k hk hne => ?_, hreplaced.blob⟩, htmp⟩
  · rw [moveOver_eq, Calls.exec]
    simp only [Disk.act, hsys]
    rfl
  · exact (hreplaced.others k hk hne).trans ⟨rfl, fun _ _ => rfl⟩

/-- A staged write replaces the blob and leaves no temporary file. -/
theorem exec_stagedWrite (root : Bytes) {id : Bytes} (hid : BinName id) (data : Bytes)
    (h : d.Sound) :
    ∃ d', Calls.exec Disk.act (stagedWrite root id data) (fun _ => none) d = (.ok (), d') ∧
      Replaced d d' id data ∧ d'.dir.lookup (tmpName id) = none := by
  have hstaging : (checkedSteps (tmpName id) (stagingSteps root id data)).All SparesBlobs :=
    spares_checkedSteps (spares_stagingSteps root id data) (spares_remove_tmp id)
  obtain ⟨d₁, hcarried, hdata⟩ := carriedOut_stagingSteps root id data d
  have hstaged : Calls.exec Disk.act (checkedSteps (tmpName id) (stagingSteps root id data))
      (fun _ => none) d = (.ok (), d₁) := checkedSteps_run (fun _ _ => rfl) hcarried
  have hkept := kept_exec hstaging h fun _ => none
  rw [hstaged] at hkept
  obtain ⟨d₂, hremoved, hsound₂, hsame₂⟩ := exec_removeExisting hkept.1 id
  obtain ⟨d₃, hmoved, hreplaced, htmp⟩ :=
    exec_moveOver hid hsound₂ (hdata.congr (hsame₂ _ (hid.ne_tmpName id)))
  refine ⟨d₃, ?_, ⟨hreplaced.sound, fun k hk hne => ?_, hreplaced.blob⟩, htmp⟩
  · rw [stagedWrite_eq root hid, exec_bind_of_ok hstaged, exec_bind_of_ok hremoved, hmoved]
  · exact ((hkept.2 k hk).trans (hsame₂ k hne)).trans (hreplaced.others k hk hne)

theorem exec_removeStaged {id : Bytes} (hid : BinName id) (h : d.Sound) :
    ∃ d', Calls.exec Disk.act (removeStaged id) (fun _ => none) d = (.ok (), d') ∧
      d'.Sound ∧ d'.dir.lookup id = none ∧ ∀ k, BinName k → k ≠ id → SameFile d d' k := by
  obtain ⟨d₁, hfirst, hsound₁, -, hsame₁⟩ := exec_ignore_remove h (tmpName id)
  obtain ⟨d₂, hsecond, hsound₂, hgone, hsame₂⟩ := exec_ignore_remove hsound₁ id
  refine ⟨d₂, ?_, hsound₂, hgone, fun k hk hne => ?_⟩
  · rw [removeStaged, if_neg hid.ne_nil, exec_bind_of_ok hfirst, hsecond]
  · exact (hsame₁ k (Ne.symm (hk.ne_tmpName id))).trans (hsame₂ k hne)

/-- The loop removes the temporary files among the names and counts them. -/
theorem exec_sweepEntries (h : d.Sound) (names : List Bytes) :
    ∃ d', Calls.exec Disk.act (sweepEntries names) (fun _ => none) d =
        (.ok (names.filter isPart).length, d') ∧ d'.Sound ∧
      (∀ n, n ∉ names.filter isPart → SameFile d d' n) ∧
      ∀ n ∈ names.filter isPart, d'.dir.lookup n = none := by
  induction names generalizing d with
  | nil => exact ⟨d, rfl, h, fun n _ => .refl d n, by simp⟩
  | cons name names ih =>
      cases hpart : isPart name with
      | false =>
          obtain ⟨d', hexec, hrest⟩ := ih h
          rw [List.filter_cons_of_neg (by simp [hpart])]
          refine ⟨d', ?_, hrest⟩
          rw [sweepEntries, if_neg (by simp [hpart]), hexec]
      | true =>
          obtain ⟨d₁, hsys, hsound₁, hgone₁, hsame₁⟩ := h.remove name
          obtain ⟨d', hexec, hsound, hsame, hgone⟩ := ih hsound₁
          have hcall : Calls.exec Disk.act (Code.sysCall (.remove name)) (fun _ => none) d =
              (.ok none, d₁) := by
            show ((.ok (Disk.act (.sys (.remove name)) none d).1 : Except Exn (Option Bytes)),
              (Disk.act (.sys (.remove name)) none d).2) = _
            simp only [Disk.act, hsys]
          rw [List.filter_cons_of_pos hpart]
          refine ⟨d', ?_, hsound, fun n hn => ?_, fun n hn => ?_⟩
          · rw [sweepEntries, if_pos hpart, exec_bind_of_ok hcall, exec_bind_of_ok hexec]
            rfl
          · rw [List.mem_cons, not_or] at hn
            exact (hsame₁ n hn.1).trans (hsame n hn.2)
          · by_cases hlater : n ∈ names.filter isPart
            · exact hgone n hlater
            · -- removed here, and not touched again
              obtain rfl : n = name := (List.mem_cons.1 hn).resolve_right hlater
              exact (hsame n hlater).entry.trans hgone₁

/-- The sweeper removes the temporary files and returns their number. -/
theorem exec_sweepOrphans (h : d.Sound) :
    ∃ d', Calls.exec Disk.act sweepOrphans (fun _ => none) d =
        (.ok (d.dir.keys.filter isPart).length, d') ∧ d'.Sound ∧
      (∀ n, isPart n = false → SameFile d d' n) ∧
      ∀ n, isPart n = true → d'.dir.lookup n = none := by
  obtain ⟨d₁, hexec, hsound, hsame, hgone⟩ := exec_sweepEntries h d.dir.keys
  have hkept : ∀ n, isPart n = false → SameFile d d₁ n := fun n hn =>
    hsame n fun hmem => by simp [hn] at hmem
  have hempty : ∀ n, isPart n = true → d₁.dir.lookup n = none := by
    intro n hn
    by_cases hmem : n ∈ d.dir.keys
    · exact hgone n (List.mem_filter.2 ⟨hmem, hn⟩)
    · -- a name that is not listed is no file's
      rw [(hsame n fun hlisted => hmem (List.mem_filter.1 hlisted).1).entry, AList.lookup_eq_none]
      exact hmem
  have hlist : Calls.exec Disk.act sweepOrphans (fun _ => none) d =
      Calls.exec Disk.act (sweepEntries d.dir.keys >>= fun count =>
        if count > 0 then fsyncDir >>= fun _ => pure count else pure count) (fun _ => none) d := rfl
  rw [hlist, exec_bind_of_ok hexec]
  split
  · -- the fsync of the directory changes no file
    exact ⟨{ d₁ with durable := d₁.dir, pending := [] }, rfl, ⟨hsound.solo, hsound.old⟩,
      fun n hn => (hkept n hn).trans ⟨rfl, fun _ _ => rfl⟩, hempty⟩
  · exact ⟨d₁, rfl, hsound, hkept, hempty⟩

end NoFault

/-! ## The storage and the map -/

/-- The blob under the id is what the map has there. -/
def StoredAt (d : Disk) (k : Bytes) : Option Bytes → Prop
  | some v => HasData d k v
  | none => d.dir.lookup k = none

theorem StoredAt.congr {d d' : Disk} {k : Bytes} {v : Option Bytes} (h : StoredAt d k v)
    (hsame : SameFile d d' k) : StoredAt d' k v := by
  cases v with
  | some v => exact HasData.congr h hsame
  | none => exact hsame.entry.trans h

/-- What `read` returns for an entry of the map. -/
def readResult (k : Bytes) : Option Bytes → Except Exn Bytes
  | some v => .ok v
  | none => .error ⟨.notFound, ascii "missing blob: " ++ k⟩

theorem readResult_eq_ok_iff {k v : Bytes} {entry : Option Bytes} :
    readResult k entry = .ok v ↔ entry = some v := by
  cases entry with
  | none => simp [readResult]
  | some data => simp [readResult]

theorem StoredAt.read {d : Disk} {k : Bytes} {v : Option Bytes} (h : StoredAt d k v) (hk : k ≠ []) :
    BinaryFileStorage.read d k = readResult k v := by
  cases v with
  | some v => exact (read_eq_ok_iff hk).2 h
  | none =>
      have habsent : d.dir.lookup k = none := h
      rw [BinaryFileStorage.read, if_neg hk, habsent]
      rfl

/-- The storage holds the map. -/
structure Represents (d : Disk) (m : Bytes → Option Bytes) : Prop where
  sound : d.Sound
  stored : ∀ k, BinName k → StoredAt d k (m k)

namespace Represents

variable {root : Bytes} {d d' : Disk} {m : Bytes → Option Bytes}

theorem update {id : Bytes} {v : Option Bytes} (h : Represents d m) (hsound : d'.Sound)
    (hid : StoredAt d' id v) (hothers : ∀ k, BinName k → k ≠ id → SameFile d d' k) :
    Represents d' (Function.update m id v) where
  sound := hsound
  stored k hk := by
    rw [Function.update_apply]
    split
    · next heq => exact heq ▸ hid
    · next hne => exact (h.stored k hk).congr (hothers k hk hne)

/-- Every call does to the storage what it does to the map. -/
theorem step (h : Represents d m) {c : BlobCall} (hc : c.Regular) :
    Represents (c.step root d).2 (c.apply m) := by
  cases c with
  | stagedWrite id data | write id data =>
      obtain ⟨d', hexec, hreplaced, -⟩ := exec_stagedWrite root hc data h.sound
      have hstate : d' = (BlobCall.step root d (.stagedWrite id data)).2 := by
        rw [BlobCall.step, hexec]
      exact hstate ▸ h.update hreplaced.sound hreplaced.blob hreplaced.others
  | read id => exact h
  | removeStaged id =>
      obtain ⟨d', hexec, hsound, hgone, hothers⟩ := exec_removeStaged hc h.sound
      have hstate : d' = (BlobCall.step root d (.removeStaged id)).2 := by
        rw [BlobCall.step, hexec]
      exact hstate ▸ h.update hsound hgone hothers
  | sweepOrphans =>
      obtain ⟨d', hexec, hsound, hsame, -⟩ := exec_sweepOrphans h.sound
      have hstate : d' = (BlobCall.step root d .sweepOrphans).2 := by
        rw [BlobCall.step, hexec]
      exact hstate ▸ ⟨hsound, fun k hk => (h.stored k hk).congr (hsame k hk.not_isPart)⟩

/-- A root that holds nothing but temporary files is the empty map. -/
theorem of_parts (hd : d.Sound) (hparts : ∀ n ∈ d.dir, isPart n = true) :
    Represents d fun _ => none where
  sound := hd
  stored k hk := by
    refine AList.lookup_eq_none.2 fun hmem => ?_
    exact absurd (hparts k hmem) (by rw [hk.not_isPart]; decide)

end Represents

/-- A call answers as the map does, a write leaves no temporary file, and the sweeper takes the
`.part` files and no other. -/
structure FollowsMap (m : Bytes → Option Bytes) (t : Transition Disk BlobCall BlobResult) : Prop where
  read : ∀ k, t.input = .read k → t.output = .data (readResult k (m k))
  written : ∀ k v, t.input.Writes k v → t.output = .unit (.ok ()) ∧ tmpName k ∉ t.after.dir
  count : t.input = .sweepOrphans →
    t.output = .count (.ok (t.before.dir.keys.filter isPart).length)
  swept : t.input = .sweepOrphans → ∀ n, n ∈ t.after.dir ↔ n ∈ t.before.dir ∧ isPart n = false
  unchanged : t.input = .sweepOrphans → ∀ n, isPart n = false →
    BinaryFileStorage.read t.after n = BinaryFileStorage.read t.before n

theorem Represents.follows {root : Bytes} {d : Disk} {m : Bytes → Option Bytes}
    (h : Represents d m) {c : BlobCall} (hc : c.Regular) :
    FollowsMap m (.of (BlobCall.step root) d c) where
  read k hread := by
    obtain rfl : c = .read k := hread
    exact congrArg BlobResult.data ((h.stored k hc).read hc.ne_nil)
  written k v hwrites := by
    have hwritten : ∀ {c : BlobCall}, c.step root d = BlobCall.step root d (.stagedWrite k v) →
        BinName k → (c.step root d).1 = .unit (.ok ()) ∧ tmpName k ∉ (c.step root d).2.dir := by
      intro c hstep hk
      obtain ⟨d', hexec, -, htmp⟩ := exec_stagedWrite root hk v h.sound
      rw [hstep, BlobCall.step, hexec]
      exact ⟨rfl, AList.lookup_eq_none.1 htmp⟩
    rcases hwrites with hstaged | hwrite
    · obtain rfl : c = .stagedWrite k v := hstaged
      exact hwritten rfl hc
    · obtain rfl : c = .write k v := hwrite
      exact hwritten rfl hc
  count hsweep := by
    obtain rfl : c = .sweepOrphans := hsweep
    obtain ⟨d', hexec, -⟩ := exec_sweepOrphans h.sound
    show (BlobCall.step root d .sweepOrphans).1 = _
    rw [BlobCall.step, hexec]
    rfl
  swept hsweep n := by
    obtain rfl : c = .sweepOrphans := hsweep
    obtain ⟨d', hexec, -, hsame, hgone⟩ := exec_sweepOrphans h.sound
    have hstate : (BlobCall.step root d .sweepOrphans).2 = d' := by
      rw [BlobCall.step, hexec]
    show n ∈ (BlobCall.step root d .sweepOrphans).2.dir ↔ n ∈ d.dir ∧ isPart n = false
    rw [hstate, ← AList.lookup_isSome, ← AList.lookup_isSome]
    cases hpart : isPart n with
    | false => simp [(hsame n hpart).entry]
    | true => simp [hgone n hpart]
  unchanged hsweep n hn := by
    obtain rfl : c = .sweepOrphans := hsweep
    obtain ⟨d', hexec, -, hsame, -⟩ := exec_sweepOrphans h.sound
    have hstate : (BlobCall.step root d .sweepOrphans).2 = d' := by
      rw [BlobCall.step, hexec]
    show BinaryFileStorage.read (BlobCall.step root d .sweepOrphans).2 n = _
    rw [hstate]
    exact (hsame n hn).read

theorem represents_final (root : Bytes) {d : Disk} (hd : d.Sound)
    (hparts : ∀ n ∈ d.dir, isPart n = true) (calls : List BlobCall)
    (hcalls : ∀ c ∈ calls, c.Regular) :
    Represents (final (BlobCall.step root) d calls) (blobMap calls) := by
  induction calls using List.reverseRecOn with
  | nil => exact .of_parts hd hparts
  | append_singleton calls c ih =>
      rw [final_concat, blobMap_concat]
      exact (ih fun c' hc' => hcalls c' (List.mem_append_left _ hc')).step (hcalls c (by simp))

/-- After any calls on a root that held nothing but `.part` files, the next call answers as the map
does that the calls have made: a read returns what the last write put there. -/
theorem storage_follows_map (root : Bytes) {d : Disk} (hd : d.Sound)
    (hparts : ∀ n ∈ d.dir, isPart n = true) (calls : List BlobCall)
    (hcalls : ∀ c ∈ calls, c.Regular) (c : BlobCall) (hc : c.Regular) :
    let t : Transition Disk BlobCall BlobResult :=
      .of (BlobCall.step root) (final (BlobCall.step root) d calls) c
    FollowsMap (blobMap calls) t ∧
      ∀ k v, c = .read k → (t.output = .data (.ok v) ↔ LastWrite calls k v) := by
  intro t
  have hfollows : FollowsMap (blobMap calls) t :=
    (represents_final root hd hparts calls hcalls).follows hc
  refine ⟨hfollows, fun k v hread => ?_⟩
  rw [hfollows.read k hread, BlobResult.data.injEq, readResult_eq_ok_iff, blobMap_eq_some_iff]

/-- Two writes and a sweep, over a leftover of the first write. -/
def leftoverCalls : List BlobCall :=
  [.stagedWrite (ascii "a.bin") [1], .write (ascii "a.bin") [2], .sweepOrphans]

/-- The read after them, on a root that held the leftover. -/
def leftoverRead : Transition Disk BlobCall BlobResult :=
  .of (BlobCall.step (ascii "./storage/encrypted"))
    (final (BlobCall.step (ascii "./storage/encrypted")) (oneFile (ascii "tmp.a.bin.part") [7])
      leftoverCalls)
    (.read (ascii "a.bin"))

theorem storage_follows_map_leftover :
    blobMap leftoverCalls (ascii "a.bin") = some [2] ∧
      FollowsMap (blobMap leftoverCalls) leftoverRead ∧
      ∀ k v, BlobCall.read (ascii "a.bin") = .read k →
        (leftoverRead.output = .data (.ok v) ↔ LastWrite leftoverCalls k v) := by
  have hname : BinName (ascii "a.bin") := by decide
  refine ⟨by decide, storage_follows_map _ (sound_oneFile _ _) ?_ _ ?_ _ hname⟩
  · intro n hn
    obtain ⟨i, hi⟩ := Option.isSome_iff_exists.1 (AList.lookup_isSome.2 hn)
    rw [(lookup_oneFile hi).1]
    decide
  · intro c hc
    rcases List.mem_cons.1 hc with rfl | hc
    · exact hname
    rcases List.mem_cons.1 hc with rfl | hc
    · exact hname
    rw [List.mem_singleton.1 hc]
    trivial

end SecureFileTransfer
