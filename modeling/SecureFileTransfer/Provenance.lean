import SecureFileTransfer.Lib.Runs
import SecureFileTransfer.StoreSteps

/-!
# Provenance — where a record and its blob come from

For any machine whose states hold a world: every record appeared in one transition of the run, and
that transition made the upload whose bytes are the record's blob.
-/

namespace SecureFileTransfer

open Runs

variable {b : Backend} {env : Env} {σ ι ο : Type} {world : σ → World b}
  {uploads : Transition σ ι ο → UploadArgs → Prop} {h : List (Transition σ ι ο)}
  {t : Transition σ ι ο}

/-- The record appears in this transition. -/
def Creates (world : σ → World b) (t : Transition σ ι ο) (r : FileRecord) : Prop :=
  r ∉ b.records (world t.before).files ∧ r ∈ b.records (world t.after).files

/-- Every record appeared in some transition, which called `upload` with the bytes that are its
blob now. -/
structure Traceable (world : σ → World b) (uploads : Transition σ ι ο → UploadArgs → Prop)
    (h : List (Transition σ ι ο)) (w : World b) : Prop where
  created : ∀ r ∈ b.records w.files, ∃ t ∈ h, Creates world t r
  content : ∀ t ∈ h, ∀ r, Creates world t r → r ∈ b.records w.files ∧
    ∃ a, uploads t a ∧ w.blobs.lookup r.storageId = some a.opaqueBytes

theorem Traceable.nil : Traceable world uploads [] (World.empty b) where
  created := by
    intro r hr
    rw [show b.records (World.empty b).files = [] from b.fileView.records_empty] at hr
    cases hr
  content := by simp

/-- A record that can be traced has its blob. -/
theorem Traceable.mem_blobs {w : World b} {r : FileRecord} (htr : Traceable world uploads h w)
    (hr : r ∈ b.records w.files) : r.storageId ∈ w.blobs := by
  obtain ⟨u, hu, hcr⟩ := htr.created r hr
  obtain ⟨-, a, -, hblob⟩ := htr.content u hu r hcr
  exact AList.lookup_isSome.1 (by rw [hblob]; rfl)

/-- A transition that adds no record, and no blob but one under a new name. -/
theorem Traceable.of_files (htr : Traceable world uploads h (world t.before))
    (hfiles : (world t.after).files = (world t.before).files)
    (hblobs : ∀ k ∈ (world t.before).blobs,
      (world t.after).blobs.lookup k = (world t.before).blobs.lookup k) :
    Traceable world uploads (h ++ [t]) (world t.after) where
  created := by
    rw [hfiles]
    intro r hr
    obtain ⟨u, hu, hcr⟩ := htr.created r hr
    exact ⟨u, List.mem_append_left _ hu, hcr⟩
  content := by
    rw [hfiles]
    intro u hu r hcr
    rcases List.mem_append.1 hu with hu | hu
    · obtain ⟨hr, a, ha, hblob⟩ := htr.content u hu r hcr
      exact ⟨hr, a, ha, by rw [hblobs _ (htr.mem_blobs hr)]; exact hblob⟩
    · obtain rfl := List.mem_singleton.1 hu
      exact absurd (hfiles ▸ hcr.2) hcr.1

theorem Traceable.kept (htr : Traceable world uploads h (world t.before))
    (hk : Kept (world t.before) (world t.after)) :
    Traceable world uploads (h ++ [t]) (world t.after) :=
  htr.of_files hk.files fun k _ => by rw [hk.blobs]

section Upload

variable {a : UploadArgs} {w₁ : World b}

/-- The upload may be preceded by calls that only read. -/
theorem Traceable.orphaned (htr : Traceable world uploads h (world t.before))
    (hq : Quiet (world t.before) w₁) (hs : Sound env w₁) (hfresh : FreshIds env (world t.after).ids)
    (horph : Orphaned env a w₁ (world t.after)) :
    Traceable world uploads (h ++ [t]) (world t.after) := by
  have hblobs₁ : w₁.blobs = (world t.before).blobs := congrArg Stores.blobs hq.stores
  refine htr.of_files (horph.files.trans (congrArg Stores.files hq.stores)) fun k hk => ?_
  have hne : k ≠ uploadStorageId env w₁ := by
    rintro rfl
    exact hs.uploadStorageId_not_mem (hfresh.mono horph.ids) (hblobs₁ ▸ hk)
  rw [horph.blobs, AList.lookup_insert_ne hne, hblobs₁]

theorem Traceable.stored {r : FileRecord} (htr : Traceable world uploads h (world t.before))
    (hq : Quiet (world t.before) w₁) (hs : Sound env w₁) (hfresh : FreshIds env (world t.after).ids)
    (hst : Stored env a w₁ (world t.after) r) (ha : uploads t a) :
    Traceable world uploads (h ++ [t]) (world t.after) := by
  have hfiles₁ : w₁.files = (world t.before).files := congrArg Stores.files hq.stores
  have hblobs₁ : w₁.blobs = (world t.before).blobs := congrArg Stores.blobs hq.stores
  have hrecords := hst.records
  have hnew := hst.new
  rw [hfiles₁] at hrecords hnew
  have hname : r.storageId ∉ (world t.before).blobs := by
    rw [hst.storageId, ← hblobs₁]
    exact hs.uploadStorageId_not_mem (hfresh.mono (by rw [hst.ids]; omega))
  constructor
  · intro x hx
    rcases (hrecords x).1 hx with hold | rfl
    · obtain ⟨u, hu, hcr⟩ := htr.created x hold
      exact ⟨u, List.mem_append_left _ hu, hcr⟩
    · exact ⟨t, by simp, hnew, hx⟩
  · intro u hu x hcr
    rw [hst.blobs, hblobs₁]
    rcases List.mem_append.1 hu with hu | hu
    · obtain ⟨hx, a', ha', hblob⟩ := htr.content u hu x hcr
      have hne : x.storageId ≠ r.storageId := fun heq => hname (heq ▸ htr.mem_blobs hx)
      exact ⟨(hrecords x).2 (.inl hx), a', ha', by rw [AList.lookup_insert_ne hne]; exact hblob⟩
    · obtain rfl := List.mem_singleton.1 hu
      rcases (hrecords x).1 hcr.2 with hold | rfl
      · exact absurd hold hcr.1
      · exact ⟨hcr.2, a, ha, AList.lookup_insert _⟩

end Upload

end SecureFileTransfer
