import Mathlib.Data.List.Basic
import Mathlib.Data.List.Induction

/-!
# MerkleDamgard — hashing by iterated compression

A message is cut into blocks, and a compression function folds them into a chaining value.  Two
different lists of blocks that end in the same value make the compression function collide
somewhere along the way, provided the last block tells how many blocks there are.
-/

namespace SecureFileTransfer
namespace MerkleDamgard

variable {σ β : Type} (f : σ → β → σ)

/-- The inputs the compression function is given: the chaining value before a block, and the block. -/
def inputs : σ → List β → List (σ × β)
  | _, [] => []
  | s, b :: bs => (s, b) :: inputs (f s b) bs

/-- Two different inputs of the two computations have the same output. -/
def Collide (s : σ) (xs ys : List β) : Prop :=
  ∃ p ∈ inputs f s xs, ∃ q ∈ inputs f s ys, p ≠ q ∧ f p.1 p.2 = f q.1 q.2

variable {f} {s : σ} {xs ys : List β} {x y : β}

theorem inputs_concat (s : σ) (xs : List β) (x : β) :
    inputs f s (xs ++ [x]) = inputs f s xs ++ [(xs.foldl f s, x)] := by
  induction xs generalizing s with
  | nil => rfl
  | cons b bs ih => exact congrArg (List.cons _) (ih (f s b))

theorem Collide.concat (h : Collide f s xs ys) : Collide f s (xs ++ [x]) (ys ++ [y]) := by
  obtain ⟨p, hp, q, hq, hne, heq⟩ := h
  rw [Collide, inputs_concat, inputs_concat]
  exact ⟨p, List.mem_append_left _ hp, q, List.mem_append_left _ hq, hne, heq⟩

/-- The last steps agree, so they collide or they were given the same. -/
theorem last_step (h : (xs ++ [x]).foldl f s = (ys ++ [y]).foldl f s) :
    Collide f s (xs ++ [x]) (ys ++ [y]) ∨ (xs.foldl f s = ys.foldl f s ∧ x = y) := by
  by_cases hsame : ((xs.foldl f s, x) : σ × β) = (ys.foldl f s, y)
  · exact .inr (Prod.mk.inj hsame)
  · refine .inl ⟨(xs.foldl f s, x), ?_, (ys.foldl f s, y), ?_, hsame, ?_⟩
    · rw [inputs_concat]
      exact List.mem_append_right _ (List.mem_singleton.2 rfl)
    · rw [inputs_concat]
      exact List.mem_append_right _ (List.mem_singleton.2 rfl)
    · rw [List.foldl_concat, List.foldl_concat] at h
      exact h

/-- Two computations of the same length with the same result. -/
theorem collide_of_length_eq (hlength : xs.length = ys.length) (hne : xs ≠ ys)
    (h : xs.foldl f s = ys.foldl f s) : Collide f s xs ys := by
  -- from the last block backwards, until the inputs differ
  induction xs using List.reverseRecOn generalizing ys with
  | nil => exact absurd (List.length_eq_zero_iff.1 hlength.symm).symm hne
  | append_singleton xs x ih =>
      cases ys using List.reverseRecOn with
      | nil => simp at hlength
      | append_singleton ys y =>
          rcases last_step h with hcollide | ⟨hbefore, rfl⟩
          · exact hcollide
          · have hlength' : xs.length = ys.length := by simpa using hlength
            have hne' : xs ≠ ys := fun heq => hne (by rw [heq])
            exact (ih hlength' hne' hbefore).concat

/-- Two computations whose last blocks differ whenever their lengths do. -/
theorem collide_of_strengthened (hlast : x = y → xs.length = ys.length)
    (hne : xs ++ [x] ≠ ys ++ [y]) (h : (xs ++ [x]).foldl f s = (ys ++ [y]).foldl f s) :
    Collide f s (xs ++ [x]) (ys ++ [y]) := by
  rcases last_step h with hcollide | ⟨-, hxy⟩
  · exact hcollide
  · refine collide_of_length_eq ?_ hne h
    rw [List.length_append, List.length_append, hlast hxy, List.length_singleton,
      List.length_singleton]

end MerkleDamgard
end SecureFileTransfer
