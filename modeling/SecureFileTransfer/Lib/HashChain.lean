import Mathlib.Data.List.Basic
import Mathlib.Data.List.Induction
import Mathlib.Data.List.Nodup

/-!
# HashChain — records that commit to all records before them

A record carries the digest of the record before it and its own digest, the hash of a message that
covers everything else.  If the hash does not collide on the messages that occur, a chain is
determined by the digest of its last record.
-/

namespace SecureFileTransfer
namespace HashChain

variable {R M H : Type}

/-- What a record holds, seen by the chain: the message that is hashed, the digest of the record
before it and its own. -/
structure Format (R M H : Type) where
  message : R → M
  prev : R → H
  digest : R → H

/-- The message and the digest are the whole record, and the message covers the link. -/
structure Format.Covers (f : Format R M H) : Prop where
  link : ∀ {r r' : R}, f.message r = f.message r' → f.prev r = f.prev r'
  record : ∀ {r r' : R}, f.message r = f.message r' → f.digest r = f.digest r' → r = r'

/-- The records continue a chain whose last digest is `p`. -/
def Linked (f : Format R M H) (hash : M → H) : H → List R → Prop
  | _, [] => True
  | p, r :: rs => f.prev r = p ∧ hash (f.message r) = f.digest r ∧ Linked f hash (f.digest r) rs

/-- The digest a chain that starts after `g` ends with. -/
def lastDigest (f : Format R M H) (g : H) (rs : List R) : H :=
  (rs.getLast?.map f.digest).getD g

/-- No two of the messages have the same hash. -/
def CollisionFree (f : Format R M H) (hash : M → H) (rs : List R) : Prop :=
  ∀ x ∈ rs, ∀ y ∈ rs, hash (f.message x) = hash (f.message y) → f.message x = f.message y

variable {f : Format R M H} {hash : M → H}

@[simp] theorem lastDigest_nil (g : H) : lastDigest f g [] = g := rfl

@[simp] theorem lastDigest_concat (g : H) (rs : List R) (r : R) :
    lastDigest f g (rs ++ [r]) = f.digest r := by
  simp [lastDigest]

theorem lastDigest_cons (g : H) (r : R) (rs : List R) :
    lastDigest f g (r :: rs) = lastDigest f (f.digest r) rs := by
  cases rs using List.reverseRecOn with
  | nil => rfl
  | append_singleton rs s => rw [← List.cons_append, lastDigest_concat, lastDigest_concat]

theorem linked_concat {g : H} {rs : List R} {r : R} :
    Linked f hash g (rs ++ [r]) ↔
      Linked f hash g rs ∧ f.prev r = lastDigest f g rs ∧ hash (f.message r) = f.digest r := by
  induction rs generalizing g with
  | nil => simp [Linked]
  | cons s rs ih =>
      rw [List.cons_append, Linked, Linked, ih, lastDigest_cons]
      simp only [and_assoc]

/-- Fewer records collide less. -/
theorem CollisionFree.mono {rs rs' : List R} (h : CollisionFree f hash rs) (hsub : rs' ⊆ rs) :
    CollisionFree f hash rs' :=
  fun x hx y hy => h x (hsub hx) y (hsub hy)

theorem collisionFree_of_nodup {rs : List R}
    (h : (rs.map fun r => hash (f.message r)).Nodup) : CollisionFree f hash rs := by
  intro x hx y hy heq
  rw [List.inj_on_of_nodup_map h hx hy heq]

/-- A chain in which no record's message hashes to the start cannot come back to the start. -/
theorem Linked.lastDigest_ne {g : H} {rs : List R} {r : R} (hg : ∀ m, hash m ≠ g)
    (h : Linked f hash g (rs ++ [r])) : lastDigest f g (rs ++ [r]) ≠ g := by
  obtain ⟨-, -, hr⟩ := linked_concat.1 h
  rw [lastDigest_concat, ← hr]
  exact hg _

/-- Two chains with the same start and the same last digest are the same records. -/
theorem Linked.eq_of_lastDigest (hf : f.Covers) {g : H} (hg : ∀ m, hash m ≠ g) {rs rs' : List R}
    (hcol : CollisionFree f hash (rs ++ rs')) (h : Linked f hash g rs) (h' : Linked f hash g rs')
    (hlast : lastDigest f g rs = lastDigest f g rs') : rs = rs' := by
  -- from the last record backwards
  induction rs using List.reverseRecOn generalizing rs' with
  | nil =>
      cases rs' using List.reverseRecOn with
      | nil => rfl
      | append_singleton rs' r' => exact absurd hlast.symm (h'.lastDigest_ne hg)
  | append_singleton rs r ih =>
      cases rs' using List.reverseRecOn with
      | nil => exact absurd hlast (h.lastDigest_ne hg)
      | append_singleton rs' r' =>
          obtain ⟨hlinked, hprev, hhash⟩ := linked_concat.1 h
          obtain ⟨hlinked', hprev', hhash'⟩ := linked_concat.1 h'
          rw [lastDigest_concat, lastDigest_concat] at hlast
          -- equal digests, so equal messages; the link in them carries the equality one record back
          have hmessage : f.message r = f.message r' :=
            hcol r (by simp) r' (by simp) (by rw [hhash, hhash', hlast])
          have hbefore : lastDigest f g rs = lastDigest f g rs' := by
            rw [← hprev, ← hprev', hf.link hmessage]
          have hcol' : CollisionFree f hash (rs ++ rs') := hcol.mono (List.append_subset.2
            ⟨fun x hx => by simp [hx], fun x hx => by simp [hx]⟩)
          rw [ih hcol' hlinked hlinked' hbefore, hf.record hmessage hlast]

end HashChain
end SecureFileTransfer
