import Mathlib.Data.List.Induction
import Mathlib.Data.Nat.Bitwise

/-!
# Bytes — byte strings and big-endian words

Byte strings are lists of `UInt8`.  A fixed-width unsigned word is written most significant byte
first; `beBytes` and `beNat` are the two directions over `Nat`, and the machine-word writers of a
wire format are read through them.
-/

namespace SecureFileTransfer

abbrev Bytes := List UInt8

/-- The bytes of a text whose characters are all below 256. -/
def ascii (s : String) : Bytes :=
  s.toList.map fun c => UInt8.ofNat c.toNat

/-- A statement about every byte is a table of 256 lines. -/
theorem forall_byte {P : UInt8 → Prop} (h : ∀ n < 256, P (UInt8.ofNat n)) (c : UInt8) : P c := by
  have hc := h c.toNat c.toNat_lt
  rwa [UInt8.ofNat_toNat] at hc

namespace Bytes

/-! ## Big-endian numerals -/

/-- The number a byte string denotes, most significant byte first. -/
def beNat (bs : Bytes) : Nat :=
  bs.foldl (fun acc b => acc * 256 + b.toNat) 0

/-- The `n` low-order base-256 digits of `v`, most significant first. -/
def beBytes : Nat → Nat → Bytes
  | 0, _ => []
  | n + 1, v => beBytes n (v / 256) ++ [UInt8.ofNat v]

@[simp] theorem length_beBytes (n v : Nat) : (beBytes n v).length = n := by
  induction n generalizing v with
  | zero => rfl
  | succ n ih => simp [beBytes, ih]

@[simp] theorem beNat_nil : beNat [] = 0 := rfl

@[simp] theorem beNat_concat (bs : Bytes) (b : UInt8) :
    beNat (bs ++ [b]) = beNat bs * 256 + b.toNat := by
  simp [beNat]

theorem beNat_lt (bs : Bytes) : beNat bs < 256 ^ bs.length := by
  induction bs using List.reverseRecOn with
  | nil => simp
  | append_singleton bs b ih =>
      have hb : b.toNat < 256 := b.toNat_lt
      simp only [beNat_concat, List.length_append, List.length_singleton, Nat.pow_succ]
      omega

theorem beNat_beBytes {n v : Nat} (h : v < 256 ^ n) : beNat (beBytes n v) = v := by
  induction n generalizing v with
  | zero =>
      have hv : v = 0 := by simpa using h
      simp [beBytes, hv]
  | succ n ih =>
      have hdiv : v / 256 < 256 ^ n := by
        rw [Nat.pow_succ] at h
        exact Nat.div_lt_of_lt_mul (by simpa [Nat.mul_comm] using h)
      have hmod : (UInt8.ofNat v).toNat = v % 256 := by simp
      simp only [beBytes, beNat_concat, ih hdiv, hmod]
      omega

theorem beBytes_beNat (bs : Bytes) : beBytes bs.length (beNat bs) = bs := by
  induction bs using List.reverseRecOn with
  | nil => rfl
  | append_singleton bs b ih =>
      have hb : b.toNat < 256 := b.toNat_lt
      have hdiv : (beNat bs * 256 + b.toNat) / 256 = beNat bs := by omega
      have hlow : UInt8.ofNat (beNat bs * 256 + b.toNat) = b := by
        apply UInt8.toNat_inj.1
        simp
      simp only [List.length_append, List.length_singleton, beNat_concat, beBytes, hdiv, ih, hlow]

end Bytes

end SecureFileTransfer
