import SecureFileTransfer.Domain

/-!
# Transport — frames and their byte layout

`include/ports/transport.hpp`: the frame, the big-endian writers and readers, and `encodeFrame`.
A read through a pointer into a buffer is a function of the buffer and the offset that is `none`
when any of the bytes lies outside, so that an out-of-bounds access stays visible in the callers.
-/

namespace SecureFileTransfer

/-! ## Frames -/

/-- `enum class MsgType : uint8_t`.  A received type is a cast of an arbitrary byte, so the
enumeration is its code together with the named constants. -/
structure MsgType where
  code : UInt8
  deriving DecidableEq, Repr

namespace MsgType

def HELLO : MsgType := ⟨1⟩
def AUTH : MsgType := ⟨2⟩
def REGISTER : MsgType := ⟨3⟩
def LOGOUT : MsgType := ⟨4⟩
def ADMIN_ACTIVATE : MsgType := ⟨5⟩
def ADMIN_DEACTIVATE : MsgType := ⟨6⟩
def UPLOAD_INIT : MsgType := ⟨7⟩
def UPLOAD_DATA : MsgType := ⟨8⟩
def UPLOAD_COMMIT : MsgType := ⟨9⟩
def DOWNLOAD_REQ : MsgType := ⟨10⟩
def DOWNLOAD_DATA : MsgType := ⟨11⟩
def LIST : MsgType := ⟨12⟩
def ERR : MsgType := ⟨255⟩

end MsgType

structure Frame where
  type : MsgType := MsgType.HELLO
  requestId : UInt32 := 0
  body : Bytes := []
  deriving DecidableEq, Repr

/-! ## Writers and readers -/

def put32be (x : UInt32) : Bytes :=
  [((x >>> 24) &&& 0xFF).toUInt8, ((x >>> 16) &&& 0xFF).toUInt8,
    ((x >>> 8) &&& 0xFF).toUInt8, (x &&& 0xFF).toUInt8]

def put64be (x : UInt64) : Bytes :=
  [((x >>> 56) &&& 0xFF).toUInt8, ((x >>> 48) &&& 0xFF).toUInt8,
    ((x >>> 40) &&& 0xFF).toUInt8, ((x >>> 32) &&& 0xFF).toUInt8,
    ((x >>> 24) &&& 0xFF).toUInt8, ((x >>> 16) &&& 0xFF).toUInt8,
    ((x >>> 8) &&& 0xFF).toUInt8, (x &&& 0xFF).toUInt8]

def word32 (b₀ b₁ b₂ b₃ : UInt8) : UInt32 :=
  (b₀.toUInt32 <<< 24) ||| (b₁.toUInt32 <<< 16) ||| (b₂.toUInt32 <<< 8) ||| b₃.toUInt32

/-- `get32be(b.data()+off)`. -/
def get32be (b : Bytes) (off : Nat) : Option UInt32 :=
  match b.drop off with
  | b₀ :: b₁ :: b₂ :: b₃ :: _ => some (word32 b₀ b₁ b₂ b₃)
  | _ => none

/-- One round of the loop of `get64be`. -/
def shiftIn (v : UInt64) (p : UInt8) : UInt64 := (v <<< 8) ||| p.toUInt64

/-- `get64be(b.data()+off)`. -/
def get64be (b : Bytes) (off : Nat) : Option UInt64 :=
  if off + 8 ≤ b.length then
    some (((b.drop off).take 8).foldl shiftIn 0)
  else
    none

/-- The byte string between the iterators `b.begin()+i` and `b.begin()+j`. -/
def slice (b : Bytes) (i j : Nat) : Option Bytes :=
  if i ≤ j ∧ j ≤ b.length then some ((b.drop i).take (j - i)) else none

/-- `putStringWithLen` and `putBytesWithLen`; the length is cast to 32 bits. -/
def putBytesWithLen (s : Bytes) : Bytes :=
  put32be (UInt32.ofNat s.length) ++ s

def encodeFrame (f : Frame) : Bytes :=
  let payload := f.type.code :: put32be f.requestId ++ f.body
  put32be (UInt32.ofNat payload.length) ++ payload

/-! ## The writers as big-endian numerals -/

theorem toNat_byte (n : Nat) : n &&& 255 = n % 256 :=
  Nat.and_two_pow_sub_one_eq_mod n 8

theorem put32be_eq (x : UInt32) : put32be x = Bytes.beBytes 4 x.toNat := by
  have hx : x.toNat < 4294967296 := x.toNat_lt
  simp only [put32be, Bytes.beBytes, List.nil_append, List.cons_append, List.cons.injEq, and_true]
  refine ⟨?_, ?_, ?_, ?_⟩ <;>
    · apply UInt8.toNat_inj.1
      simp [Nat.shiftRight_eq_div_pow, toNat_byte]
      try omega

theorem put64be_eq (x : UInt64) : put64be x = Bytes.beBytes 8 x.toNat := by
  have hx : x.toNat < 18446744073709551616 := x.toNat_lt
  simp only [put64be, Bytes.beBytes, List.nil_append, List.cons_append, List.cons.injEq, and_true]
  -- eight digits to the base 256, each cut out by a shift and a mask
  refine ⟨?_, ?_, ?_, ?_, ?_, ?_, ?_, ?_⟩ <;>
    · apply UInt8.toNat_inj.1
      simp [Nat.shiftRight_eq_div_pow, toNat_byte]
      try omega

/-- Shifting a disjoint byte in is the next base-256 digit. -/
theorem shiftLeft_or_byte (n : Nat) {b : Nat} (hb : b < 256) : n <<< 8 ||| b = n * 256 + b := by
  rw [← Nat.shiftLeft_add_eq_or_of_lt (by simpa using hb), Nat.shiftLeft_eq]

theorem word32_toNat (b₀ b₁ b₂ b₃ : UInt8) :
    (word32 b₀ b₁ b₂ b₃).toNat = Bytes.beNat [b₀, b₁, b₂, b₃] := by
  have h₀ : b₀.toNat < 256 := b₀.toNat_lt
  have h₁ : b₁.toNat < 256 := b₁.toNat_lt
  have h₂ : b₂.toNat < 256 := b₂.toNat_lt
  have h₃ : b₃.toNat < 256 := b₃.toNat_lt
  -- collect the four disjoint bytes one digit at a time
  have hdigits : b₀.toNat <<< 24 ||| b₁.toNat <<< 16 ||| b₂.toNat <<< 8 ||| b₃.toNat =
      (((b₀.toNat <<< 8 ||| b₁.toNat) <<< 8 ||| b₂.toNat) <<< 8) ||| b₃.toNat := by
    simp only [Nat.shiftLeft_or_distrib, ← Nat.shiftLeft_add]
  have hshift : ∀ n k : Nat, n < 256 → k ≤ 24 → n <<< k % 4294967296 = n <<< k := by
    intro n k hn hk
    apply Nat.mod_eq_of_lt
    calc n <<< k = n * 2 ^ k := Nat.shiftLeft_eq n k
      _ ≤ n * 2 ^ 24 := Nat.mul_le_mul_left n (Nat.pow_le_pow_right (by decide) hk)
      _ < 4294967296 := by omega
  have hmach : (word32 b₀ b₁ b₂ b₃).toNat =
      b₀.toNat <<< 24 ||| b₁.toNat <<< 16 ||| b₂.toNat <<< 8 ||| b₃.toNat := by
    simp [word32, hshift _ _ h₀, hshift _ _ h₁, hshift _ _ h₂]
  rw [hmach, hdigits, shiftLeft_or_byte _ h₁, shiftLeft_or_byte _ h₂, shiftLeft_or_byte _ h₃]
  simp [Bytes.beNat]

theorem shiftIn_toNat (v : UInt64) (p : UInt8) (hv : v.toNat < 2 ^ 56) :
    (shiftIn v p).toNat = v.toNat * 256 + p.toNat := by
  have hp : p.toNat < 256 := p.toNat_lt
  -- below 2^56 nothing is shifted out
  have hmod : v.toNat <<< 8 % 18446744073709551616 = v.toNat <<< 8 := by
    apply Nat.mod_eq_of_lt
    rw [Nat.shiftLeft_eq]
    omega
  simp [shiftIn, hmod, shiftLeft_or_byte _ hp]

/-- Up to eight bytes shifted in denote the numeral they spell. -/
theorem foldl_shiftIn_toNat (bs : Bytes) (h : bs.length ≤ 8) :
    (bs.foldl shiftIn 0).toNat = Bytes.beNat bs := by
  induction bs using List.reverseRecOn with
  | nil => rfl
  | append_singleton bs b ih =>
      have hlen : bs.length ≤ 7 := by
        rw [List.length_append, List.length_singleton] at h
        omega
      have hbs : (bs.foldl shiftIn 0).toNat = Bytes.beNat bs := ih (by omega)
      have hlt : Bytes.beNat bs < 2 ^ 56 := by
        calc Bytes.beNat bs < 256 ^ bs.length := Bytes.beNat_lt bs
          _ ≤ 256 ^ 7 := Nat.pow_le_pow_right (by decide) hlen
          _ = 2 ^ 56 := by decide
      rw [List.foldl_append, List.foldl_cons, List.foldl_nil,
        shiftIn_toNat _ _ (by rw [hbs]; exact hlt), hbs, Bytes.beNat_concat]

@[simp] theorem length_put32be (x : UInt32) : (put32be x).length = 4 := rfl

@[simp] theorem length_put64be (x : UInt64) : (put64be x).length = 8 := rfl

/-! ## The readers against the writers -/

theorem put32be_word32 (b₀ b₁ b₂ b₃ : UInt8) :
    put32be (word32 b₀ b₁ b₂ b₃) = [b₀, b₁, b₂, b₃] := by
  rw [put32be_eq, word32_toNat]
  exact Bytes.beBytes_beNat [b₀, b₁, b₂, b₃]

theorem put32be_injective {x y : UInt32} (h : put32be x = put32be y) : x = y := by
  have hx : x.toNat < 256 ^ 4 := x.toNat_lt
  have hy : y.toNat < 256 ^ 4 := y.toNat_lt
  have hnat := congrArg Bytes.beNat h
  rw [put32be_eq, put32be_eq, Bytes.beNat_beBytes hx, Bytes.beNat_beBytes hy] at hnat
  exact UInt32.toNat_inj.1 hnat

/-- The 32-bit reader returns the word whose encoding stands at the offset. -/
theorem get32be_eq_some_iff {b : Bytes} {off : Nat} {w : UInt32} :
    get32be b off = some w ↔ put32be w <+: b.drop off := by
  unfold get32be
  split
  · next b₀ b₁ b₂ b₃ rest hb =>
      rw [Option.some_inj]
      constructor
      · rintro rfl
        rw [put32be_word32]
        exact ⟨rest, hb.symm⟩
      · intro hpre
        apply put32be_injective
        rw [put32be_word32, List.prefix_iff_eq_take.1 hpre, hb]
        rfl
  · next hb =>
      constructor
      · intro h
        cases h
      · rintro ⟨rest, hrest⟩
        exact absurd hrest.symm (hb _ _ _ _ rest)

theorem drop_eq_of_get32be {b : Bytes} {off : Nat} {len : UInt32}
    (hlen : get32be b off = some len) : b.drop off = put32be len ++ b.drop (off + 4) := by
  obtain ⟨rest, hrest⟩ := get32be_eq_some_iff.1 hlen
  rw [← List.drop_drop, ← hrest, List.drop_left' (length_put32be len)]

theorem get32be_isSome {b : Bytes} {off : Nat} (h : off + 4 ≤ b.length) :
    ∃ w, get32be b off = some w := by
  have hlen : 4 ≤ (b.drop off).length := by
    rw [List.length_drop]
    omega
  unfold get32be
  match hd : b.drop off with
  | b₀ :: b₁ :: b₂ :: b₃ :: _ => exact ⟨_, rfl⟩
  | [] | [_] | [_, _] | [_, _, _] => simp [hd] at hlen

/-- The 64-bit reader returns the word whose encoding stands at the offset. -/
theorem get64be_eq_some_iff {b : Bytes} {off : Nat} {w : UInt64} :
    get64be b off = some w ↔ put64be w <+: b.drop off := by
  have hw : w.toNat < 256 ^ 8 := w.toNat_lt
  constructor
  · intro h
    unfold get64be at h
    split at h
    · next hlen =>
        have htake : ((b.drop off).take 8).length = 8 := by
          rw [List.length_take, List.length_drop]
          omega
        cases h
        -- eight bytes spell a number that is written back as the same eight bytes
        rw [put64be_eq, foldl_shiftIn_toNat _ htake.le]
        have hself := Bytes.beBytes_beNat ((b.drop off).take 8)
        rw [htake] at hself
        rw [hself]
        exact List.take_prefix _ _
    · cases h
  · rintro ⟨rest, hrest⟩
    have hlen : off + 8 ≤ b.length := by
      have h := congrArg List.length hrest
      rw [List.length_append, length_put64be, List.length_drop] at h
      omega
    have htake : (b.drop off).take 8 = put64be w := by
      rw [← hrest]
      exact List.take_left' (length_put64be w)
    rw [get64be, if_pos hlen, htake, Option.some_inj]
    apply UInt64.toNat_inj.1
    rw [foldl_shiftIn_toNat _ (length_put64be w).le, put64be_eq, Bytes.beNat_beBytes hw]

theorem get64be_isSome {b : Bytes} {off : Nat} (h : off + 8 ≤ b.length) :
    ∃ w, get64be b off = some w :=
  ⟨_, if_pos h⟩

theorem slice_of_le {b : Bytes} {i j : Nat} (hij : i ≤ j) (hj : j ≤ b.length) :
    slice b i j = some ((b.drop i).take (j - i)) :=
  if_pos ⟨hij, hj⟩

end SecureFileTransfer
