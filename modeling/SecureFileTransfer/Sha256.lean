import SecureFileTransfer.Domain
import SecureFileTransfer.Lib.StdString

/-!
# Sha256 — the vendored SHA-256

`real_sha256` of `include/infrastructure/sha256.hpp`, word for word: the audit chain, the session
store and the crypto provider hash through it.
-/

namespace SecureFileTransfer
namespace RealSha256

open StdString

def ch (x y z : UInt32) : UInt32 := (x &&& y) ^^^ (~~~x &&& z)

def maj (x y z : UInt32) : UInt32 := (x &&& y) ^^^ (x &&& z) ^^^ (y &&& z)

def rotr (x n : UInt32) : UInt32 := (x >>> n) ||| (x <<< (32 - n))

def bsig0 (x : UInt32) : UInt32 := rotr x 2 ^^^ rotr x 13 ^^^ rotr x 22

def bsig1 (x : UInt32) : UInt32 := rotr x 6 ^^^ rotr x 11 ^^^ rotr x 25

def ssig0 (x : UInt32) : UInt32 := rotr x 7 ^^^ rotr x 18 ^^^ (x >>> 3)

def ssig1 (x : UInt32) : UInt32 := rotr x 17 ^^^ rotr x 19 ^^^ (x >>> 10)

def k : List UInt32 :=
  [ 0x428a2f98, 0x71374491, 0xb5c0fbcf, 0xe9b5dba5, 0x3956c25b, 0x59f111f1, 0x923f82a4, 0xab1c5ed5,
    0xd807aa98, 0x12835b01, 0x243185be, 0x550c7dc3, 0x72be5d74, 0x80deb1fe, 0x9bdc06a7, 0xc19bf174,
    0xe49b69c1, 0xefbe4786, 0x0fc19dc6, 0x240ca1cc, 0x2de92c6f, 0x4a7484aa, 0x5cb0a9dc, 0x76f988da,
    0x983e5152, 0xa831c66d, 0xb00327c8, 0xbf597fc7, 0xc6e00bf3, 0xd5a79147, 0x06ca6351, 0x14292967,
    0x27b70a85, 0x2e1b2138, 0x4d2c6dfc, 0x53380d13, 0x650a7354, 0x766a0abb, 0x81c2c92e, 0x92722c85,
    0xa2bfe8a1, 0xa81a664b, 0xc24b8b70, 0xc76c51a3, 0xd192e819, 0xd6990624, 0xf40e3585, 0x106aa070,
    0x19a4c116, 0x1e376c08, 0x2748774c, 0x34b0bcb5, 0x391c0cb3, 0x4ed8aa4a, 0x5b9cca4f, 0x682e6ff3,
    0x748f82ee, 0x78a5636f, 0x84c87814, 0x8cc70208, 0x90befffa, 0xa4506ceb, 0xbef9a3f7, 0xc67178f2 ]

/-- The eight chaining words, and the eight working variables of a block. -/
structure Words where
  a : UInt32
  b : UInt32
  c : UInt32
  d : UInt32
  e : UInt32
  f : UInt32
  g : UInt32
  hh : UInt32

def initial : Words :=
  { a := 0x6a09e667
    b := 0xbb67ae85
    c := 0x3c6ef372
    d := 0xa54ff53a
    e := 0x510e527f
    f := 0x9b05688c
    g := 0x1f83d9ab
    hh := 0x5be0cd19 }

/-! ## Padding -/

/-- How often `while((data.size()*8)%512 != 448)` runs on `size` bytes. -/
def zeroCount : Nat → Nat → Nat
  | 0, _ => 0
  | fuel + 1, size => if size * 8 % 512 ≠ 448 then 1 + zeroCount fuel (size + 1) else 0

-- the loop meets its exit within one block, so 64 rounds are enough
def pad (msg : Bytes) : Bytes :=
  let bitlen := UInt64.ofNat msg.length * 8
  msg ++ [0x80] ++ List.replicate (zeroCount 64 (msg.length + 1)) 0 ++
    (List.range 8).map fun i => (bitlen >>> UInt64.ofNat ((7 - i) * 8)).toUInt8

/-! ## Blocks -/

/-- `w[0..16]`, read from the block. -/
def blockWords : Bytes → List UInt32
  | b0 :: b1 :: b2 :: b3 :: rest =>
      ((b0.toUInt32 <<< 24) ||| (b1.toUInt32 <<< 16) ||| (b2.toUInt32 <<< 8) ||| b3.toUInt32) ::
        blockWords rest
  | _ => []

/-- `n` further words of the schedule; the list is newest first, so `w[i-2]` stands at 1. -/
def schedule : Nat → List UInt32 → List UInt32
  | 0, w => w
  | n + 1, w =>
      schedule n
        ((ssig1 (w.getD 1 0) + w.getD 6 0 + ssig0 (w.getD 14 0) + w.getD 15 0) :: w)

def round (s : Words) (kw : UInt32 × UInt32) : Words :=
  let t1 := s.hh + bsig1 s.e + ch s.e s.f s.g + kw.1 + kw.2
  let t2 := bsig0 s.a + maj s.a s.b s.c
  { a := t1 + t2
    b := s.a
    c := s.b
    d := s.c
    e := s.d + t1
    f := s.e
    g := s.f
    hh := s.g }

def compress (h : Words) (chunk : Bytes) : Words :=
  let w := (schedule 48 (blockWords chunk).reverse).reverse
  let v := (k.zip w).foldl round h
  { a := h.a + v.a
    b := h.b + v.b
    c := h.c + v.c
    d := h.d + v.d
    e := h.e + v.e
    f := h.f + v.f
    g := h.g + v.g
    hh := h.hh + v.hh }

def chunks : Nat → Words → Bytes → Words
  | 0, h, _ => h
  | n + 1, h, data => chunks n (compress h (data.take 64)) (data.drop 64)

def wordBytes (x : UInt32) : Bytes :=
  [(x >>> 24).toUInt8, (x >>> 16).toUInt8, (x >>> 8).toUInt8, x.toUInt8]

def hashBytes (msg : Bytes) : Digest :=
  let data := pad msg
  let h := chunks (data.length / 64) initial data
  ⟨wordBytes h.a ++ wordBytes h.b ++ wordBytes h.c ++ wordBytes h.d ++ wordBytes h.e ++
      wordBytes h.f ++ wordBytes h.g ++ wordBytes h.hh, rfl⟩

/-- `hex(const std::string&)` -/
def hex (s : Bytes) : Bytes := hexBytes (hashBytes s).1

set_option maxRecDepth 100000 in
example : hex (ascii "abc") =
    ascii "ba7816bf8f01cfea414140de5dae2223b00361a396177a9cb410ff61f20015ad" := by
  decide +kernel

theorem isHexDigit_of_mem_hex {s : Bytes} {b : UInt8} (hb : b ∈ hex s) : isHexDigit b :=
  isHexDigit_of_mem_hexBytes hb

end RealSha256
end SecureFileTransfer
