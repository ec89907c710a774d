import SecureFileTransfer.Lib.MerkleDamgard
import SecureFileTransfer.TamperEvidence

/-!
# HashReduction — what the collisions of the vendored SHA-256 come down to

Two messages with the same `RealSha256.hex` make the compression of one block collide, on two of the
inputs it is given while the two messages are hashed.  So a forged audit log is a collision of the
compression of one block.
-/

namespace SecureFileTransfer
namespace RealSha256

open MerkleDamgard StdString

/-! ## Padding -/

/-- The loop stops after at most `fuel` rounds if it gets that far. -/
theorem zeroCount_spec (fuel size : Nat) (h : (120 - size % 64) % 64 ≤ fuel) :
    (size + zeroCount fuel size) % 64 = 56 := by
  induction fuel generalizing size with
  | zero =>
      have hzero : (120 - size % 64) % 64 = 0 := Nat.le_zero.1 h
      rw [zeroCount]
      omega
  | succ fuel ih =>
      rw [zeroCount]
      by_cases hstop : size * 8 % 512 ≠ 448
      · rw [if_pos hstop]
        have hnext := ih (size + 1) (by omega)
        omega
      · rw [if_neg hstop]
        omega

/-- The eight bytes that tell the length of the message in bits. -/
def lengthBytes (msg : Bytes) : Bytes :=
  (List.range 8).map fun i =>
    ((UInt64.ofNat msg.length * 8) >>> UInt64.ofNat ((7 - i) * 8)).toUInt8

theorem lengthBytes_eq (msg : Bytes) :
    lengthBytes msg = Bytes.beBytes 8 (UInt64.ofNat msg.length * 8).toNat := by
  have hx : (UInt64.ofNat msg.length * 8).toNat < 18446744073709551616 := UInt64.toNat_lt _
  unfold lengthBytes
  generalize UInt64.ofNat msg.length * 8 = x at hx
  simp only [List.range, List.range.loop, List.map_cons, List.map_nil, Bytes.beBytes, List.nil_append,
    List.cons_append, List.cons.injEq, and_true]
  -- eight digits to the base 256, each cut out by a shift
  refine ⟨?_, ?_, ?_, ?_, ?_, ?_, ?_, ?_⟩ <;>
    · apply UInt8.toNat_inj.1
      simp [Nat.shiftRight_eq_div_pow]
      try omega

theorem length_lengthBytes (msg : Bytes) : (lengthBytes msg).length = 8 := by
  rw [lengthBytes_eq, Bytes.length_beBytes]

/-- Below 2^61 bytes the field tells the length. -/
theorem length_eq_of_lengthBytes {msg msg' : Bytes} (hlt : msg.length < 2 ^ 61)
    (hlt' : msg'.length < 2 ^ 61) (h : lengthBytes msg = lengthBytes msg') :
    msg.length = msg'.length := by
  have hbits : ∀ m : Bytes, m.length < 2 ^ 61 → (UInt64.ofNat m.length * 8).toNat = m.length * 8 := by
    intro m hm
    rw [UInt64.toNat_mul, UInt64.toNat_ofNat_of_lt' (lt_of_lt_of_le hm (by decide))]
    show m.length * 8 % 2 ^ 64 = m.length * 8
    exact Nat.mod_eq_of_lt (by omega)
  rw [lengthBytes_eq, lengthBytes_eq, hbits msg hlt, hbits msg' hlt'] at h
  have hvalue := congrArg Bytes.beNat h
  rw [Bytes.beNat_beBytes (by omega), Bytes.beNat_beBytes (by omega)] at hvalue
  omega

theorem pad_eq (msg : Bytes) :
    pad msg = msg ++ [0x80] ++ List.replicate (zeroCount 64 (msg.length + 1)) 0 ++ lengthBytes msg :=
  rfl

theorem length_pad_mod (msg : Bytes) : (pad msg).length % 64 = 0 := by
  have hzeros := zeroCount_spec 64 (msg.length + 1) (by omega)
  rw [pad_eq]
  simp only [List.length_append, List.length_singleton, List.length_replicate, length_lengthBytes]
  omega

theorem pad_injective {msg msg' : Bytes} (hlength : msg.length = msg'.length)
    (h : pad msg = pad msg') : msg = msg' := by
  rw [pad_eq, pad_eq, List.append_assoc, List.append_assoc, List.append_assoc, List.append_assoc] at h
  exact (List.append_inj h hlength).1

/-! ## Blocks -/

/-- The blocks of 64 bytes that `chunks` goes through. -/
def blocks : Nat → Bytes → List Bytes
  | 0, _ => []
  | n + 1, data => data.take 64 :: blocks n (data.drop 64)

theorem chunks_eq_foldl (n : Nat) (h : Words) (data : Bytes) :
    chunks n h data = (blocks n data).foldl compress h := by
  induction n generalizing h data with
  | zero => rfl
  | succ n ih => exact ih _ _

theorem length_blocks (n : Nat) (data : Bytes) : (blocks n data).length = n := by
  induction n generalizing data with
  | zero => rfl
  | succ n ih => rw [blocks, List.length_cons, ih]

theorem flatten_blocks (n : Nat) (data : Bytes) (h : data.length = n * 64) :
    (blocks n data).flatten = data := by
  induction n generalizing data with
  | zero => exact (List.length_eq_zero_iff.1 (by omega)).symm
  | succ n ih =>
      rw [blocks, List.flatten_cons, ih (data.drop 64) (by rw [List.length_drop]; omega),
        List.take_append_drop]

theorem length_of_mem_blocks {n : Nat} {data block : Bytes} (h : data.length = n * 64)
    (hmem : block ∈ blocks n data) : block.length = 64 := by
  induction n generalizing data with
  | zero => cases hmem
  | succ n ih =>
      rcases List.mem_cons.1 hmem with rfl | hmem
      · rw [List.length_take]
        omega
      · exact ih (by rw [List.length_drop]; omega) hmem

/-- The blocks of a message. -/
def messageBlocks (msg : Bytes) : List Bytes := blocks ((pad msg).length / 64) (pad msg)

theorem length_pad (msg : Bytes) : (pad msg).length = (pad msg).length / 64 * 64 := by
  have hmod := length_pad_mod msg
  omega

theorem flatten_messageBlocks (msg : Bytes) : (messageBlocks msg).flatten = pad msg :=
  flatten_blocks _ _ (length_pad msg)

/-- The last block of a message ends with its length. -/
theorem exists_last_block (msg : Bytes) :
    ∃ init last, messageBlocks msg = init ++ [last] ∧ lengthBytes msg = last.drop 56 := by
  have hne : messageBlocks msg ≠ [] := by
    intro hnil
    have hflat := flatten_messageBlocks msg
    rw [hnil, pad_eq] at hflat
    simp at hflat
  obtain ⟨init, last, heq⟩ := (List.eq_nil_or_concat' (messageBlocks msg)).resolve_left hne
  have hlength : last.length = 64 :=
    length_of_mem_blocks (length_pad msg)
      (heq ▸ List.mem_append_right _ (List.mem_singleton.2 rfl) : last ∈ messageBlocks msg)
  refine ⟨init, last, heq, ?_⟩
  have hflat := flatten_messageBlocks msg
  rw [heq, List.flatten_append, List.flatten_singleton] at hflat
  have hlast : last <:+ pad msg := ⟨init.flatten, hflat⟩
  have hfield : lengthBytes msg <:+ pad msg := ⟨_, rfl⟩
  have hsuffix : lengthBytes msg <:+ last :=
    List.suffix_of_suffix_length_le hfield hlast (by rw [length_lengthBytes, hlength]; decide)
  have hdrop := List.suffix_iff_eq_drop.1 hsuffix
  rwa [length_lengthBytes, hlength] at hdrop

/-! ## Digests -/

theorem wordBytes_injective {x y : UInt32} (h : wordBytes x = wordBytes y) : x = y := by
  have hx : x.toNat < 4294967296 := x.toNat_lt
  have hy : y.toNat < 4294967296 := y.toNat_lt
  simp only [wordBytes, List.cons.injEq, and_true] at h
  obtain ⟨h₀, h₁, h₂, h₃⟩ := h
  have hdigits := congrArg UInt8.toNat h₀
  have hdigits₁ := congrArg UInt8.toNat h₁
  have hdigits₂ := congrArg UInt8.toNat h₂
  have hdigits₃ := congrArg UInt8.toNat h₃
  simp [Nat.shiftRight_eq_div_pow] at hdigits hdigits₁ hdigits₂ hdigits₃
  apply UInt32.toNat_inj.1
  omega

/-- The chaining value a message ends with. -/
def finalWords (msg : Bytes) : Words := (messageBlocks msg).foldl compress initial

/-- The digest shows the whole chaining value. -/
theorem finalWords_eq_of_hex {msg msg' : Bytes} (h : hex msg = hex msg') :
    finalWords msg = finalWords msg' := by
  have hbytes := hexBytes_injective h
  have hdigest : ∀ m, (hashBytes m).1 = wordBytes (finalWords m).a ++ wordBytes (finalWords m).b ++
      wordBytes (finalWords m).c ++ wordBytes (finalWords m).d ++ wordBytes (finalWords m).e ++
      wordBytes (finalWords m).f ++ wordBytes (finalWords m).g ++ wordBytes (finalWords m).hh := by
    intro m
    rw [finalWords, messageBlocks, ← chunks_eq_foldl]
    rfl
  rw [hdigest, hdigest] at hbytes
  have hlength : ∀ x y, (wordBytes x).length = (wordBytes y).length := fun _ _ => rfl
  obtain ⟨hbytes, hh⟩ := List.append_inj' hbytes (hlength _ _)
  obtain ⟨hbytes, hg⟩ := List.append_inj' hbytes (hlength _ _)
  obtain ⟨hbytes, hf⟩ := List.append_inj' hbytes (hlength _ _)
  obtain ⟨hbytes, he⟩ := List.append_inj' hbytes (hlength _ _)
  obtain ⟨hbytes, hd⟩ := List.append_inj' hbytes (hlength _ _)
  obtain ⟨hbytes, hc⟩ := List.append_inj' hbytes (hlength _ _)
  obtain ⟨ha, hb⟩ := List.append_inj' hbytes (hlength _ _)
  have hext : ∀ u v : Words, u.a = v.a → u.b = v.b → u.c = v.c → u.d = v.d → u.e = v.e →
      u.f = v.f → u.g = v.g → u.hh = v.hh → u = v := by
    rintro ⟨⟩ ⟨⟩ rfl rfl rfl rfl rfl rfl rfl rfl
    rfl
  exact hext _ _ (wordBytes_injective ha) (wordBytes_injective hb) (wordBytes_injective hc)
    (wordBytes_injective hd) (wordBytes_injective he) (wordBytes_injective hf)
    (wordBytes_injective hg) (wordBytes_injective hh)

/-- Hashing the two messages, the compression function is given two different inputs with one
output. -/
def CompressionCollides (msg msg' : Bytes) : Prop :=
  Collide compress initial (messageBlocks msg) (messageBlocks msg')

/-- A collision of the hash is a collision of the compression function. -/
theorem compression_collides {msg msg' : Bytes} (hlt : msg.length < 2 ^ 61)
    (hlt' : msg'.length < 2 ^ 61) (hne : msg ≠ msg') (h : hex msg = hex msg') :
    CompressionCollides msg msg' := by
  have hwords := finalWords_eq_of_hex h
  obtain ⟨init, last, hblocks, hfield⟩ := exists_last_block msg
  obtain ⟨init', last', hblocks', hfield'⟩ := exists_last_block msg'
  have hflat := flatten_messageBlocks msg
  have hflat' := flatten_messageBlocks msg'
  -- equal last blocks hold the same length, and equal lengths make equally many blocks
  have hlast : last = last' → msg.length = msg'.length := fun heq =>
    length_eq_of_lengthBytes hlt hlt' (by rw [hfield, hfield', heq])
  have hcount : msg.length = msg'.length → init.length = init'.length := by
    intro heq
    have hpad : (pad msg).length = (pad msg').length := by
      rw [pad_eq, pad_eq]
      simp only [List.length_append, List.length_replicate, length_lengthBytes, heq]
    have hlength := length_blocks ((pad msg).length / 64) (pad msg)
    have hlength' := length_blocks ((pad msg').length / 64) (pad msg')
    rw [show blocks _ (pad msg) = messageBlocks msg from rfl, hblocks, List.length_append] at hlength
    rw [show blocks _ (pad msg') = messageBlocks msg' from rfl, hblocks', List.length_append,
      ← hpad] at hlength'
    exact Nat.add_right_cancel (hlength.trans hlength'.symm)
  have hdiffer : messageBlocks msg ≠ messageBlocks msg' := by
    intro heq
    have hpad : pad msg = pad msg' := by rw [← hflat, ← hflat', heq]
    have hlasteq : last = last' := by
      rw [hblocks, hblocks'] at heq
      exact List.singleton_inj.1 (List.append_inj' heq rfl).2
    exact hne (pad_injective (hlast hlasteq) hpad)
  rw [finalWords, finalWords, hblocks, hblocks'] at hwords
  rw [hblocks, hblocks'] at hdiffer
  rw [CompressionCollides, hblocks, hblocks']
  exact collide_of_strengthened (fun heq => hcount (hlast heq)) hdiffer hwords

/-- Messages are told apart by the hash unless the compression function collides on the way. -/
theorem hex_eq_iff_of_compression {msg msg' : Bytes} (hlt : msg.length < 2 ^ 61)
    (hlt' : msg'.length < 2 ^ 61) (hcomp : ¬ CompressionCollides msg msg') :
    hex msg = hex msg' ↔ msg = msg' := by
  refine ⟨fun h => ?_, fun h => by rw [h]⟩
  by_contra hne
  exact hcomp (compression_collides hlt hlt' hne h)

deriving instance DecidableEq for Words

instance (msg msg' : Bytes) : Decidable (CompressionCollides msg msg') :=
  inferInstanceAs (Decidable (∃ p ∈ inputs compress initial (messageBlocks msg),
    ∃ q ∈ inputs compress initial (messageBlocks msg'), p ≠ q ∧ compress p.1 p.2 = compress q.1 q.2))

set_option maxRecDepth 100000 in
theorem hex_eq_iff_of_compression_abc :
    (hex (ascii "abc") = hex (ascii "abd") ↔ ascii "abc" = ascii "abd") :=
  hex_eq_iff_of_compression (by decide) (by decide) (by decide +kernel)

end RealSha256

/-! ## The audit log -/

open HashChain RealSha256

/-- Of two files that `verify` accepts and that end with the same hash the records are the same,
unless the compression function collides while the canonical forms of two of them are hashed. -/
theorem records_committed_by_compression (content content' : Bytes)
    (hsize : ∀ r ∈ parsedRecords content ++ parsedRecords content', (canonical r).length < 2 ^ 61)
    (hcomp : ∀ r ∈ parsedRecords content ++ parsedRecords content',
      ∀ r' ∈ parsedRecords content ++ parsedRecords content',
        ¬ CompressionCollides (canonical r) (canonical r'))
    (hverify : verifyFile (some content) = true) (hverify' : verifyFile (some content') = true)
    (hlast : lastMsgHash content = lastMsgHash content') :
    parsedRecords content = parsedRecords content' := by
  have hdigest : lastDigest auditFormat (ascii "GENESIS") (parsedRecords content) =
      lastDigest auditFormat (ascii "GENESIS") (parsedRecords content') :=
    congrArg (·.getD (ascii "GENESIS")) hlast
  have hcol : CollisionFree auditFormat RealSha256.hex
      (parsedRecords content ++ parsedRecords content') := by
    intro x hx y hy heq
    by_contra hne
    exact hcomp x hx y hy (compression_collides (hsize x hx) (hsize y hy) hne heq)
  exact (linked_of_verifyFile hverify).eq_of_lastDigest auditFormat_covers hex_ne_genesis hcol
    (linked_of_verifyFile hverify') hdigest

set_option maxRecDepth 100000 in
theorem records_committed_by_compression_login : parsedRecords loginLog = parsedRecords spacedLog :=
  records_committed_by_compression _ _ (by decide +kernel) (by decide +kernel) (by decide +kernel)
    (by decide +kernel) (by decide +kernel)

end SecureFileTransfer
