import SecureFileTransfer.AsioTlsTransport

/-!
# TryDecode — the frame decoder on a byte string

`tryDecode` of `include/ports/transport.hpp`, with its two output parameters as state: they come in
with the values the caller has in them and go out as the call leaves them.  It checks the bounds in
another order than the receive loop of the TLS transport and accepts the same frames.
-/

namespace SecureFileTransfer

open AsioTlsTransport Reassembly

/-- `tryDecode`: the value it returns, `out` and `consumed`.  The result is `none` if a read leaves
`buf`. -/
def tryDecode (buf : Bytes) (out : Frame) (consumed : Nat) : Option (Bool × Frame × Nat) := do
  if buf.length < 4 then
    return (false, out, consumed)
  else
    let len ← get32be buf 0
    if len > 4 * 1024 * 1024 then
      return (false, out, consumed)
    -- `4 + len` is 32-bit arithmetic here and in `consumed`
    else if buf.length < (4 + len).toNat || len < 5 then
      return (false, out, consumed)
    else
      let type ← buf[4]?
      let requestId ← get32be buf 5
      -- the iterator `buf.begin()+4+len` is moved twice
      let body ← slice buf 9 (4 + len.toNat)
      return (true, { out with type := ⟨type⟩, requestId := requestId, body := body },
        (4 + len).toNat)

/-- A frame in two pieces, then two frames at once. -/
example :
    let wire := encodeFrame ⟨MsgType.UPLOAD_DATA, 7, [1, 2, 3, 4]⟩
    tryDecode (wire.take 3) {} 0 = some (false, {}, 0) ∧
      tryDecode (wire ++ wire) {} 0 = some (true, ⟨MsgType.UPLOAD_DATA, 7, [1, 2, 3, 4]⟩, 13) := by
  decide

/-! ## Against the receive loop -/

theorem tryDecode_header {buf : Bytes} {len : UInt32} (h : put32be len <+: buf) (out : Frame)
    (consumed : Nat) :
    tryDecode buf out consumed =
      if len > 4 * 1024 * 1024 then
        some (false, out, consumed)
      else if buf.length < (4 + len).toNat || len < 5 then
        some (false, out, consumed)
      else do
        let type ← buf[4]?
        let requestId ← get32be buf 5
        let body ← slice buf 9 (4 + len.toNat)
        return (true, { type := ⟨type⟩, requestId := requestId, body := body },
          (4 + len).toNat) := by
  have hlen : ¬ buf.length < 4 := by
    have hle := h.length_le
    rw [length_put32be] at hle
    omega
  have hget : get32be buf 0 = some len := get32be_eq_some_iff.2 (by simpa using h)
  rw [tryDecode, if_neg hlen, hget]
  rfl

/-- A length word that is out of range, or a buffer that ends too early. -/
theorem tryDecode_refused {buf : Bytes} {len : UInt32} (h : put32be len <+: buf)
    (hbad : ¬ ((5 ≤ len.toNat ∧ len.toNat ≤ 4194304) ∧ 4 + len.toNat ≤ buf.length))
    (out : Frame) (consumed : Nat) : tryDecode buf out consumed = some (false, out, consumed) := by
  have hmax : len > 4 * 1024 * 1024 ↔ 4194304 < len.toNat := UInt32.lt_iff_toNat_lt
  have hmin : len < 5 ↔ len.toNat < 5 := UInt32.lt_iff_toNat_lt
  rw [tryDecode_header h]
  split
  · rfl
  · next hle =>
      rw [hmax, Nat.not_lt] at hle
      -- no more than 4 MiB, so that the sum does not wrap around
      refine if_pos ?_
      rw [Bool.or_eq_true, decide_eq_true_iff, decide_eq_true_iff, hmin, four_add_toNat hle]
      omega

/-- The decoder ends as the decision of the receive loop does. -/
theorem tryDecode_eq_poll (buf : Bytes) (out : Frame) (consumed : Nat) :
    tryDecode buf out consumed =
      match poll buf with
      | .item f n => some (true, f, n)
      | .reject => some (false, out, consumed)
      | .needMore => some (false, out, consumed)
      | .fault => none := by
  by_cases hlen : 4 ≤ buf.length
  · obtain ⟨len, hpre⟩ := exists_header hlen
    by_cases hacc : 5 ≤ len.toNat ∧ len.toNat ≤ 4194304
    · have hrange : (len < 5 || len > 4 * 1024 * 1024) = false := (accepted_iff len).2 hacc
      rw [poll_header hpre, hrange, if_neg (by simp), four_add_toNat hacc.2]
      by_cases hroom : 4 + len.toNat ≤ buf.length
      · rw [Bool.or_eq_false_iff, decide_eq_false_iff_not, decide_eq_false_iff_not] at hrange
        have hfits : ¬ (buf.length < 4 + len.toNat || len < 5) = true := by
          rw [Bool.or_eq_true, decide_eq_true_iff, decide_eq_true_iff]
          exact not_or.2 ⟨Nat.not_lt.2 hroom, hrange.1⟩
        rw [if_pos hroom, tryDecode_header hpre, if_neg hrange.2, four_add_toNat hacc.2,
          if_neg hfits]
        -- the same three reads on both sides
        cases buf[4]? with
        | none => rfl
        | some type =>
            cases get32be buf 5 with
            | none => rfl
            | some requestId =>
                cases slice buf 9 (4 + len.toNat) with
                | none => rfl
                | some body => rfl
      · rw [if_neg hroom]
        exact tryDecode_refused hpre (fun h => hroom h.2) out consumed
    · rw [poll_reject_iff.2 ⟨len, hpre, hacc⟩]
      exact tryDecode_refused hpre (fun h => hacc h.1) out consumed
  · rw [poll_short hlen]
    exact if_pos (Nat.lt_of_not_le hlen)

/-! ## The frame grammar -/

/-- What is decoded is a frame of at most 4 MiB, encoded at the start of the buffer; on every other
buffer both output parameters stay as they are.  No read leaves the buffer. -/
theorem tryDecode_accepts (buf : Bytes) (out : Frame) (consumed : Nat) :
    (∀ (f : Frame) (c : Nat), tryDecode buf out consumed = some (true, f, c) ↔
      f.body.length ≤ 4 * 1024 * 1024 - 5 ∧ encodeFrame f <+: buf ∧ c = (encodeFrame f).length) ∧
    (∀ (out' : Frame) (consumed' : Nat), tryDecode buf out consumed = some (false, out', consumed') →
      out' = out ∧ consumed' = consumed) ∧
    tryDecode buf out consumed ≠ none := by
  have hgrammar : ∀ (f : Frame) (c : Nat), poll buf = .item f c ↔
      f.body.length ≤ 4 * 1024 * 1024 - 5 ∧ encodeFrame f <+: buf ∧ c = (encodeFrame f).length :=
    fun f c => poll_item_iff
  rw [tryDecode_eq_poll]
  simp only [← hgrammar]
  cases hpoll : poll buf with
  | item f n => simp
  | reject => simp [eq_comm]
  | needMore => simp [eq_comm]
  | fault => exact absurd hpoll (poll_ne_fault buf)

end SecureFileTransfer
