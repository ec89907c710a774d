import SecureFileTransfer.Lib.Reassembly
import SecureFileTransfer.Transport

/-!
# AsioTlsTransport — framing over the TLS stream

`AsioTlsTransport::recvFrame`.  The socket is the list of byte strings its `read_some` calls will
return before the end of the stream; `rxBuf` and that list are the state of the connection.
-/

namespace SecureFileTransfer
namespace AsioTlsTransport

open Reassembly

/-- What the head of the loop decides on the receive buffer.  `4 + len` is 32-bit arithmetic. -/
def poll (rxBuf : Bytes) : Poll Frame :=
  if rxBuf.length ≥ 4 then
    match get32be rxBuf 0 with
    | none => .fault
    | some len =>
        if len < 5 || len > 4 * 1024 * 1024 then
          -- the length covers type and request id, so it is at least 5
          .reject
        else if rxBuf.length ≥ (4 + len).toNat then
          match rxBuf[4]?, get32be rxBuf 5, slice rxBuf 9 (4 + len).toNat with
          | some type, some requestId, some body =>
              .item { type := ⟨type⟩, requestId := requestId, body := body } (4 + len).toNat
          | _, _, _ => .fault
        else
          .needMore
  else
    .needMore

/-- `recvFrame`: `got` is `true` with the frame, `refused` is `false`. -/
def recvFrame (rx : Rx) : Outcome Frame × Rx :=
  recv poll rx.buf rx.reads

/-- Successive calls on one connection. -/
def recvFrames (n : Nat) (rx : Rx) : List (Outcome Frame) × Rx :=
  recvN poll n rx

/-- `uint8_t buf[1024]`: the most one `read_some` returns. -/
def maxRead : Nat := 1024

/-- The longest body whose frame `recvFrame` accepts. -/
def maxBody : Nat := 4 * 1024 * 1024 - 5

/-! ## The decision in terms of encodings -/

/-- The length word of a frame that fits is the length of what follows it. -/
theorem length_word {f : Frame} (hf : f.body.length ≤ maxBody) :
    (UInt32.ofNat (f.type.code :: put32be f.requestId ++ f.body).length).toNat =
      5 + f.body.length := by
  have hlen : (f.type.code :: put32be f.requestId ++ f.body).length = 5 + f.body.length := by
    simp
    omega
  rw [hlen]
  apply UInt32.toNat_ofNat_of_lt'
  simp only [maxBody, UInt32.size] at *
  omega

theorem length_encodeFrame (f : Frame) : (encodeFrame f).length = 9 + f.body.length := by
  simp [encodeFrame]
  omega

/-- The bounds `recvFrame` checks on the length word. -/
theorem accepted_iff (len : UInt32) :
    (len < 5 || len > 4 * 1024 * 1024) = false ↔ 5 ≤ len.toNat ∧ len.toNat ≤ 4194304 := by
  have h₁ : len < 5 ↔ len.toNat < 5 := UInt32.lt_iff_toNat_lt
  have h₂ : 4 * 1024 * 1024 < len ↔ 4194304 < len.toNat := UInt32.lt_iff_toNat_lt
  simp only [Bool.or_eq_false_iff, decide_eq_false_iff_not, gt_iff_lt, h₁, h₂]
  omega

theorem four_add_toNat {len : UInt32} (h : len.toNat ≤ 4194304) :
    (4 + len).toNat = 4 + len.toNat := by
  have h4 : (4 : UInt32).toNat = 4 := rfl
  rw [UInt32.toNat_add, h4]
  omega

/-- The buffer starts with a length word outside the accepted range. -/
def Malformed (b : Bytes) : Prop :=
  ∃ len, put32be len <+: b ∧ ¬ (5 ≤ len.toNat ∧ len.toNat ≤ 4194304)

theorem poll_short {b : Bytes} (h : ¬ 4 ≤ b.length) : poll b = .needMore :=
  if_neg h

theorem poll_header {b : Bytes} {len : UInt32} (h : put32be len <+: b) :
    poll b =
      if len < 5 || len > 4 * 1024 * 1024 then
        .reject
      else if b.length ≥ (4 + len).toNat then
        match b[4]?, get32be b 5, slice b 9 (4 + len).toNat with
        | some type, some requestId, some body =>
            .item { type := ⟨type⟩, requestId := requestId, body := body } (4 + len).toNat
        | _, _, _ => .fault
      else
        .needMore := by
  have hlen : b.length ≥ 4 := by simpa using h.length_le
  have hget : get32be b 0 = some len := get32be_eq_some_iff.2 (by simpa using h)
  rw [poll, if_pos hlen, hget]

theorem exists_header {b : Bytes} (h : 4 ≤ b.length) : ∃ len, put32be len <+: b := by
  obtain ⟨len, hlen⟩ := get32be_isSome (show 0 + 4 ≤ b.length by omega)
  exact ⟨len, by simpa using get32be_eq_some_iff.1 hlen⟩

/-- On a buffer that holds a whole frame the loop decodes exactly that frame. -/
theorem poll_encodeFrame {f : Frame} (hf : f.body.length ≤ maxBody) (y : Bytes) :
    poll (encodeFrame f ++ y) = .item f (encodeFrame f).length := by
  have hword := length_word hf
  generalize hlen : UInt32.ofNat (f.type.code :: put32be f.requestId ++ f.body).length = len
    at hword
  -- the layout of the buffer, field by field
  have hsplit : encodeFrame f ++ y = put32be len ++ (f.type.code ::
      (put32be f.requestId ++ (f.body ++ y))) := by
    simp [encodeFrame, ← hlen]
  have hmax : len.toNat ≤ 4194304 := by
    simp only [maxBody] at hf
    omega
  have hrange : (len < 5 || len > 4 * 1024 * 1024) = false :=
    (accepted_iff len).2 ⟨by omega, hmax⟩
  have hadd : (4 + len).toNat = 9 + f.body.length := by
    rw [four_add_toNat hmax]
    omega
  have hroom : (encodeFrame f ++ y).length ≥ 9 + f.body.length := by
    rw [List.length_append, length_encodeFrame]
    omega
  have htype : (encodeFrame f ++ y)[4]? = some f.type.code := by
    rw [hsplit, List.getElem?_append_right (by simp)]
    simp
  have hdrop5 : (encodeFrame f ++ y).drop 5 = put32be f.requestId ++ (f.body ++ y) := by
    rw [hsplit, List.drop_append]
    simp
  have hid : get32be (encodeFrame f ++ y) 5 = some f.requestId := by
    rw [get32be_eq_some_iff, hdrop5]
    exact List.prefix_append _ _
  have hdrop9 : (encodeFrame f ++ y).drop 9 = f.body ++ y := by
    have h := congrArg (List.drop 4) hdrop5
    rw [List.drop_drop, List.drop_left' (length_put32be _)] at h
    exact h
  have hbody : slice (encodeFrame f ++ y) 9 (9 + f.body.length) = some f.body := by
    rw [slice_of_le (by omega) hroom, hdrop9, Nat.add_sub_cancel_left, List.take_left]
  rw [poll_header (by rw [hsplit]; exact List.prefix_append _ _), hrange, hadd, htype, hid, hbody,
    if_neg (by simp), if_pos hroom, length_encodeFrame]

/-- Nothing but a whole frame is decoded, and no access leaves the buffer. -/
theorem poll_accepted {b : Bytes} {len : UInt32} (h : put32be len <+: b)
    (hrange : 5 ≤ len.toNat ∧ len.toNat ≤ 4194304) (hroom : 4 + len.toNat ≤ b.length) :
    ∃ f : Frame, f.body.length ≤ maxBody ∧ encodeFrame f <+: b := by
  have hget : get32be b 0 = some len := get32be_eq_some_iff.2 (by simpa using h)
  have hb₀ := drop_eq_of_get32be hget
  rw [List.drop_zero] at hb₀
  -- the accesses of the loop, each within the bounds that were checked
  obtain ⟨type, hb₄⟩ : ∃ type, b.drop 4 = type :: b.drop 5 := by
    have hlt : 4 < b.length := by omega
    exact ⟨b[4], (List.drop_eq_getElem_cons hlt)⟩
  obtain ⟨requestId, hid⟩ := get32be_isSome (show 5 + 4 ≤ b.length by omega)
  have hb₅ := drop_eq_of_get32be hid
  have hbody : ((b.drop 9).take (len.toNat - 5)).length = len.toNat - 5 := by
    rw [List.length_take, List.length_drop]
    omega
  refine ⟨{ type := ⟨type⟩, requestId := requestId, body := (b.drop 9).take (len.toNat - 5) },
    ?_, ?_⟩
  · simp only [hbody, maxBody]
    omega
  · have hword : UInt32.ofNat (type :: put32be requestId ++
        (b.drop 9).take (len.toNat - 5)).length = len := by
      rw [List.length_append, List.length_cons, length_put32be, hbody]
      have hnat : 4 + 1 + (len.toNat - 5) = len.toNat := by omega
      rw [hnat, UInt32.ofNat_toNat]
    refine ⟨(b.drop 9).drop (len.toNat - 5), ?_⟩
    rw [encodeFrame]
    simp only [hword]
    conv_rhs => rw [hb₀, Nat.zero_add, hb₄, hb₅]
    simp

theorem poll_item_iff {b : Bytes} {f : Frame} {n : Nat} :
    poll b = .item f n ↔
      f.body.length ≤ maxBody ∧ encodeFrame f <+: b ∧ n = (encodeFrame f).length := by
  constructor
  · intro h
    by_cases hlen : 4 ≤ b.length
    · obtain ⟨len, hpre⟩ := exists_header hlen
      rw [poll_header hpre] at h
      split at h
      · cases h
      · next hrange =>
          have hacc := (accepted_iff len).1 (by simpa using hrange)
          split at h
          · next hroom =>
              rw [four_add_toNat hacc.2] at hroom
              -- the buffer holds a frame `g`, and what the loop returned is that frame
              obtain ⟨g, hg, y, rfl⟩ := poll_accepted hpre hacc hroom
              have hitem := poll_encodeFrame hg y
              rw [poll_header hpre, if_neg hrange,
                if_pos (by rw [four_add_toNat hacc.2]; exact hroom), h] at hitem
              cases hitem
              exact ⟨hg, ⟨y, rfl⟩, rfl⟩
          · cases h
    · rw [poll_short hlen] at h
      cases h
  · rintro ⟨hf, ⟨y, rfl⟩, rfl⟩
    exact poll_encodeFrame hf y

theorem poll_reject_iff {b : Bytes} : poll b = .reject ↔ Malformed b := by
  by_cases hlen : 4 ≤ b.length
  · obtain ⟨len, hpre⟩ := exists_header hlen
    -- the length word is determined by the buffer
    have huniq : ∀ len', put32be len' <+: b → len' = len := by
      intro len' hpre'
      apply put32be_injective
      exact (List.prefix_of_prefix_length_le hpre' hpre (by simp)).eq_of_length (by simp)
    constructor
    · intro h
      refine ⟨len, hpre, fun hacc => ?_⟩
      rw [poll_header hpre, (accepted_iff len).2 hacc] at h
      split at h
      · simp_all
      · split at h
        · split at h <;> cases h
        · cases h
    · rintro ⟨len', hpre', hbad⟩
      rw [huniq len' hpre'] at hbad
      have hcond : (len < 5 || len > 4 * 1024 * 1024) = true := by
        by_contra hcon
        exact hbad ((accepted_iff len).1 (by simpa using hcon))
      rw [poll_header hpre, if_pos hcond]
  · constructor
    · intro h
      rw [poll_short hlen] at h
      cases h
    · rintro ⟨len, hpre, _⟩
      exact absurd (by simpa using hpre.length_le) hlen

theorem poll_ne_fault (b : Bytes) : poll b ≠ .fault := by
  intro h
  by_cases hlen : 4 ≤ b.length
  · obtain ⟨len, hpre⟩ := exists_header hlen
    by_cases hacc : 5 ≤ len.toNat ∧ len.toNat ≤ 4194304
    · by_cases hroom : 4 + len.toNat ≤ b.length
      · obtain ⟨f, hf, y, rfl⟩ := poll_accepted hpre hacc hroom
        rw [poll_encodeFrame hf y] at h
        cases h
      · rw [poll_header hpre, if_neg (by rw [(accepted_iff len).2 hacc]; simp),
          if_neg (by rw [four_add_toNat hacc.2]; exact hroom)] at h
        cases h
    · rw [poll_reject_iff.2 ⟨len, hpre, hacc⟩] at h
      cases h
  · rw [poll_short hlen] at h
    cases h

/-- The receive loop of the TLS transport decides for good. -/
theorem poll_stable : Stable poll 4 where
  item_pos := by
    intro b f n h
    obtain ⟨_, hpre, rfl⟩ := poll_item_iff.1 h
    exact ⟨by rw [length_encodeFrame]; omega, hpre.length_le⟩
  item_append := by
    intro b f n h y
    obtain ⟨hf, hpre, hn⟩ := poll_item_iff.1 h
    exact poll_item_iff.2 ⟨hf, hpre.trans (List.prefix_append _ _), hn⟩
  item_prompt := by
    intro b y f n h hle
    obtain ⟨hf, hpre, rfl⟩ := poll_item_iff.1 h
    exact poll_item_iff.2
      ⟨hf, List.prefix_of_prefix_length_le hpre (List.prefix_append _ _) hle, rfl⟩
  reject_append := by
    intro b h y
    obtain ⟨len, hpre, hbad⟩ := poll_reject_iff.1 h
    exact poll_reject_iff.2 ⟨len, hpre.trans (List.prefix_append _ _), hbad⟩
  reject_length := by
    intro b h
    obtain ⟨len, hpre, _⟩ := poll_reject_iff.1 h
    simpa using hpre.length_le
  reject_header := by
    intro b y h hle
    obtain ⟨len, hpre, hbad⟩ := poll_reject_iff.1 h
    exact poll_reject_iff.2
      ⟨len, List.prefix_of_prefix_length_le hpre (List.prefix_append _ _) (by simpa using hle),
        hbad⟩
  no_fault := poll_ne_fault

end AsioTlsTransport
end SecureFileTransfer
