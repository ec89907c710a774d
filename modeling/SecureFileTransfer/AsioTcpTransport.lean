import SecureFileTransfer.FrameStream

/-!
# AsioTcpTransport — the same framing without the lower bound

`AsioTcpTransport::recvFrame` is a second copy of the receive loop that does not ask the length to
cover the type and the request id.  On a stream whose first malformed header is too large or not
there the two transports cannot be told apart; on a length below 5 they always can.
-/

namespace SecureFileTransfer
namespace AsioTcpTransport

open Reassembly

/-- What the head of the loop decides on the receive buffer. -/
def poll (rxBuf : Bytes) : Poll Frame :=
  if rxBuf.length ≥ 4 then
    match get32be rxBuf 0 with
    | none => .fault
    | some len =>
        if len > 4 * 1024 * 1024 then
          .reject
        else if rxBuf.length ≥ (4 + len).toNat then
          -- with a length below 5 the body would end before it begins
          match rxBuf[4]?, get32be rxBuf 5, slice rxBuf 9 (4 + len).toNat with
          | some type, some requestId, some body =>
              .item { type := ⟨type⟩, requestId := requestId, body := body } (4 + len).toNat
          | _, _, _ => .fault
        else
          .needMore
  else
    .needMore

/-- The loop; only an error ends it, a read of no bytes does not. -/
def loop (rxBuf : Bytes) : List Bytes → Outcome Frame × Rx
  | [] =>
      match poll rxBuf with
      | .item f n => (.got f, ⟨rxBuf.drop n, []⟩)
      | .reject => (.refused, ⟨[], []⟩)
      | .fault => (.fault, ⟨rxBuf, []⟩)
      | .needMore => (.refused, ⟨rxBuf, []⟩)
  | r :: rs =>
      match poll rxBuf with
      | .item f n => (.got f, ⟨rxBuf.drop n, r :: rs⟩)
      | .reject => (.refused, ⟨[], r :: rs⟩)
      | .fault => (.fault, ⟨rxBuf, r :: rs⟩)
      | .needMore => loop (rxBuf ++ r) rs

/-- `recvFrame`: `got` is `true` with the frame, `refused` is `false`. -/
def recvFrame (rx : Rx) : Outcome Frame × Rx :=
  loop rx.buf rx.reads

/-! ## The two decisions -/

/-- The stream starts with a length word that cannot cover type and request id. -/
def ShortLength (s : Bytes) : Prop :=
  ∃ len, put32be len <+: s ∧ len.toNat < 5

theorem shortLength_iff {s : Bytes} {len : UInt32} (h : put32be len <+: s) :
    ShortLength s ↔ len.toNat < 5 := by
  constructor
  · rintro ⟨len', hpre, hlen⟩
    rwa [← put32be_injective ((List.prefix_of_prefix_length_le hpre h (by simp)).eq_of_length (by simp))]
  · intro hlen
    exact ⟨len, h, hlen⟩

theorem ShortLength.append {b : Bytes} (h : ShortLength b) (y : Bytes) : ShortLength (b ++ y) := by
  obtain ⟨len, hpre, hlen⟩ := h
  exact ⟨len, hpre.trans (List.prefix_append _ _), hlen⟩

theorem ShortLength.of_append {b y : Bytes} (h : ShortLength (b ++ y)) (hb : 4 ≤ b.length) :
    ShortLength b := by
  obtain ⟨len, hpre, hlen⟩ := h
  exact ⟨len, List.prefix_of_prefix_length_le hpre (List.prefix_append _ _) (by simpa using hb), hlen⟩

theorem ShortLength.malformed {b : Bytes} (h : ShortLength b) : AsioTlsTransport.Malformed b := by
  obtain ⟨len, hpre, hlen⟩ := h
  exact ⟨len, hpre, fun hacc => absurd hacc.1 (by omega)⟩

theorem poll_header {b : Bytes} {len : UInt32} (h : put32be len <+: b) :
    poll b =
      if len > 4 * 1024 * 1024 then
        .reject
      else if b.length ≥ (4 + len).toNat then
        match b[4]?, get32be b 5, slice b 9 (4 + len).toNat with
        | some type, some requestId, some body =>
            .item { type := ⟨type⟩, requestId := requestId, body := body } (4 + len).toNat
        | _, _, _ => .fault
      else
        .needMore := by
  have hlen : b.length ≥ 4 := by simpa using h.length_le
  have hget : get32be b 0 = some len := get32be_eq_some_iff.2 (by simpa using h)
  rw [poll, if_pos hlen, hget]

/-- The two transports decide alike on every buffer whose length word is at least 5. -/
theorem poll_eq {b : Bytes} (h : ¬ ShortLength b) : poll b = AsioTlsTransport.poll b := by
  by_cases hlen : 4 ≤ b.length
  · obtain ⟨len, hpre⟩ := AsioTlsTransport.exists_header hlen
    have hfive : ¬ len < 5 := by
      rw [UInt32.lt_iff_toNat_lt]
      exact fun hlt => h ⟨len, hpre, hlt⟩
    rw [poll_header hpre, AsioTlsTransport.poll_header hpre]
    exact if_congr (by simp [hfive]) rfl rfl
  · rw [AsioTlsTransport.poll_short hlen, poll, if_neg hlen]

/-- On a shorter one this transport waits for bytes it does not need and then leaves its buffer. -/
theorem poll_of_shortLength {b : Bytes} (h : ShortLength b) :
    poll b = .needMore ∨ poll b = .fault := by
  obtain ⟨len, hpre, hlen⟩ := h
  have hfits : ¬ len > 4 * 1024 * 1024 := by
    intro hgt
    have hgt' : (4 * 1024 * 1024 : UInt32).toNat < len.toNat := UInt32.lt_iff_toNat_lt.1 hgt
    have hmax : (4 * 1024 * 1024 : UInt32).toNat = 4194304 := rfl
    omega
  have hslice : slice b 9 (4 + len).toNat = none := by
    rw [AsioTlsTransport.four_add_toNat (by omega), slice, if_neg (by omega)]
  rw [poll_header hpre, if_neg hfits, hslice]
  split
  · exact .inr (by simp)
  · exact .inl rfl

theorem poll_of_pending {b y : Bytes} (h : ShortLength (b ++ y)) :
    poll b = .needMore ∨ poll b = .fault := by
  by_cases hlen : 4 ≤ b.length
  · exact poll_of_shortLength (h.of_append hlen)
  · exact .inl (if_neg hlen)

/-! ## The two loops -/

/-- As long as no short length is pending a call is a call of the other transport. -/
theorem loop_eq (reads : List Bytes) (buf : Bytes) (hne : ∀ r ∈ reads, r ≠ [])
    (h : ¬ ShortLength (buf ++ reads.flatten)) :
    loop buf reads = recv AsioTlsTransport.poll buf reads := by
  have hbuf : ¬ ShortLength buf := fun hshort => h (hshort.append _)
  induction reads generalizing buf with
  | nil =>
      rw [loop, recv, poll_eq hbuf]
      cases AsioTlsTransport.poll buf with
      | _ => rfl
  | cons r rs ih =>
      have hr : r ≠ [] := hne r (by simp)
      have hflat : buf ++ (r :: rs).flatten = (buf ++ r) ++ rs.flatten := by simp
      rw [hflat] at h
      have hrec := ih (buf ++ r) (fun x hx => hne x (by simp [hx])) h fun hshort => h (hshort.append _)
      rw [loop, recv, poll_eq hbuf]
      cases AsioTlsTransport.poll buf with
      | needMore => simp [hr, hrec]
      | _ => rfl

/-- A pending short length makes it leave its buffer, or end with every byte still unread. -/
theorem loop_of_shortLength (reads : List Bytes) (buf : Bytes)
    (h : ShortLength (buf ++ reads.flatten)) :
    (loop buf reads).1 = .fault ∨ loop buf reads = (.refused, ⟨buf ++ reads.flatten, []⟩) := by
  induction reads generalizing buf with
  | nil =>
      rcases poll_of_pending h with hpoll | hpoll
      · exact .inr (by simp [loop, hpoll])
      · exact .inl (by simp [loop, hpoll])
  | cons r rs ih =>
      rcases poll_of_pending h with hpoll | hpoll
      · have hflat : buf ++ (r :: rs).flatten = (buf ++ r) ++ rs.flatten := by simp
        have hnext : loop buf (r :: rs) = loop (buf ++ r) rs := by rw [loop, hpoll]
        rw [hflat] at h ⊢
        rw [hnext]
        exact ih (buf ++ r) h
      · exact .inl (by simp [loop, hpoll])

/-! ## The two sessions -/

/-- The calls up to the first `false`, at most `n` of them: both transports give the same frames,
keep the same unread bytes and stay inside their buffers. -/
structure Agree (rx : Rx) (n : Nat) : Prop where
  outcomes : (session recvFrame n rx).1 = (session AsioTlsTransport.recvFrame n rx).1
  unread : (session recvFrame n rx).2.buf = (session AsioTlsTransport.recvFrame n rx).2.buf
  within : .fault ∉ (session recvFrame n rx).1
  within' : .fault ∉ (session AsioTlsTransport.recvFrame n rx).1

theorem not_shortLength_of_headFrame {s rest : Bytes} {f : Frame}
    (h : AsioTlsTransport.headFrame s = some (f, rest)) : ¬ ShortLength s := by
  intro hshort
  have hreject := AsioTlsTransport.poll_reject_iff.2 hshort.malformed
  rw [(AsioTlsTransport.headFrame_eq_some_iff.1 h).1] at hreject
  cases hreject

theorem recvFrame_eq {rx : Rx} (hne : ∀ r ∈ rx.reads, r ≠ []) (h : ¬ ShortLength rx.pending) :
    recvFrame rx = AsioTlsTransport.recvFrame rx :=
  loop_eq rx.reads rx.buf hne h

/-- The frame a session gets next is the one its pending bytes start with. -/
theorem headFrame_of_got {rx rx' : Rx} {f : Frame} (hne : ∀ r ∈ rx.reads, r ≠ [])
    (h : AsioTlsTransport.recvFrame rx = (.got f, rx')) :
    AsioTlsTransport.headFrame rx.pending = some (f, rx'.pending) ∧ rx'.reads <:+ rx.reads := by
  obtain ⟨k, hitem⟩ :=
    item_of_recv_got AsioTlsTransport.poll_stable rx.reads rx.buf hne h
  obtain ⟨_, hpre, rfl⟩ := AsioTlsTransport.poll_item_iff.1 hitem
  obtain ⟨rx'', hrecv, hpend, hsuf⟩ :=
    recv_item AsioTlsTransport.poll_stable rx.reads rx.buf hne hitem
  cases h.symm.trans hrecv
  refine ⟨AsioTlsTransport.headFrame_eq_some_iff.2 ⟨hitem, ?_⟩, hsuf⟩
  obtain ⟨y, hy⟩ := hpre
  rw [hpend, ← hy, List.drop_left]
  exact hy.symm

/-- One call that gets a frame from both, then the rest of the session. -/
theorem agree_succ_iff {rx rx' : Rx} {f : Frame} (htcp : recvFrame rx = (.got f, rx'))
    (htls : AsioTlsTransport.recvFrame rx = (.got f, rx')) (n : Nat) :
    Agree rx (n + 1) ↔ Agree rx' n := by
  constructor
  · rintro ⟨hout, hbuf, hin, hin'⟩
    rw [session_got htcp, session_got htls] at hout hbuf
    rw [session_got htcp] at hin
    rw [session_got htls] at hin'
    exact ⟨(List.cons.inj hout).2, hbuf, fun hmem => hin (List.mem_cons_of_mem _ hmem),
      fun hmem => hin' (List.mem_cons_of_mem _ hmem)⟩
  · rintro ⟨hout, hbuf, hin, hin'⟩
    constructor
    · rw [session_got htcp, session_got htls, hout]
    · rw [session_got htcp, session_got htls]
      exact hbuf
    · rw [session_got htcp]
      simpa using hin
    · rw [session_got htls]
      simpa using hin'

theorem agree_of_not_shortLength (n : Nat) (rx : Rx) (hne : ∀ r ∈ rx.reads, r ≠ [])
    (h : ¬ ShortLength (AsioTlsTransport.unparsed rx.pending)) : Agree rx n := by
  induction n generalizing rx with
  | zero => exact ⟨rfl, rfl, by simp [session], by simp [session]⟩
  | succ n ih =>
      have hpending : ¬ ShortLength rx.pending := by
        cases hhead : AsioTlsTransport.headFrame rx.pending with
        | none => rwa [AsioTlsTransport.unparsed_none hhead] at h
        | some _ => exact not_shortLength_of_headFrame hhead
      have hsame := recvFrame_eq hne hpending
      obtain ⟨o, rx', htls⟩ : ∃ o rx', AsioTlsTransport.recvFrame rx = (o, rx') := ⟨_, _, rfl⟩
      have htcp := hsame.trans htls
      cases o with
      | got f =>
          obtain ⟨hhead, hsuf⟩ := headFrame_of_got hne htls
          rw [AsioTlsTransport.unparsed_some hhead] at h
          exact (agree_succ_iff htcp htls n).2 (ih rx' (fun r hr => hne r (hsuf.subset hr)) h)
      | refused =>
          have hstop := session_stop htls (fun f => by simp) n
          have hstop' := session_stop htcp (fun f => by simp) n
          exact ⟨by rw [hstop, hstop'], by rw [hstop, hstop'], by simp [hstop'], by simp [hstop]⟩
      | fault =>
          have hfault := recv_ne_fault AsioTlsTransport.poll_stable rx.reads rx.buf
          exact absurd (congrArg Prod.fst htls) hfault

/-- At a short length one transport empties its buffer; the other keeps it or leaves it. -/
theorem not_agree_of_shortLength {rx : Rx} (hne : ∀ r ∈ rx.reads, r ≠ [])
    (h : ShortLength rx.pending) : ¬ Agree rx 1 := by
  intro hagree
  obtain ⟨reads', htls⟩ := recv_of_reject AsioTlsTransport.poll_stable rx.reads rx.buf hne
    (AsioTlsTransport.poll_reject_iff.2 h.malformed)
  have hstop : session AsioTlsTransport.recvFrame 1 rx = _ :=
    session_stop htls (fun f => by simp) 0
  rcases loop_of_shortLength rx.reads rx.buf h with hfault | hkept
  · have hcall : recvFrame rx = (.fault, (recvFrame rx).2) := Prod.ext hfault rfl
    have hstop' := session_stop hcall (fun f => by simp) 0
    exact hagree.within (by simp [hstop'])
  · have hstop' : session recvFrame 1 rx = _ := session_stop hkept (fun f => by simp) 0
    have hunread := hagree.unread
    rw [hstop, hstop'] at hunread
    obtain ⟨len, hpre, -⟩ := h
    have hlen : 4 ≤ rx.pending.length := by simpa using hpre.length_le
    have hnil : rx.pending = [] := hunread
    rw [hnil] at hlen
    exact absurd hlen (by decide)

theorem exists_disagree (rx : Rx) (hne : ∀ r ∈ rx.reads, r ≠ [])
    (h : ShortLength (AsioTlsTransport.unparsed rx.pending)) : ∃ n, ¬ Agree rx n := by
  induction hsize : rx.pending.length using Nat.strongRecOn generalizing rx with
  | ind size ih =>
      cases hhead : AsioTlsTransport.headFrame rx.pending with
      | none =>
          rw [AsioTlsTransport.unparsed_none hhead] at h
          exact ⟨1, not_agree_of_shortLength hne h⟩
      | some fr =>
          obtain ⟨f, rest⟩ := fr
          obtain ⟨hitem, hs⟩ := AsioTlsTransport.headFrame_eq_some_iff.1 hhead
          obtain ⟨rx', htls, hpend, hsuf⟩ :=
            recv_item AsioTlsTransport.poll_stable rx.reads rx.buf hne hitem
          have htcp := (recvFrame_eq hne (not_shortLength_of_headFrame hhead)).trans htls
          have hrest : rx'.pending = rest := by
            rw [hpend]
            exact (congrArg (List.drop _) hs).trans List.drop_left
          rw [AsioTlsTransport.unparsed_some hhead, ← hrest] at h
          have hshorter := AsioTlsTransport.headFrame_length hhead
          rw [← hrest, hsize] at hshorter
          obtain ⟨n, hn⟩ := ih _ hshorter rx' (fun r hr => hne r (hsuf.subset hr)) h rfl
          exact ⟨n + 1, fun hagree => hn ((agree_succ_iff htcp htls n).1 hagree)⟩

/-- For every cut of a stream: the transports agree exactly when what follows its well-formed frames
does not start with a length below 5. -/
theorem agree_iff (reads : List Bytes) (hreads : ∀ r ∈ reads, r ≠ []) :
    (∀ n, Agree ⟨[], reads⟩ n) ↔ ¬ ShortLength (AsioTlsTransport.unparsed reads.flatten) := by
  have hpend : Rx.pending ⟨[], reads⟩ = reads.flatten := rfl
  rw [← hpend]
  constructor
  · intro hall hshort
    obtain ⟨n, hn⟩ := exists_disagree ⟨[], reads⟩ hreads hshort
    exact hn (hall n)
  · intro hlong n
    exact agree_of_not_shortLength n ⟨[], reads⟩ hreads hlong

/-- A frame in two pieces, then the start of another. -/
theorem agree_on_frame :
    (session recvFrame 3 ⟨[], [[0, 0, 0], [6, 8, 0, 0, 0, 9, 42, 0, 0], [0, 5, 1]]⟩).1 =
        [.got ⟨MsgType.UPLOAD_DATA, 9, [42]⟩, .refused] ∧
      Agree ⟨[], [[0, 0, 0], [6, 8, 0, 0, 0, 9, 42, 0, 0], [0, 5, 1]]⟩ 3 := by
  have hhead : AsioTlsTransport.headFrame
      [[0, 0, 0], [6, 8, 0, 0, 0, 9, 42, 0, 0], [0, 5, 1]].flatten =
        some (⟨MsgType.UPLOAD_DATA, 9, [42]⟩, [0, 0, 0, 5, 1]) := by decide
  have hrest : AsioTlsTransport.headFrame [0, 0, 0, 5, 1] = none := by decide
  refine ⟨by decide, (agree_iff _ (by decide)).2 ?_ 3⟩
  rw [AsioTlsTransport.unparsed_some hhead, AsioTlsTransport.unparsed_none hrest,
    shortLength_iff (show put32be 5 <+: [0, 0, 0, 5, 1] by decide)]
  decide

/-- Four zero bytes: one transport reads past its buffer, the other rejects them. -/
theorem zero_length_differs :
    (session recvFrame 1 ⟨[], [[0, 0, 0, 0]]⟩).1 = [.fault] ∧
      session AsioTlsTransport.recvFrame 1 ⟨[], [[0, 0, 0, 0]]⟩ = ([.refused], ⟨[], []⟩) ∧
      ¬ ∀ n, Agree ⟨[], [[0, 0, 0, 0]]⟩ n := by
  have hfault : (session recvFrame 1 ⟨[], [[0, 0, 0, 0]]⟩).1 = [.fault] := by decide
  refine ⟨hfault, by decide, fun hall => (hall 1).within ?_⟩
  rw [hfault]
  exact List.mem_singleton.2 rfl

end AsioTcpTransport
end SecureFileTransfer
