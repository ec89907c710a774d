import SecureFileTransfer.AsioTlsTransport

/-!
# FrameStream — what a connection delivers

A well-formed stream is delivered frame by frame under every cut.  A hostile stream is delivered
in order only up to the first header that is rejected: the reject path clears the buffer and
leaves the socket where it is, so a later call starts in the middle of what was rejected.
-/

namespace SecureFileTransfer
namespace AsioTlsTransport

open Reassembly

/-! ## Well-formed streams -/

theorem recvFrames_flatten (frames : List Frame) (hbody : ∀ f ∈ frames, f.body.length ≤ maxBody) :
    ∀ rx : Rx, (∀ r ∈ rx.reads, r ≠ []) → rx.pending = (frames.map encodeFrame).flatten →
      ∃ rx', recvFrames frames.length rx = (frames.map .got, rx') ∧ rx'.pending = [] ∧
        rx'.reads <:+ rx.reads := by
  induction frames with
  | nil =>
      intro rx _ hpend
      exact ⟨rx, rfl, hpend, List.suffix_refl _⟩
  | cons f fs ih =>
      intro rx hne hpend
      have hf : f.body.length ≤ maxBody := hbody f (by simp)
      have hfs : ∀ g ∈ fs, g.body.length ≤ maxBody := fun g hg => hbody g (by simp [hg])
      rw [List.map_cons, List.flatten_cons] at hpend
      have hitem : poll rx.pending = .item f (encodeFrame f).length := by
        rw [hpend]
        exact poll_encodeFrame hf _
      obtain ⟨rx₁, hrecv, hpend₁, hsuf₁⟩ := recv_item poll_stable rx.reads rx.buf hne hitem
      have hrest : rx₁.pending = (fs.map encodeFrame).flatten := by
        have h : rx₁.pending = rx.pending.drop (encodeFrame f).length := hpend₁
        rw [h, hpend, List.drop_left]
      obtain ⟨rx₂, hrecvN, hpend₂, hsuf₂⟩ :=
        ih hfs rx₁ (fun r hr => hne r (hsuf₁.subset hr)) hrest
      refine ⟨rx₂, ?_, hpend₂, hsuf₂.trans hsuf₁⟩
      have hrecvN' : recvN poll fs.length rx₁ = (fs.map .got, rx₂) := hrecvN
      rw [recvFrames, List.length_cons, recvN_succ, hrecv, hrecvN']
      rfl

theorem pending_eq_nil {rx : Rx} (hne : ∀ r ∈ rx.reads, r ≠ []) (h : rx.pending = []) :
    rx = ⟨[], []⟩ := by
  obtain ⟨hbuf, hreads⟩ := List.append_eq_nil_iff.1 h
  have hnil : rx.reads = [] := by
    apply List.eq_nil_iff_forall_not_mem.2
    intro r hr
    exact hne r hr (List.flatten_eq_nil_iff.1 hreads r hr)
  cases rx
  simp_all

/-- Every list of frames within the limit, cut into reads in any way, is delivered frame by frame
and in order; the buffer is then empty and the next call reports the end of the stream. -/
theorem recvFrames_reassemble (frames : List Frame) (reads : List Bytes)
    (hbody : ∀ f ∈ frames, f.body.length ≤ 4 * 1024 * 1024 - 5)
    (hreads : ∀ r ∈ reads, 1 ≤ r.length ∧ r.length ≤ 1024)
    (hcut : reads.flatten = (frames.map encodeFrame).flatten) :
    ∃ rx, recvFrames frames.length ⟨[], reads⟩ = (frames.map .got, rx) ∧ rx.buf = [] ∧
      recvFrame rx = (.refused, rx) := by
  have hne : ∀ r ∈ reads, r ≠ [] := by
    intro r hr hnil
    have h := (hreads r hr).1
    simp [hnil] at h
  obtain ⟨rx, hrecv, hpend, hsuf⟩ :=
    recvFrames_flatten frames hbody ⟨[], reads⟩ hne (by simpa [Rx.pending] using hcut)
  have hrx : rx = ⟨[], []⟩ := pending_eq_nil (fun r hr => hne r (hsuf.subset hr)) hpend
  subst hrx
  exact ⟨⟨[], []⟩, hrecv, rfl, rfl⟩

/-- Two frames, the second with a body, read as five pieces that respect neither boundary. -/
theorem recvFrames_reassemble_two :
    ∃ rx, recvFrames 2 ⟨[], [[0, 0], [0, 5, 1, 0, 0, 0], [7, 0, 0, 0, 6, 8], [0, 0, 0, 9], [42]]⟩ =
      ([.got ⟨MsgType.HELLO, 7, []⟩, .got ⟨MsgType.UPLOAD_DATA, 9, [42]⟩], rx) ∧ rx.buf = [] ∧
      recvFrame rx = (.refused, rx) :=
  recvFrames_reassemble [⟨MsgType.HELLO, 7, []⟩, ⟨MsgType.UPLOAD_DATA, 9, [42]⟩] _
    (by decide) (by decide) (by decide)

/-! ## Streams parsed from offset 0 -/

/-- The complete well-formed frame at the start of a byte string, and what follows it: a length
between 5 and 4 MiB, then that many bytes. -/
def headFrame (s : Bytes) : Option (Frame × Bytes) :=
  let len := Bytes.beNat (s.take 4)
  if 4 ≤ s.length ∧ 5 ≤ len ∧ len ≤ 4 * 1024 * 1024 ∧ 4 + len ≤ s.length then
    some
      ({ type := ⟨s.getD 4 0⟩
         requestId := UInt32.ofNat (Bytes.beNat ((s.drop 5).take 4))
         body := (s.drop 9).take (len - 5) },
        s.drop (4 + len))
  else
    none

theorem headFrame_length {s rest : Bytes} {f : Frame} (h : headFrame s = some (f, rest)) :
    rest.length < s.length := by
  unfold headFrame at h
  simp only at h
  split at h
  · next hcond =>
      cases h
      rw [List.length_drop]
      omega
  · cases h

/-- The frames of a stream up to the first malformed or incomplete one. -/
def parseFrames (s : Bytes) : List Frame :=
  match _h : headFrame s with
  | some (f, rest) => f :: parseFrames rest
  | none => []
termination_by s.length
decreasing_by exact headFrame_length _h

/-- What the parse leaves unread. -/
def unparsed (s : Bytes) : Bytes :=
  match _h : headFrame s with
  | some (_, rest) => unparsed rest
  | none => s
termination_by s.length
decreasing_by exact headFrame_length _h

theorem parseFrames_some {s rest : Bytes} {f : Frame} (hs : headFrame s = some (f, rest)) :
    parseFrames s = f :: parseFrames rest := by
  rw [parseFrames]
  split
  · next h =>
      rw [hs] at h
      cases h
      rfl
  · next h =>
      rw [hs] at h
      cases h

theorem parseFrames_none {s : Bytes} (hs : headFrame s = none) : parseFrames s = [] := by
  rw [parseFrames]
  split
  · next h =>
      rw [hs] at h
      cases h
  · rfl

theorem unparsed_some {s rest : Bytes} {f : Frame} (hs : headFrame s = some (f, rest)) :
    unparsed s = unparsed rest := by
  rw [unparsed]
  split
  · next h =>
      rw [hs] at h
      cases h
      rfl
  · next h =>
      rw [hs] at h
      cases h

theorem unparsed_none {s : Bytes} (hs : headFrame s = none) : unparsed s = s := by
  rw [unparsed]
  split
  · next h =>
      rw [hs] at h
      cases h
  · rfl

theorem headFrame_encodeFrame {f : Frame} (hf : f.body.length ≤ maxBody) (y : Bytes) :
    headFrame (encodeFrame f ++ y) = some (f, y) := by
  have hword := length_word hf
  have hsplit : encodeFrame f ++ y =
      put32be (UInt32.ofNat (f.type.code :: put32be f.requestId ++ f.body).length) ++
        (f.type.code :: (put32be f.requestId ++ (f.body ++ y))) := by
    simp [encodeFrame]
  have hlen : Bytes.beNat ((encodeFrame f ++ y).take 4) = 5 + f.body.length := by
    rw [hsplit, List.take_left' (length_put32be _), put32be_eq,
      Bytes.beNat_beBytes (UInt32.toNat_lt _), hword]
  have hdrop5 : (encodeFrame f ++ y).drop 5 = put32be f.requestId ++ (f.body ++ y) := by
    rw [hsplit, List.drop_append]
    simp
  have hdrop9 : (encodeFrame f ++ y).drop 9 = f.body ++ y := by
    have h := congrArg (List.drop 4) hdrop5
    rw [List.drop_drop, List.drop_left' (length_put32be _)] at h
    exact h
  have htype : (encodeFrame f ++ y).getD 4 0 = f.type.code := by
    rw [hsplit, List.getD_append_right _ _ _ _ (by simp)]
    simp
  have hid : UInt32.ofNat (Bytes.beNat ((put32be f.requestId ++ (f.body ++ y)).take 4)) =
      f.requestId := by
    rw [List.take_left' (length_put32be _), put32be_eq,
      Bytes.beNat_beBytes (UInt32.toNat_lt _), UInt32.ofNat_toNat]
  have htotal : (encodeFrame f ++ y).length = 9 + f.body.length + y.length := by
    rw [List.length_append, length_encodeFrame]
  have hrest : (encodeFrame f ++ y).drop (4 + (5 + f.body.length)) = y := by
    have h : 4 + (5 + f.body.length) = (encodeFrame f).length := by
      rw [length_encodeFrame]
      omega
    rw [h, List.drop_left]
  simp only [maxBody] at hf
  simp only [headFrame, hlen, htotal, hdrop5, hdrop9, htype, hid, hrest]
  rw [if_pos (by omega), Nat.add_sub_cancel_left, List.take_left]

/-- The frame at the start of a stream is the one the receive loop decodes. -/
theorem headFrame_eq_some_iff {s rest : Bytes} {f : Frame} :
    headFrame s = some (f, rest) ↔
      poll s = .item f (encodeFrame f).length ∧ s = encodeFrame f ++ rest := by
  constructor
  · intro h
    have hs : ∃ g : Frame, g.body.length ≤ maxBody ∧ encodeFrame g <+: s := by
      have h' := h
      unfold headFrame at h'
      simp only at h'
      split at h'
      · next hcond =>
          obtain ⟨len, hpre⟩ := exists_header hcond.1
          have hnat : Bytes.beNat (s.take 4) = len.toNat := by
            have htake := List.prefix_iff_eq_take.1 hpre
            rw [length_put32be] at htake
            rw [← htake, put32be_eq, Bytes.beNat_beBytes (UInt32.toNat_lt _)]
          rw [hnat] at hcond
          exact poll_accepted hpre ⟨hcond.2.1, hcond.2.2.1⟩ hcond.2.2.2
      · cases h'
    obtain ⟨g, hg, y, rfl⟩ := hs
    rw [headFrame_encodeFrame hg y] at h
    cases h
    exact ⟨poll_encodeFrame hg _, rfl⟩
  · rintro ⟨hitem, rfl⟩
    exact headFrame_encodeFrame (poll_item_iff.1 hitem).1 rest

theorem parse_poll (s : Bytes) : parse poll s = (parseFrames s, unparsed s) := by
  induction hsize : s.length using Nat.strongRecOn generalizing s with
  | ind size ih =>
      cases hhead : headFrame s with
      | some fr =>
          obtain ⟨f, rest⟩ := fr
          obtain ⟨hitem, hs⟩ := headFrame_eq_some_iff.1 hhead
          have hdrop : s.drop (encodeFrame f).length = rest := by
            conv_lhs => rw [hs]
            exact List.drop_left
          have hrec := ih rest.length (by rw [← hsize]; exact headFrame_length hhead) rest rfl
          rw [parse_item poll_stable hitem, hdrop, hrec, parseFrames_some hhead, unparsed_some hhead]
      | none =>
          have hnone : ∀ f n, poll s ≠ .item f n := by
            intro f n hitem
            obtain ⟨_, ⟨y, hy⟩, rfl⟩ := poll_item_iff.1 hitem
            rw [headFrame_eq_some_iff.2 ⟨hitem, hy.symm⟩] at hhead
            cases hhead
          rw [parse_stop hnone, parseFrames_none hhead, unparsed_none hhead]

/-! ## Hostile streams -/

/-- The receiver can be made to find a frame after rejecting the header at the start of `t`: it
restarts `q` bytes further on, `q` being what had been read when the header was complete. -/
inductive Resyncs : Bytes → Prop
  | hit {t rest : Bytes} {q : Nat} {f : Frame} (hbad : Malformed t) (hq : 4 ≤ q) (hq' : q ≤ 1027)
      (hlen : q ≤ t.length) (hframe : headFrame (t.drop q) = some (f, rest)) : Resyncs t
  | again {t : Bytes} {q : Nat} (hbad : Malformed t) (hq : 4 ≤ q) (hq' : q ≤ 1027)
      (hlen : q ≤ t.length) (hnext : Resyncs (t.drop q)) : Resyncs t

theorem resyncs_iff {t : Bytes} : Resyncs t ↔ Resync poll 4 maxRead t := by
  constructor
  · intro h
    induction h with
    | hit hbad hq hq' hlen hframe =>
        exact .hit (poll_reject_iff.2 hbad) hq (by simp only [maxRead]; omega) hlen
          (headFrame_eq_some_iff.1 hframe).1
    | again hbad hq hq' hlen _ ih =>
        exact .again (poll_reject_iff.2 hbad) hq (by simp only [maxRead]; omega) hlen ih
  · intro h
    induction h with
    | hit hrej hq hq' hlen hitem =>
        obtain ⟨_, ⟨y, hy⟩, rfl⟩ := poll_item_iff.1 hitem
        exact .hit (poll_reject_iff.1 hrej) hq (by simp only [maxRead] at hq'; omega) hlen
          (headFrame_eq_some_iff.2 ⟨hitem, hy.symm⟩)
    | again hrej hq hq' hlen _ ih =>
        exact .again (poll_reject_iff.1 hrej) hq (by simp only [maxRead] at hq'; omega) hlen ih

theorem bounded_iff {reads : List Bytes} :
    Bounded maxRead reads ↔ ∀ r ∈ reads, 1 ≤ r.length ∧ r.length ≤ 1024 := by
  simp only [Bounded, maxRead, ← List.length_pos_iff_ne_nil]
  rfl

/-- Every cut of `s` and any number of calls deliver a prefix of the frames of `s`, exactly when
nothing behind a rejected header can be taken for a frame. -/
theorem recvFrames_isPrefix_iff (s : Bytes) :
    (∀ reads : List Bytes, (∀ r ∈ reads, 1 ≤ r.length ∧ r.length ≤ 1024) → reads.flatten = s →
      ∀ n, delivered (recvFrames n ⟨[], reads⟩).1 <+: parseFrames s) ↔
      ¬ Resyncs (unparsed s) := by
  have hlib := forall_delivered_isPrefix_iff poll_stable (by decide) (by decide : 0 < maxRead) s
  rw [parse_poll] at hlib
  rw [resyncs_iff, ← hlib]
  exact forall_congr' fun reads => imp_congr_left bounded_iff.symm

/-- A zero length word, then a HELLO frame: the second call returns a frame although the stream
parses to none. -/
theorem recvFrames_not_isPrefix :
    ¬ ∀ (s : Bytes) (reads : List Bytes), (∀ r ∈ reads, 1 ≤ r.length ∧ r.length ≤ 1024) →
      reads.flatten = s → ∀ n, delivered (recvFrames n ⟨[], reads⟩).1 <+: parseFrames s := by
  intro hall
  have hrun := hall ([0, 0, 0, 0] ++ encodeFrame ⟨MsgType.HELLO, 7, [1]⟩)
    [[0, 0, 0, 0], encodeFrame ⟨MsgType.HELLO, 7, [1]⟩] (by decide) (by decide) 2
  have hdel : delivered (recvFrames 2
      ⟨[], [[0, 0, 0, 0], encodeFrame ⟨MsgType.HELLO, 7, [1]⟩]⟩).1 =
      [⟨MsgType.HELLO, 7, [1]⟩] := by decide
  have hhead : headFrame ([0, 0, 0, 0] ++ encodeFrame ⟨MsgType.HELLO, 7, [1]⟩) = none := by decide
  rw [hdel, parseFrames_none hhead] at hrun
  exact absurd (List.prefix_nil.1 hrun) (by simp)

end AsioTlsTransport
end SecureFileTransfer
