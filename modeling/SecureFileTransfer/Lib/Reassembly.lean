import SecureFileTransfer.Lib.Bytes
import Mathlib.Data.List.Infix

/-!
# Reassembly — items out of a stream that arrives in pieces

A receiver keeps a buffer, looks at it with `poll`, and reads more while `poll` cannot decide.
Everything below is about an arbitrary `poll` whose decisions are stable: once made on a buffer
they are made on every extension of it.  The receiver is then a function of the bytes still to
come, `Rx.pending`, whatever the cut into reads, until `poll` rejects: the rejected buffer is
dropped, and where the reads fell decides which byte is looked at next (`Resync`).
-/

namespace SecureFileTransfer
namespace Reassembly

variable {φ : Type}

inductive Poll (φ : Type)
  | needMore
  | reject
  | item (f : φ) (used : Nat)
  | fault

inductive Outcome (φ : Type)
  | got (f : φ)
  | refused
  | fault
  deriving DecidableEq, Repr

/-- The receive buffer and the reads the stream will still deliver before its end. -/
structure Rx where
  buf : Bytes
  reads : List Bytes
  deriving DecidableEq, Repr

def Rx.pending (rx : Rx) : Bytes := rx.buf ++ rx.reads.flatten

/-- One call of the receiver.  An exhausted list of reads is the end of the stream, and so is a
read of no bytes. -/
def recv (poll : Bytes → Poll φ) (buf : Bytes) : List Bytes → Outcome φ × Rx
  | [] =>
      match poll buf with
      | .item f n => (.got f, ⟨buf.drop n, []⟩)
      | .reject => (.refused, ⟨[], []⟩)
      | .fault => (.fault, ⟨buf, []⟩)
      | .needMore => (.refused, ⟨buf, []⟩)
  | r :: rs =>
      match poll buf with
      | .item f n => (.got f, ⟨buf.drop n, r :: rs⟩)
      | .reject => (.refused, ⟨[], r :: rs⟩)
      | .fault => (.fault, ⟨buf, r :: rs⟩)
      | .needMore => if r.isEmpty then (.refused, ⟨buf, rs⟩) else recv poll (buf ++ r) rs

/-- The outcomes of `n` successive calls, and the state they leave. -/
def recvN (poll : Bytes → Poll φ) : Nat → Rx → List (Outcome φ) × Rx
  | 0, rx => ([], rx)
  | n + 1, rx =>
      let (o, rx') := recv poll rx.buf rx.reads
      let (os, rx'') := recvN poll n rx'
      (o :: os, rx'')

/-- The items a list of outcomes delivered. -/
def delivered : List (Outcome φ) → List φ
  | [] => []
  | .got f :: os => f :: delivered os
  | .refused :: os => delivered os
  | .fault :: os => delivered os

/-- Parse a whole stream from its start: the items, and what is left at the first position that
does not hold a complete one. -/
def parse (poll : Bytes → Poll φ) (s : Bytes) : List φ × Bytes :=
  match poll s with
  | .item f n =>
      if 0 < n ∧ n ≤ s.length then
        let (fs, rest) := parse poll (s.drop n)
        (f :: fs, rest)
      else
        ([], s)
  | _ => ([], s)
termination_by s.length
decreasing_by
  simp_wf
  omega

/-- Decisions are final, an item is decided as soon as its bytes are there, and a rejection by the
first `hdr` bytes. -/
structure Stable (poll : Bytes → Poll φ) (hdr : Nat) : Prop where
  item_pos : ∀ {b f n}, poll b = .item f n → 0 < n ∧ n ≤ b.length
  item_append : ∀ {b f n}, poll b = .item f n → ∀ y, poll (b ++ y) = .item f n
  item_prompt : ∀ {b y f n}, poll (b ++ y) = .item f n → n ≤ b.length → poll b = .item f n
  reject_append : ∀ {b}, poll b = .reject → ∀ y, poll (b ++ y) = .reject
  reject_length : ∀ {b}, poll b = .reject → hdr ≤ b.length
  reject_header : ∀ {b y}, poll (b ++ y) = .reject → hdr ≤ b.length → poll b = .reject
  no_fault : ∀ b, poll b ≠ .fault

/-- What a buffer decides, every extension of it decides. -/
theorem Stable.decided {poll : Bytes → Poll φ} {hdr : Nat} (hs : Stable poll hdr) (b y : Bytes) :
    poll b = .needMore ∨ poll (b ++ y) = poll b := by
  cases hb : poll b with
  | needMore => exact .inl rfl
  | item f n => exact .inr (hs.item_append hb y)
  | reject => exact .inr (hs.reject_append hb y)
  | fault => exact absurd hb (hs.no_fault b)

/-- Reads as a socket delivers them: at least one byte and at most `maxRead`. -/
def Bounded (maxRead : Nat) (reads : List Bytes) : Prop :=
  ∀ r ∈ reads, r ≠ [] ∧ r.length ≤ maxRead

theorem Bounded.of_suffix {maxRead : Nat} {reads reads' : List Bytes} (h : Bounded maxRead reads)
    (hsuf : reads' <:+ reads) : Bounded maxRead reads' :=
  fun r hr => h r (hsuf.subset hr)

/-- Reads that deliver one byte each. -/
def singles (bs : Bytes) : List Bytes := bs.map fun b => [b]

@[simp] theorem flatten_singles (bs : Bytes) : (singles bs).flatten = bs := by
  induction bs with
  | nil => rfl
  | cons b bs ih => simpa [singles] using ih

theorem bounded_singles {maxRead : Nat} (hmax : 0 < maxRead) (bs : Bytes) :
    Bounded maxRead (singles bs) := by
  intro r hr
  obtain ⟨b, _, rfl⟩ := List.mem_map.1 hr
  exact ⟨by simp, hmax⟩

theorem Bounded.append {maxRead : Nat} {as bs : List Bytes} (ha : Bounded maxRead as)
    (hb : Bounded maxRead bs) : Bounded maxRead (as ++ bs) := by
  intro r hr
  rcases List.mem_append.1 hr with h | h
  · exact ha r h
  · exact hb r h

/-! ## One call -/

section OneCall

variable {poll : Bytes → Poll φ} {hdr : Nat}

theorem recv_of_item {f : φ} {n : Nat} {buf : Bytes} (hb : poll buf = .item f n)
    (reads : List Bytes) : recv poll buf reads = (.got f, ⟨buf.drop n, reads⟩) := by
  cases reads with
  | nil => simp [recv, hb]
  | cons r rs => simp [recv, hb]

theorem recv_of_rejected {buf : Bytes} (hb : poll buf = .reject) (reads : List Bytes) :
    recv poll buf reads = (.refused, ⟨[], reads⟩) := by
  cases reads with
  | nil => simp [recv, hb]
  | cons r rs => simp [recv, hb]

/-- An undecided buffer takes the next read. -/
theorem recv_cons {buf r : Bytes} (hb : poll buf = .needMore) (hr : r ≠ []) (rs : List Bytes) :
    recv poll buf (r :: rs) = recv poll (buf ++ r) rs := by
  simp [recv, hb, hr]

theorem append_flatten_cons (buf r : Bytes) (rs : List Bytes) :
    buf ++ (r :: rs).flatten = (buf ++ r) ++ rs.flatten := by
  rw [List.flatten_cons, List.append_assoc]

/-- A call that can deliver delivers the first item of the pending bytes. -/
theorem recv_item (hs : Stable poll hdr) {f : φ} {n : Nat} (reads : List Bytes) (buf : Bytes)
    (hne : ∀ r ∈ reads, r ≠ []) (hp : poll (buf ++ reads.flatten) = .item f n) :
    ∃ rx, recv poll buf reads = (.got f, rx) ∧
      rx.pending = (buf ++ reads.flatten).drop n ∧ rx.reads <:+ reads := by
  induction reads generalizing buf with
  | nil =>
      rw [List.flatten_nil, List.append_nil] at hp ⊢
      exact ⟨_, recv_of_item hp [], by simp [Rx.pending], List.suffix_refl _⟩
  | cons r rs ih =>
      rcases hs.decided buf (r :: rs).flatten with hb | hsame
      · rw [append_flatten_cons] at hp ⊢
        obtain ⟨rx, hrecv, hpend, hsuf⟩ := ih (buf ++ r) (fun x hx => hne x (by simp [hx])) hp
        rw [recv_cons hb (hne r (by simp))]
        exact ⟨rx, hrecv, hpend, hsuf.trans (List.suffix_cons r rs)⟩
      · have hb : poll buf = .item f n := hsame.symm.trans hp
        refine ⟨⟨buf.drop n, r :: rs⟩, recv_of_item hb _, ?_, List.suffix_refl _⟩
        rw [Rx.pending, List.drop_append_of_le_length (hs.item_pos hb).2]

/-- A call that cannot decide reads to the end of the stream and keeps every byte. -/
theorem recv_needMore (hs : Stable poll hdr) (reads : List Bytes) (buf : Bytes)
    (hne : ∀ r ∈ reads, r ≠ []) (hp : poll (buf ++ reads.flatten) = .needMore) :
    recv poll buf reads = (.refused, ⟨buf ++ reads.flatten, []⟩) := by
  induction reads generalizing buf with
  | nil =>
      simp only [List.flatten_nil, List.append_nil] at hp ⊢
      simp [recv, hp]
  | cons r rs ih =>
      have hb : poll buf = .needMore :=
        (hs.decided buf (r :: rs).flatten).elim id fun hsame => hsame.symm.trans hp
      rw [append_flatten_cons] at hp ⊢
      rw [recv_cons hb (hne r (by simp)), ih (buf ++ r) (fun x hx => hne x (by simp [hx])) hp]

/-- A call that rejects empties the buffer; the bytes it drops are those read so far. -/
theorem recv_reject (hs : Stable poll hdr) {maxRead : Nat} (reads : List Bytes) (buf : Bytes)
    (hne : Bounded maxRead reads) (hbuf : buf.length < hdr + maxRead)
    (hp : poll (buf ++ reads.flatten) = .reject) :
    ∃ q reads', recv poll buf reads = (.refused, ⟨[], reads'⟩) ∧ hdr ≤ q ∧ q < hdr + maxRead ∧
      q ≤ (buf ++ reads.flatten).length ∧ reads'.flatten = (buf ++ reads.flatten).drop q ∧
      reads' <:+ reads := by
  induction reads generalizing buf with
  | nil =>
      simp only [List.flatten_nil, List.append_nil] at hp ⊢
      refine ⟨buf.length, [], recv_of_rejected hp [], hs.reject_length hp, hbuf, le_refl _, by simp,
        List.suffix_refl _⟩
  | cons r rs ih =>
      by_cases hlong : hdr ≤ buf.length
      · have hb : poll buf = .reject := hs.reject_header hp hlong
        exact ⟨buf.length, r :: rs, recv_of_rejected hb _, hlong, hbuf, by simp, by simp,
          List.suffix_refl _⟩
      · -- the header is not complete, so that nothing is decided yet
        have hb : poll buf = .needMore :=
          (hs.decided buf (r :: rs).flatten).elim id fun hsame =>
            absurd (hs.reject_length (hsame.symm.trans hp)) hlong
        obtain ⟨hr, hrlen⟩ := hne r (by simp)
        have hbuf' : (buf ++ r).length < hdr + maxRead := by
          rw [List.length_append]
          omega
        rw [append_flatten_cons] at hp ⊢
        obtain ⟨q, reads', hrecv, hq, hq', hqlen, hflat, hsuf⟩ :=
          ih (buf ++ r) (hne.of_suffix (List.suffix_cons r rs)) hbuf' hp
        rw [recv_cons hb hr]
        exact ⟨q, reads', hrecv, hq, hq', hqlen, hflat, hsuf.trans (List.suffix_cons r rs)⟩

/-- How a call ends: with an item the buffer holds, or on to the next read. -/
theorem recv_got_cases {f : φ} {rx : Rx} {reads : List Bytes} {buf : Bytes}
    (hne : ∀ r ∈ reads, r ≠ []) (h : recv poll buf reads = (.got f, rx)) :
    (∃ n, poll buf = .item f n ∧ rx = ⟨buf.drop n, reads⟩) ∨
      ∃ r rs, reads = r :: rs ∧ poll buf = .needMore ∧ recv poll (buf ++ r) rs = (.got f, rx) := by
  cases hb : poll buf with
  | item f' n =>
      rw [recv_of_item hb] at h
      cases h
      exact .inl ⟨n, rfl, rfl⟩
  | reject =>
      rw [recv_of_rejected hb] at h
      cases h
  | fault => cases reads <;> simp [recv, hb] at h
  | needMore =>
      cases reads with
      | nil => simp [recv, hb] at h
      | cons r rs =>
          rw [recv_cons hb (hne r (by simp))] at h
          exact .inr ⟨r, rs, rfl, rfl, h⟩

/-- A call that delivers delivers the first item of the pending bytes. -/
theorem item_of_recv_got (hs : Stable poll hdr) {f : φ} {rx : Rx} (reads : List Bytes) (buf : Bytes)
    (hne : ∀ r ∈ reads, r ≠ []) (h : recv poll buf reads = (.got f, rx)) :
    ∃ n, poll (buf ++ reads.flatten) = .item f n := by
  induction reads generalizing buf with
  | nil =>
      rcases recv_got_cases hne h with ⟨n, hb, -⟩ | ⟨r, rs, hcons, -⟩
      · exact ⟨n, hs.item_append hb _⟩
      · cases hcons
  | cons r rs ih =>
      rcases recv_got_cases hne h with ⟨n, hb, -⟩ | ⟨r', rs', hcons, -, hnext⟩
      · exact ⟨n, hs.item_append hb _⟩
      · cases hcons
        rw [append_flatten_cons]
        exact ih (buf ++ r) (fun x hx => hne x (by simp [hx])) hnext

/-- Whatever the reads, a rejected stream leaves an empty buffer. -/
theorem recv_of_reject (hs : Stable poll hdr) (reads : List Bytes) (buf : Bytes)
    (hne : ∀ r ∈ reads, r ≠ []) (hp : poll (buf ++ reads.flatten) = .reject) :
    ∃ reads', recv poll buf reads = (.refused, ⟨[], reads'⟩) := by
  induction reads generalizing buf with
  | nil => exact ⟨[], recv_of_rejected (by simpa using hp) []⟩
  | cons r rs ih =>
      rcases hs.decided buf (r :: rs).flatten with hb | hsame
      · rw [append_flatten_cons] at hp
        rw [recv_cons hb (hne r (by simp))]
        exact ih (buf ++ r) (fun x hx => hne x (by simp [hx])) hp
      · exact ⟨r :: rs, recv_of_rejected (hsame.symm.trans hp) _⟩

theorem recv_ne_fault (hs : Stable poll hdr) (reads : List Bytes) (buf : Bytes) :
    (recv poll buf reads).1 ≠ .fault := by
  induction reads generalizing buf with
  | nil =>
      cases hb : poll buf with
      | fault => exact absurd hb (hs.no_fault buf)
      | _ => simp [recv, hb]
  | cons r rs ih =>
      cases hb : poll buf with
      | fault => exact absurd hb (hs.no_fault buf)
      | needMore =>
          simp only [recv, hb]
          split
          · simp
          · exact ih (buf ++ r)
      | _ => simp [recv, hb]

/-- An item that is taken off the buffer is taken off the pending bytes. -/
theorem pending_drop_lt (hs : Stable poll hdr) {f : φ} {n : Nat} {buf : Bytes}
    (hb : poll buf = .item f n) (reads : List Bytes) :
    (Rx.pending ⟨buf.drop n, reads⟩).length < (buf ++ reads.flatten).length := by
  have hitem := hs.item_pos hb
  simp only [Rx.pending, List.length_append, List.length_drop]
  omega

/-- A call that delivers uses up pending bytes. -/
theorem recv_got_pending_lt (hs : Stable poll hdr) {f : φ} {rx : Rx} (reads : List Bytes)
    (buf : Bytes) (h : recv poll buf reads = (.got f, rx)) :
    rx.pending.length < (buf ++ reads.flatten).length := by
  induction reads generalizing buf with
  | nil =>
      cases hb : poll buf with
      | item g n =>
          rw [recv_of_item hb] at h
          cases h
          exact pending_drop_lt hs hb []
      | _ => simp [recv, hb] at h
  | cons r rs ih =>
      cases hb : poll buf with
      | item g n =>
          rw [recv_of_item hb] at h
          cases h
          exact pending_drop_lt hs hb (r :: rs)
      | needMore =>
          simp only [recv, hb] at h
          split at h
          · cases h
          · rw [append_flatten_cons]
            exact ih (buf ++ r) h
      | _ => simp [recv, hb] at h

/-- A buffer a call may start or go on with: short, or one read past an undecided one. -/
def Reached (poll : Bytes → Poll φ) (hdr maxRead : Nat) (buf : Bytes) : Prop :=
  buf.length < hdr + maxRead ∨ ∃ b r, buf = b ++ r ∧ poll b = .needMore ∧ r.length ≤ maxRead

theorem Reached.drop_item (hs : Stable poll hdr) {maxRead : Nat} {buf : Bytes} {f : φ} {n : Nat}
    (h : Reached poll hdr maxRead buf) (hb : poll buf = .item f n) :
    (buf.drop n).length < hdr + maxRead := by
  obtain ⟨hpos, hle⟩ := hs.item_pos hb
  rcases h with hshort | ⟨b, r, rfl, hb', hr⟩
  · rw [List.length_drop]
    omega
  · -- `b` alone was undecided, so the item ends inside the last read
    have hn : b.length < n := by
      by_contra hcon
      rw [hs.item_prompt hb (Nat.le_of_not_lt hcon)] at hb'
      cases hb'
    rw [List.length_append] at hle
    rw [List.length_drop, List.length_append]
    omega

/-- The buffer a delivering call leaves holds at most the tail of its last read. -/
theorem recv_got_buf (hs : Stable poll hdr) {maxRead : Nat} {f : φ} {rx : Rx} (reads : List Bytes)
    (buf : Bytes) (hne : Bounded maxRead reads) (hstart : Reached poll hdr maxRead buf)
    (h : recv poll buf reads = (.got f, rx)) : rx.buf.length < hdr + maxRead := by
  induction reads generalizing buf with
  | nil =>
      rcases recv_got_cases (fun r hr => (hne r hr).1) h with ⟨n, hb, rfl⟩ | ⟨r, rs, hcons, -⟩
      · exact hstart.drop_item hs hb
      · cases hcons
  | cons r rs ih =>
      rcases recv_got_cases (fun r hr => (hne r hr).1) h with ⟨n, hb, rfl⟩ | ⟨r', rs', hcons, hb, hnext⟩
      · exact hstart.drop_item hs hb
      · cases hcons
        exact ih (buf ++ r) (hne.of_suffix (List.suffix_cons r rs))
          (.inr ⟨buf, r, rfl, hb, (hne r (by simp)).2⟩) hnext

end OneCall

/-! ## Runs of calls -/

section Runs

variable {poll : Bytes → Poll φ} {hdr maxRead : Nat}

theorem parse_item (hs : Stable poll hdr) {s : Bytes} {f : φ} {n : Nat} (h : poll s = .item f n) :
    parse poll s = (f :: (parse poll (s.drop n)).1, (parse poll (s.drop n)).2) := by
  rw [parse, h]
  simp [hs.item_pos h]

theorem parse_stop {s : Bytes} (h : ∀ f n, poll s ≠ .item f n) : parse poll s = ([], s) := by
  rw [parse]
  cases hp : poll s with
  | item f n => exact absurd hp (h f n)
  | reject => rfl
  | needMore => rfl
  | fault => rfl

/-- After a rejected header the receiver looks for the next one `q` bytes further on, where the
read that completed the header ended.  The stream resynchronises when some such choice of cuts
leads to a complete item. -/
inductive Resync (poll : Bytes → Poll φ) (hdr maxRead : Nat) : Bytes → Prop
  | hit {t : Bytes} {q n : Nat} {f : φ} (hrej : poll t = .reject) (hq : hdr ≤ q)
      (hq' : q < hdr + maxRead) (hlen : q ≤ t.length) (hitem : poll (t.drop q) = .item f n) :
      Resync poll hdr maxRead t
  | again {t : Bytes} {q : Nat} (hrej : poll t = .reject) (hq : hdr ≤ q)
      (hq' : q < hdr + maxRead) (hlen : q ≤ t.length)
      (hnext : Resync poll hdr maxRead (t.drop q)) : Resync poll hdr maxRead t

/-- A state between two calls: bounded reads to come, and a buffer that is short unless the
stream has ended in the middle of an item. -/
structure Between (poll : Bytes → Poll φ) (hdr maxRead : Nat) (rx : Rx) : Prop where
  bounded : Bounded maxRead rx.reads
  buf : rx.buf.length < hdr + maxRead ∨ (rx.reads = [] ∧ poll rx.buf = .needMore)

theorem Between.nonempty {rx : Rx} (h : Between poll hdr maxRead rx) : ∀ r ∈ rx.reads, r ≠ [] :=
  fun r hr => (h.bounded r hr).1

theorem Between.buf_lt {rx : Rx} (h : Between poll hdr maxRead rx)
    (hp : poll rx.pending ≠ .needMore) : rx.buf.length < hdr + maxRead := by
  rcases h.buf with hshort | ⟨hreads, hneed⟩
  · exact hshort
  · rw [Rx.pending, hreads, List.flatten_nil, List.append_nil] at hp
    exact absurd hneed hp

theorem recvN_succ (n : Nat) (rx : Rx) :
    recvN poll (n + 1) rx =
      ((recv poll rx.buf rx.reads).1 :: (recvN poll n (recv poll rx.buf rx.reads).2).1,
        (recvN poll n (recv poll rx.buf rx.reads).2).2) := rfl

/-- From bytes that hold no item and cannot resynchronise, no number of calls delivers one. -/
theorem delivered_eq_nil (hs : Stable poll hdr) (hmax : 0 < maxRead) (n : Nat) :
    ∀ rx : Rx, Between poll hdr maxRead rx → (∀ f k, poll rx.pending ≠ .item f k) →
      ¬ Resync poll hdr maxRead rx.pending → delivered (recvN poll n rx).1 = [] := by
  induction n with
  | zero =>
      intro rx _ _ _
      rfl
  | succ n ih =>
      intro rx hrx hitem hres
      rw [recvN_succ]
      cases hp : poll rx.pending with
      | item f k => exact absurd hp (hitem f k)
      | fault => exact absurd hp (hs.no_fault _)
      | needMore =>
          rw [recv_needMore hs rx.reads rx.buf hrx.nonempty hp]
          have hpend : Rx.pending ⟨rx.pending, []⟩ = rx.pending := by simp [Rx.pending]
          refine ih ⟨rx.pending, []⟩ ⟨by simp [Bounded], .inr ⟨rfl, hp⟩⟩ ?_ ?_
          · rw [hpend]
            exact hitem
          · rw [hpend]
            exact hres
      | reject =>
          obtain ⟨q, reads', hrecv, hq, hq', hqlen, hflat, hsuf⟩ :=
            recv_reject hs rx.reads rx.buf hrx.bounded (hrx.buf_lt (by rw [hp]; simp)) hp
          rw [hrecv]
          have hpend : Rx.pending ⟨[], reads'⟩ = rx.pending.drop q := by
            simpa [Rx.pending] using hflat
          refine ih ⟨[], reads'⟩ ⟨hrx.bounded.of_suffix hsuf, .inl ?_⟩ ?_ ?_
          · simpa using Nat.lt_of_lt_of_le hmax (Nat.le_add_left _ _)
          · intro f k hk
            rw [hpend] at hk
            exact hres (.hit hp hq hq' hqlen hk)
          · intro hnext
            rw [hpend] at hnext
            exact hres (.again hp hq hq' hqlen hnext)

/-- A stream that cannot resynchronise delivers a prefix of its parse, however it is cut. -/
theorem delivered_isPrefix (hs : Stable poll hdr) (hmax : 0 < maxRead) (n : Nat) :
    ∀ rx : Rx, Between poll hdr maxRead rx →
      ¬ Resync poll hdr maxRead (parse poll rx.pending).2 →
      delivered (recvN poll n rx).1 <+: (parse poll rx.pending).1 := by
  induction n with
  | zero =>
      intro rx _ _
      exact List.nil_prefix
  | succ n ih =>
      intro rx hrx hres
      by_cases hitem : ∃ f k, poll rx.pending = .item f k
      · obtain ⟨f, k, hp⟩ := hitem
        obtain ⟨rx', hrecv, hpend, hsuf⟩ := recv_item hs rx.reads rx.buf hrx.nonempty hp
        have hbuf : rx'.buf.length < hdr + maxRead :=
          recv_got_buf hs rx.reads rx.buf hrx.bounded
            (.inl (hrx.buf_lt (by rw [hp]; simp))) hrecv
        have hpend' : rx'.pending = rx.pending.drop k := hpend
        rw [recvN_succ, hrecv, parse_item hs hp]
        rw [parse_item hs hp, ← hpend'] at hres
        rw [← hpend']
        exact List.cons_prefix_cons.2
          ⟨rfl, ih rx' ⟨hrx.bounded.of_suffix hsuf, .inl hbuf⟩ hres⟩
      · have hnone : ∀ f k, poll rx.pending ≠ .item f k := fun f k hk => hitem ⟨f, k, hk⟩
        rw [parse_stop hnone] at hres ⊢
        rw [delivered_eq_nil hs hmax (n + 1) rx hrx hnone hres]

/-! ## Cuts that resynchronise -/

/-- Byte by byte, a call takes exactly the bytes of the item. -/
theorem recv_singles_item (hs : Stable poll hdr) {f : φ} (xs : Bytes) (b : Bytes)
    (reads : List Bytes) (h : poll (b ++ xs) = .item f (b ++ xs).length) :
    recv poll b (singles xs ++ reads) = (.got f, ⟨[], reads⟩) := by
  induction xs generalizing b with
  | nil =>
      simp only [List.append_nil] at h
      rw [singles, List.map_nil, List.nil_append, recv_of_item h, List.drop_length]
  | cons x xs ih =>
      -- the item is longer than what has been read
      have hb : poll b = .needMore := by
        refine (hs.decided b (x :: xs)).elim id fun hsame => ?_
        have hle := (hs.item_pos (hsame.symm.trans h)).2
        rw [List.length_append, List.length_cons] at hle
        omega
      have hnext := ih (b ++ [x]) (by simpa [List.append_assoc] using h)
      have hcons : singles (x :: xs) = [x] :: singles xs := rfl
      simpa [hcons, recv, hb] using hnext

/-- While the header is incomplete, single-byte reads only fill the buffer. -/
theorem recv_singles_header (hs : Stable poll hdr) (xs : Bytes) (b y : Bytes)
    (reads : List Bytes) (h : poll (b ++ xs ++ y) = .reject) (hlen : (b ++ xs).length < hdr) :
    recv poll b (singles xs ++ reads) = recv poll (b ++ xs) reads := by
  induction xs generalizing b with
  | nil => simp [singles]
  | cons x xs ih =>
      have hb : poll b = .needMore := by
        refine (hs.decided b (x :: xs ++ y)).elim id fun hsame => ?_
        rw [← List.append_assoc, h] at hsame
        have hle := hs.reject_length hsame.symm
        simp at hlen
        omega
      have hnext := ih (b ++ [x]) (by simpa [List.append_assoc] using h)
        (by simpa [List.append_assoc] using hlen)
      have hcons : singles (x :: xs) = [x] :: singles xs := rfl
      simpa [hcons, recv, hb, List.append_assoc] using hnext

/-- The reads that make a call reject `t` and drop exactly its first `q` bytes. -/
def rejecting (hdr q : Nat) (t : Bytes) : List Bytes :=
  singles (t.take (hdr - 1)) ++ [(t.drop (hdr - 1)).take (q - (hdr - 1))]

theorem rejecting_spec (hs : Stable poll hdr) (hhdr : 0 < hdr) (hmax : 0 < maxRead) {q : Nat}
    {t : Bytes} (hrej : poll t = .reject) (hq : hdr ≤ q) (hq' : q < hdr + maxRead)
    (hlen : q ≤ t.length) (reads : List Bytes) :
    Bounded maxRead (rejecting hdr q t) ∧ (rejecting hdr q t).flatten = t.take q ∧
      recv poll [] (rejecting hdr q t ++ reads) = (.refused, ⟨[], reads⟩) := by
  have hhead : (t.take (hdr - 1)).length = hdr - 1 := by
    rw [List.length_take]
    omega
  have hlast : ((t.drop (hdr - 1)).take (q - (hdr - 1))).length = q - (hdr - 1) := by
    rw [List.length_take, List.length_drop]
    omega
  have hjoin : t.take (hdr - 1) ++ (t.drop (hdr - 1)).take (q - (hdr - 1)) = t.take q := by
    rw [← List.take_add]
    congr 1
    omega
  have hlast_ne : (t.drop (hdr - 1)).take (q - (hdr - 1)) ≠ [] := by
    intro hnil
    rw [hnil] at hlast
    simp at hlast
    omega
  refine ⟨?_, ?_, ?_⟩
  · apply (bounded_singles hmax _).append
    intro r hr
    rw [List.mem_singleton.1 hr]
    exact ⟨hlast_ne, by rw [hlast]; omega⟩
  · rw [rejecting, List.flatten_append, flatten_singles, List.flatten_singleton, hjoin]
  · have hfull : poll ([] ++ t.take (hdr - 1) ++ t.drop (hdr - 1)) = .reject := by
      simpa using hrej
    rw [rejecting, List.append_assoc,
      recv_singles_header hs _ _ _ _ hfull (by simp only [List.nil_append]; omega)]
    have hfirst : poll (t.take (hdr - 1)) = .needMore := by
      cases hb : poll (t.take (hdr - 1)) with
      | needMore => rfl
      | item f n =>
          have h := hs.item_append hb (t.drop (hdr - 1))
          rw [List.take_append_drop, hrej] at h
          cases h
      | reject =>
          have h := hs.reject_length hb
          omega
      | fault => exact absurd hb (hs.no_fault _)
    have hqrej : poll (t.take q) = .reject := by
      apply hs.reject_header (y := t.drop q)
      · rw [List.take_append_drop]
        exact hrej
      · rw [List.length_take]
        omega
    cases reads with
    | nil => simp [recv, hfirst, hlast_ne, hjoin, hqrej]
    | cons r rs => simp [recv, hfirst, hlast_ne, hjoin, hqrej]

/-- A stream that can resynchronise has a cut and a number of calls that deliver an item. -/
theorem Resync.exists_delivery (hs : Stable poll hdr) (hhdr : 0 < hdr) (hmax : 0 < maxRead)
    {t : Bytes} (h : Resync poll hdr maxRead t) :
    ∃ reads n, Bounded maxRead reads ∧ reads.flatten = t ∧
      delivered (recvN poll n ⟨[], reads⟩).1 ≠ [] := by
  induction h with
  | @hit t q k f hrej hq hq' hlen hitem =>
      obtain ⟨hb, hflat, hrecv⟩ :=
        rejecting_spec hs hhdr hmax hrej hq hq' hlen (singles (t.drop q))
      refine ⟨rejecting hdr q t ++ singles (t.drop q), 2,
        hb.append (bounded_singles hmax _), ?_, ?_⟩
      · rw [List.flatten_append, hflat, flatten_singles, List.take_append_drop]
      · have hne : ∀ r ∈ singles (t.drop q), r ≠ [] := fun r hr =>
          (bounded_singles hmax (t.drop q) r hr).1
        obtain ⟨rx, hgot, _, _⟩ := recv_item hs (singles (t.drop q)) [] hne
          (by simpa using hitem)
        rw [recvN_succ, hrecv, recvN_succ, hgot]
        simp [delivered]
  | @again t q hrej hq hq' hlen _ ih =>
      obtain ⟨reads, n, hbounded, hreads, hdel⟩ := ih
      obtain ⟨hb, hflat, hrecv⟩ := rejecting_spec hs hhdr hmax hrej hq hq' hlen reads
      refine ⟨rejecting hdr q t ++ reads, n + 1, hb.append hbounded, ?_, ?_⟩
      · rw [List.flatten_append, hflat, hreads, List.take_append_drop]
      · rw [recvN_succ, hrecv]
        exact hdel

/-- The items before the rejected header come first, then one that the parse does not have. -/
theorem exists_not_isPrefix (hs : Stable poll hdr) (hhdr : 0 < hdr) (hmax : 0 < maxRead)
    (s : Bytes) (h : Resync poll hdr maxRead (parse poll s).2) :
    ∃ reads n, Bounded maxRead reads ∧ reads.flatten = s ∧
      ¬ delivered (recvN poll n ⟨[], reads⟩).1 <+: (parse poll s).1 := by
  induction hsize : s.length using Nat.strongRecOn generalizing s with
  | ind size ih =>
      by_cases hitem : ∃ f k, poll s = .item f k
      · obtain ⟨f, k, hp⟩ := hitem
        obtain ⟨hpos, hle⟩ := hs.item_pos hp
        have hparse := parse_item hs hp
        rw [hparse] at h
        obtain ⟨reads, n, hbounded, hreads, hdel⟩ :=
          ih (s.drop k).length (by rw [List.length_drop]; omega) (s.drop k) h rfl
        have htake : (s.take k).length = k := by
          rw [List.length_take]
          omega
        have hhead : poll ([] ++ s.take k) = .item f ([] ++ s.take k).length := by
          rw [List.nil_append, htake]
          apply hs.item_prompt (y := s.drop k)
          · rw [List.take_append_drop]
            exact hp
          · exact htake.ge
        refine ⟨singles (s.take k) ++ reads, n + 1,
          (bounded_singles hmax _).append hbounded, ?_, ?_⟩
        · rw [List.flatten_append, flatten_singles, hreads, List.take_append_drop]
        · rw [recvN_succ, recv_singles_item hs _ _ _ hhead, hparse]
          intro hpre
          exact hdel (List.cons_prefix_cons.1 hpre).2
      · have hnone : ∀ f k, poll s ≠ .item f k := fun f k hk => hitem ⟨f, k, hk⟩
        rw [parse_stop hnone] at h ⊢
        obtain ⟨reads, n, hbounded, hreads, hdel⟩ := h.exists_delivery hs hhdr hmax
        refine ⟨reads, n, hbounded, hreads, ?_⟩
        intro hpre
        exact hdel (List.prefix_nil.1 hpre)

/-- Exactly the streams that cannot resynchronise are delivered in parse order under every cut
and any number of calls. -/
theorem forall_delivered_isPrefix_iff (hs : Stable poll hdr) (hhdr : 0 < hdr) (hmax : 0 < maxRead)
    (s : Bytes) :
    (∀ reads, Bounded maxRead reads → reads.flatten = s → ∀ n,
      delivered (recvN poll n ⟨[], reads⟩).1 <+: (parse poll s).1) ↔
      ¬ Resync poll hdr maxRead (parse poll s).2 := by
  constructor
  · intro hall hres
    obtain ⟨reads, n, hbounded, hreads, hdel⟩ := exists_not_isPrefix hs hhdr hmax s hres
    exact hdel (hall reads hbounded hreads n)
  · intro hres reads hbounded hreads n
    have hpend : Rx.pending ⟨[], reads⟩ = s := by simpa [Rx.pending] using hreads
    have hbetween : Between poll hdr maxRead ⟨[], reads⟩ :=
      ⟨hbounded, .inl (by simpa using Nat.lt_of_lt_of_le hmax (Nat.le_add_left _ _))⟩
    have hpre := delivered_isPrefix hs hmax n ⟨[], reads⟩ hbetween (by rw [hpend]; exact hres)
    rwa [hpend] at hpre

end Runs

/-! ## Sessions -/

section Sessions

variable {receive : Rx → Outcome φ × Rx} {rx rx' : Rx}

/-- Successive calls up to the first that delivers nothing, at most `n` of them. -/
def session (receive : Rx → Outcome φ × Rx) : Nat → Rx → List (Outcome φ) × Rx
  | 0, rx => ([], rx)
  | n + 1, rx =>
      match receive rx with
      | (.got f, rx') =>
          let (os, rx'') := session receive n rx'
          (.got f :: os, rx'')
      | (o, rx') => ([o], rx')

theorem session_got {f : φ} (h : receive rx = (.got f, rx')) (n : Nat) :
    session receive (n + 1) rx =
      (.got f :: (session receive n rx').1, (session receive n rx').2) := by
  rw [session, h]

theorem session_stop {o : Outcome φ} (h : receive rx = (o, rx')) (ho : ∀ f, o ≠ .got f) (n : Nat) :
    session receive (n + 1) rx = ([o], rx') := by
  rw [session, h]
  cases o with
  | got f => exact absurd rfl (ho f)
  | refused => rfl
  | fault => rfl

end Sessions

end Reassembly
end SecureFileTransfer
