import SecureFileTransfer.Lib.Bytes

/-!
# PrefixCodec — readers at a moving offset

A decoder that walks a buffer with an offset is a function of the buffer into the state monad of
the offset, failing with an exception.  `Decodes r enc dom short` says that such a reader accepts
exactly the encodings of the values in `dom`, consumes exactly the encoding, and fails with
nothing but the exceptions `short` describes.  The rules below build that judgement field by
field, in the order the reader reads; the consequences (round trip, uniqueness, rejection of
every proper prefix) hold of every reader that satisfies it.
-/

namespace SecureFileTransfer
namespace PrefixCodec

variable {ε α β : Type}

/-- A reader over a buffer: the state is the offset of the next unread byte. -/
abbrev Reader (ε α : Type) := Bytes → StateT Nat (Except ε) α

/-- Run a reader from the start of the buffer and drop the final offset. -/
def Reader.decode (r : Reader ε α) (b : Bytes) : Except ε α :=
  (r b).run' 0

structure Decodes (r : Reader ε α) (enc : α → Bytes) (dom : α → Prop) (short : ε → Prop) :
    Prop where
  ok_iff : ∀ {b : Bytes} {off : Nat} {a : α} {off' : Nat}, off ≤ b.length →
    ((r b).run off = .ok (a, off') ↔
      dom a ∧ enc a <+: b.drop off ∧ off' = off + (enc a).length)
  error : ∀ {b : Bytes} {off : Nat} {e : ε}, off ≤ b.length →
    (r b).run off = .error e → short e

/-! ## Rules -/

section Rules

variable {enc : α → Bytes} {dom : α → Prop} {short : ε → Prop}

/-- A reader never moves past the end of the buffer. -/
theorem Decodes.offset_le {r : Reader ε α} (h : Decodes r enc dom short) {b : Bytes}
    {off off' : Nat} {a : α} (hoff : off ≤ b.length) (hr : (r b).run off = .ok (a, off')) :
    off' ≤ b.length := by
  obtain ⟨_, hpre, rfl⟩ := (h.ok_iff hoff).1 hr
  have hlen : (enc a).length ≤ b.length - off := by
    simpa using hpre.length_le
  omega

/-- The last rule of a derivation: the fields read so far determine the value. -/
theorem Decodes.done {K : α → Prop} {v : α} (hK : ∀ a, K a ↔ a = v) :
    Decodes (fun _ => pure v : Reader ε α) (fun _ => []) (fun a => K a ∧ True) short where
  ok_iff := by
    intro b off a off' _
    constructor
    · intro h
      have h' : (Except.ok (v, off) : Except ε (α × Nat)) = .ok (a, off') := h
      cases h'
      simp [(hK v).2 rfl]
    · rintro ⟨⟨ha, _⟩, _, rfl⟩
      rw [(hK a).1 ha]
      rfl
  error := by
    intro b off e _ h
    have h' : (Except.ok (v, off) : Except ε (α × Nat)) = .error e := h
    cases h'

/-- Read one field, then the rest: `part` picks the field out of the finished value, and `K`
collects what the fields already read say about it. -/
theorem Decodes.field {r : Reader ε α} {k : α → Reader ε β} {K : β → Prop} (part : β → α)
    {encTail : β → Bytes} {domTail : β → Prop}
    (hr : Decodes r enc dom short)
    (hk : ∀ x, Decodes (k x) encTail (fun p => (K p ∧ part p = x) ∧ domTail p) short) :
    Decodes (fun b => r b >>= fun x => k x b) (fun p => enc (part p) ++ encTail p)
      (fun p => K p ∧ dom (part p) ∧ domTail p) short where
  ok_iff := by
    intro b off p off' hoff
    have hrun : (r b >>= fun x => k x b).run off =
        (r b).run off >>= fun xo => (k xo.1 b).run xo.2 := rfl
    rw [hrun]
    cases hx : (r b).run off with
    | error e =>
        constructor
        · intro h
          cases h
        · rintro ⟨⟨_, hdom, _⟩, hpre, _⟩
          -- the first field alone is a prefix, so the first reader would have succeeded
          have hfirst : enc (part p) <+: b.drop off := (List.prefix_append _ _).trans hpre
          have hok := (hr.ok_iff (a := part p) hoff).2 ⟨hdom, hfirst, rfl⟩
          rw [hx] at hok
          cases hok
    | ok xo =>
        obtain ⟨x, o⟩ := xo
        obtain ⟨hdomx, hprex, rfl⟩ := (hr.ok_iff hoff).1 hx
        have ho : off + (enc x).length ≤ b.length := hr.offset_le hoff hx
        have hbind : (Except.ok (x, off + (enc x).length) >>= fun xo => (k xo.1 b).run xo.2) =
            ((k x b).run (off + (enc x).length) : Except ε (β × Nat)) := rfl
        rw [hbind, (hk x).ok_iff ho]
        obtain ⟨rest, hrest⟩ := hprex
        have hdrop : b.drop (off + (enc x).length) = rest := by
          rw [← List.drop_drop, ← hrest, List.drop_left]
        constructor
        · rintro ⟨⟨⟨hkn, rfl⟩, htail⟩, hpre, rfl⟩
          refine ⟨⟨hkn, hdomx, htail⟩, ?_, by simp [Nat.add_assoc]⟩
          rw [hdrop] at hpre
          rw [← hrest]
          exact (List.prefix_append_right_inj _).2 hpre
        · rintro ⟨⟨hkn, hdom, htail⟩, hpre, rfl⟩
          -- both `x` and `part p` are read at `off`, so they are the same field
          have hfirst : enc (part p) <+: b.drop off := (List.prefix_append _ _).trans hpre
          have hok := (hr.ok_iff (a := part p) hoff).2 ⟨hdom, hfirst, rfl⟩
          rw [hx] at hok
          cases hok
          refine ⟨⟨⟨hkn, rfl⟩, htail⟩, ?_, by simp [Nat.add_assoc]⟩
          rw [hdrop]
          rw [← hrest] at hpre
          exact (List.prefix_append_right_inj _).1 hpre
  error := by
    intro b off e hoff h
    have hrun : (r b >>= fun x => k x b).run off =
        (r b).run off >>= fun xo => (k xo.1 b).run xo.2 := rfl
    rw [hrun] at h
    cases hx : (r b).run off with
    | error e' =>
        rw [hx] at h
        cases h
        exact hr.error hoff hx
    | ok xo =>
        rw [hx] at h
        exact (hk xo.1).error (hr.offset_le hoff hx) h

/-- Restate a derivation with an encoder and a domain that agree with the derived ones. -/
theorem Decodes.congr {r : Reader ε α} {enc' : α → Bytes} {dom' : α → Prop}
    (h : Decodes r enc dom short) (hdom : ∀ a, dom' a ↔ dom a) (henc : ∀ a, enc' a = enc a) :
    Decodes r enc' dom' short := by
  have hd : dom' = dom := funext fun a => propext (hdom a)
  have he : enc' = enc := funext henc
  rw [hd, he]
  exact h

end Rules

/-! ## What the judgement gives -/

section Consequences

variable {r : Reader ε α} {enc : α → Bytes} {dom : α → Prop} {short : ε → Prop}

theorem decode_eq_ok_iff_run {b : Bytes} {a : α} :
    r.decode b = .ok a ↔ ∃ off', (r b).run 0 = .ok (a, off') := by
  have hrun : r.decode b = Prod.fst <$> (r b).run 0 := rfl
  rw [hrun]
  cases (r b).run 0 with
  | error e =>
      constructor
      · intro h
        cases h
      · rintro ⟨_, h⟩
        cases h
  | ok ao =>
      obtain ⟨a', off'⟩ := ao
      constructor
      · intro h
        cases h
        exact ⟨off', rfl⟩
      · rintro ⟨_, h⟩
        cases h
        rfl

theorem Decodes.decode_ok_iff (h : Decodes r enc dom short) {b : Bytes} {a : α} :
    r.decode b = .ok a ↔ dom a ∧ enc a <+: b := by
  rw [decode_eq_ok_iff_run]
  constructor
  · rintro ⟨off', hr⟩
    obtain ⟨hdom, hpre, _⟩ := (h.ok_iff (Nat.zero_le _)).1 hr
    exact ⟨hdom, by simpa using hpre⟩
  · rintro ⟨hdom, hpre⟩
    exact ⟨_, (h.ok_iff (Nat.zero_le _)).2 ⟨hdom, by simpa using hpre, rfl⟩⟩

theorem Decodes.decode_error (h : Decodes r enc dom short) {b : Bytes} {e : ε}
    (he : r.decode b = .error e) : short e := by
  have hrun : r.decode b = Prod.fst <$> (r b).run 0 := rfl
  rw [hrun] at he
  cases hx : (r b).run 0 with
  | error e' =>
      rw [hx] at he
      cases he
      exact h.error (Nat.zero_le _) hx
  | ok ao =>
      rw [hx] at he
      cases he

/-- Two encodings that start the same buffer are encodings of the same value. -/
theorem Decodes.unique (h : Decodes r enc dom short) {b : Bytes} {a a' : α}
    (ha : dom a ∧ enc a <+: b) (ha' : dom a' ∧ enc a' <+: b) : a = a' := by
  have hok := h.decode_ok_iff.2 ha
  have hok' := h.decode_ok_iff.2 ha'
  rw [hok] at hok'
  cases hok'
  rfl

theorem Decodes.decode_append (h : Decodes r enc dom short) {a : α} (ha : dom a) (rest : Bytes) :
    r.decode (enc a ++ rest) = .ok a :=
  h.decode_ok_iff.2 ⟨ha, List.prefix_append _ _⟩

/-- A buffer the reader does not accept is refused with one of the `short` exceptions. -/
theorem Decodes.refuses (h : Decodes r enc dom short) {b : Bytes}
    (hb : ∀ a, dom a → ¬ enc a <+: b) : ∃ e, short e ∧ r.decode b = .error e := by
  cases hx : r.decode b with
  | error e =>
      exact ⟨e, h.decode_error hx, rfl⟩
  | ok a =>
      obtain ⟨hdom, hpre⟩ := h.decode_ok_iff.1 hx
      exact absurd hpre (hb a hdom)

theorem Decodes.refuses_proper_prefix (h : Decodes r enc dom short) {a : α} (ha : dom a)
    {b : Bytes} (hpre : b <+: enc a) (hne : b ≠ enc a) :
    ∃ e, short e ∧ r.decode b = .error e := by
  apply h.refuses
  intro a' ha' hpre'
  -- an accepted value would also be read from the full encoding, so it would be `a` itself
  have haa : a' = a := h.unique ⟨ha', hpre'.trans hpre⟩ ⟨ha, List.prefix_refl _⟩
  subst haa
  exact hne (hpre.eq_of_length_le hpre'.length_le)

end Consequences

end PrefixCodec
end SecureFileTransfer
