import SecureFileTransfer.TamperEvidence

/-!
# AuditFields — what the field search returns on any line

The two extractors of the audit log, written as functions of the text behind the key.  `AuditChain`
reads lines with plain values; here the line is arbitrary, or holds any escaped values.
-/

namespace SecureFileTransfer

open StdString

/-! ## The text behind a key -/

/-- What stands behind the first `"key":` of the line. -/
def afterKey (line key : Bytes) : Option Bytes :=
  (indexOf (keyPattern key) line).map fun p => line.drop (p + (keyPattern key).length)

/-- Up to the first quote that no backslash precedes; `prev` is the byte before the text. -/
def quotedValue : UInt8 → Bytes → Bytes
  | _, [] => []
  | prev, c :: s => if c = 34 ∧ prev ≠ 92 then [] else c :: quotedValue c s

/-- A number: up to the comma, or up to the brace of the last field. -/
def numberValue (s : Bytes) : Bytes :=
  if (44 : UInt8) ∈ s then s.takeWhile (· != 44) else s.takeWhile (· != 125)

/-- The value that starts the text, with the closing quote `getField` looks for. -/
def readValue : Bytes → Bytes
  | 34 :: s => quotedValue 34 s
  | s => numberValue s

/-- The value that starts the text, closed by its first quote. -/
def readValueNaive : Bytes → Bytes
  | 34 :: s => s.takeWhile (· != 34)
  | s => numberValue s

theorem readValue_number {s : Bytes} (h : ∀ s', s ≠ 34 :: s') : readValue s = numberValue s := by
  unfold readValue
  split
  · next s' => exact absurd rfl (h s')
  · rfl

theorem readValueNaive_number {s : Bytes} (h : ∀ s', s ≠ 34 :: s') :
    readValueNaive s = numberValue s := by
  unfold readValueNaive
  split
  · next s' => exact absurd rfl (h s')
  · rfl

theorem afterKey_of_firstAt {line key pre post : Bytes} (h : FirstAt (keyPattern key) line pre post) :
    afterKey line key = some post := by
  rw [afterKey, h.index, Option.map_some, h.split, ← List.length_append, List.drop_left]

theorem afterKey_eq_none_iff {line key : Bytes} :
    afterKey line key = none ↔ indexOf (keyPattern key) line = none := by
  rw [afterKey, Option.map_eq_none_iff]

/-- A key that is found cuts the line in three. -/
theorem exists_firstAt_of_afterKey {line key s : Bytes} (h : afterKey line key = some s) :
    ∃ pre, FirstAt (keyPattern key) line pre s := by
  rw [afterKey, Option.map_eq_some_iff] at h
  obtain ⟨p, hp, hdrop⟩ := h
  obtain ⟨pre, post, hfirst, rfl⟩ := exists_firstAt hp
  rw [hfirst.split, ← List.length_append, List.drop_left] at hdrop
  exact ⟨pre, hdrop ▸ hfirst⟩

/-! ## The extractors as functions of that text -/

/-- Text without a quote belongs to the value. -/
theorem quotedValue_append {w : Bytes} (hw : (34 : UInt8) ∉ w) (prev : UInt8) (s : Bytes) :
    quotedValue prev (w ++ s) = w ++ quotedValue ((prev :: w).getLast (by simp)) s := by
  induction w generalizing prev with
  | nil => rfl
  | cons b w ih =>
      have hb : ¬ (b = 34 ∧ prev ≠ 92) := fun h => hw (by simp [h.1])
      have hw' : (34 : UInt8) ∉ w := fun h => hw (List.mem_cons_of_mem b h)
      rw [List.cons_append, quotedValue, if_neg hb, ih hw']
      rfl

theorem quotedValue_of_not_mem {w : Bytes} (hw : (34 : UInt8) ∉ w) (prev : UInt8) :
    quotedValue prev w = w := by
  have h := quotedValue_append hw prev []
  rwa [List.append_nil, quotedValue, List.append_nil] at h

theorem getD_getLast (pre : Bytes) (b : UInt8) (v s : Bytes) :
    (pre ++ b :: v ++ s).getD (pre.length + 1 + v.length - 1) 0 =
      (b :: v).getLast (by simp) := by
  have hsplit : pre ++ b :: v ++ s =
      (pre ++ (b :: v).dropLast) ++ (b :: v).getLast (by simp) :: s := by
    conv => lhs; rw [← List.dropLast_concat_getLast (List.cons_ne_nil b v)]
    simp
  have hlen : pre.length + 1 + v.length - 1 = (pre ++ (b :: v).dropLast).length := by
    simp only [List.length_append, List.length_dropLast, List.length_cons]
    omega
  rw [hsplit, hlen, getD_append_length]

/-- The loop that looks for the closing quote, once it has passed `v`. -/
theorem substr_skipEscaped (fuel : Nat) (pre v s : Bytes) (b : UInt8) (hfuel : s.length ≤ fuel) :
    substr (pre ++ b :: v ++ s) (pre.length + 1)
        (skipEscaped (pre ++ b :: v ++ s) fuel
          (find (pre ++ b :: v ++ s) [34] (pre.length + 1 + v.length))) =
      v ++ quotedValue ((b :: v).getLast (by simp)) s := by
  have hstart : pre.length + 1 = (pre ++ [b]).length := by simp
  have hpassed : pre.length + 1 + v.length = (pre ++ b :: v).length := by simp; omega
  -- every round passes one quote of `s`, so the induction is on the fuel that bounds them
  induction fuel generalizing v s with
  | zero =>
      have hs : s = [] := List.eq_nil_of_length_eq_zero (Nat.le_zero.1 hfuel)
      have hnone : find (pre ++ b :: v ++ s) [34] (pre ++ b :: v).length = none := by
        simp [hs, find, indexOf]
      rw [hpassed, hnone, skipEscaped, hs, quotedValue, List.append_nil, List.append_nil, substr]
      simp
  | succ fuel ih =>
      by_cases hq : (34 : UInt8) ∈ s
      · obtain ⟨w, u, rfl, hw⟩ := List.eq_append_cons_of_mem hq
        have hfind : find (pre ++ b :: v ++ (w ++ 34 :: u)) [34] (pre ++ b :: v).length =
            some ((pre ++ b :: v).length + w.length) :=
          find_of_split (by simp) (indexOf_singleton hw u)
        have hlast : (pre ++ b :: v ++ (w ++ 34 :: u)).getD
            ((pre ++ b :: v).length + w.length - 1) 0 = (b :: (v ++ w)).getLast (by simp) := by
          have h := getD_getLast pre b (v ++ w) (34 :: u)
          rw [List.length_append] at h
          rw [← h]
          congr 1
          · simp
          · simp
            omega
        have hval : quotedValue ((b :: v).getLast (by simp)) (w ++ 34 :: u) =
            w ++ quotedValue ((b :: (v ++ w)).getLast (by simp)) (34 :: u) := by
          rw [quotedValue_append hw]
          congr 2
          cases w with
          | nil => simp
          | cons c w => simp
        rw [hpassed, hfind, hval, skipEscaped, hlast]
        by_cases hslash : (b :: (v ++ w)).getLast (by simp) = 92
        · -- an escaped quote: the search goes on behind it
          have hrest := ih (v ++ w ++ [34]) u
            (by simp only [List.length_append, List.length_cons] at hfuel; omega) (by simp; omega)
          have hline : pre ++ b :: (v ++ w ++ [34]) ++ u = pre ++ b :: v ++ (w ++ 34 :: u) := by simp
          have hpos : pre.length + 1 + (v ++ w ++ [34]).length =
              (pre ++ b :: v).length + w.length + 1 := by simp; omega
          have hend : (b :: (v ++ w ++ [34])).getLast (by simp) = 34 := by simp
          rw [hline, hpos, hend] at hrest
          rw [if_pos hslash, hslash]
          show substr _ _ (skipEscaped _ fuel (find _ [34] _)) = _
          rw [hrest, quotedValue, if_neg (by simp)]
          simp
        · rw [if_neg hslash, quotedValue, if_pos ⟨rfl, hslash⟩, List.append_nil, hstart]
          have hend : (pre ++ b :: v).length + w.length = (pre ++ [b]).length + (v ++ w).length := by
            simp
            omega
          have hline : pre ++ b :: v ++ (w ++ 34 :: u) = pre ++ [b] ++ (v ++ w) ++ 34 :: u := by simp
          rw [hend]
          exact substr_of_split hline
      · have hnone : find (pre ++ b :: v ++ s) [34] (pre ++ b :: v).length = none := by
          simp [find, indexOf_singleton_eq_none hq]
        rw [hpassed, hnone, skipEscaped, quotedValue_of_not_mem hq, hstart]
        simp [substr]

/-- A quoted value goes up to the quote the extractor closes it with. -/
theorem getWith_quoted {line key pre s : Bytes} (closing : Bytes → Option Nat → Option Nat)
    (h : FirstAt (keyPattern key) line pre (34 :: s)) :
    getWith closing line key = substr line ((pre ++ keyPattern key).length + 1)
      (closing line (find line [34] ((pre ++ keyPattern key).length + 1))) := by
  have hat : line.getD (pre ++ keyPattern key).length 0 = 34 := by
    rw [h.split, getD_append_length]
  rw [List.length_append] at hat
  rw [getWith, keyPattern_eq, find_zero_of_firstAt h]
  simp only [if_pos hat, List.length_append]
  rfl

/-- A value that starts with anything else is read as a number. -/
theorem getWith_number {line key pre s : Bytes} (closing : Bytes → Option Nat → Option Nat)
    (h : FirstAt (keyPattern key) line pre s) (hs : ∀ s', s ≠ 34 :: s') :
    getWith closing line key = numberValue s := by
  have hline : line = (pre ++ keyPattern key) ++ s := h.split
  have hat : line.getD (pre ++ keyPattern key).length 0 ≠ 34 := by
    cases s with
    | nil =>
        rw [hline, List.append_nil]
        simp [List.getD]
    | cons c s =>
        rw [hline, getD_append_length]
        rintro rfl
        exact hs s rfl
  have hcomma := substr_find 44 (pre ++ keyPattern key) s
  have hbrace := substr_find 125 (pre ++ keyPattern key) s
  rw [← hline, List.length_append] at hcomma hbrace
  rw [List.length_append] at hat
  rw [getWith, keyPattern_eq, find_zero_of_firstAt h]
  simp only [if_neg hat]
  rw [show ascii "," = [44] from by decide, show ascii "\x7d" = [125] from by decide, numberValue]
  by_cases hmem : (44 : UInt8) ∈ s
  · obtain ⟨t, u, rfl, ht⟩ := List.eq_append_cons_of_mem hmem
    have hfind : find line [44] (pre.length + (keyPattern key).length) =
        some (pre.length + (keyPattern key).length + t.length) := by
      rw [← List.length_append]
      exact find_of_split (by rw [hline]; simp) (indexOf_singleton ht u)
    rw [if_pos hmem, ← hcomma, hfind]
  · have hnone : find line [44] (pre.length + (keyPattern key).length) = none := by
      rw [hline, ← List.length_append]
      simp [find, indexOf_singleton_eq_none hmem]
    rw [if_neg hmem, ← hbrace, hnone]

theorem getWith_eq_nil {line key : Bytes} {closing : Bytes → Option Nat → Option Nat}
    (h : afterKey line key = none) : getWith closing line key = [] := by
  have hnone : find line (keyPattern key) 0 = none := by
    rw [find, if_pos (Nat.zero_le _), List.drop_zero, afterKey_eq_none_iff.1 h, Option.map_none]
  rw [getWith, keyPattern_eq, hnone]

/-- An extractor reads the value behind the key: the way it closes a quoted value is all that is to
be known of it. -/
theorem getWith_eq {closing : Bytes → Option Nat → Option Nat} {value : Bytes → Bytes}
    (line key : Bytes)
    (hquoted : ∀ pre s, line = pre ++ 34 :: s → substr line (pre.length + 1)
      (closing line (find line [34] (pre.length + 1))) = value (34 :: s))
    (hnumber : ∀ s, (∀ s', s ≠ 34 :: s') → value s = numberValue s) :
    getWith closing line key = ((afterKey line key).map value).getD [] := by
  cases hafter : afterKey line key with
  | none => exact getWith_eq_nil hafter
  | some s =>
      obtain ⟨pre, hfirst⟩ := exists_firstAt_of_afterKey hafter
      rw [Option.map_some, Option.getD_some]
      by_cases hq : ∃ s', s = 34 :: s'
      · obtain ⟨s', rfl⟩ := hq
        exact (getWith_quoted _ hfirst).trans (hquoted (pre ++ keyPattern key) s' hfirst.split)
      · have hs : ∀ s', s ≠ 34 :: s' := fun s' heq => hq ⟨s', heq⟩
        rw [hnumber s hs]
        exact getWith_number _ hfirst hs

/-- `getField` reads the value behind the key. -/
theorem getField_eq (line key : Bytes) :
    getField line key = ((afterKey line key).map readValue).getD [] := by
  refine getWith_eq line key (fun pre s hline => ?_) fun s hs => readValue_number hs
  have hopen : line = pre ++ 34 :: [] ++ s := by
    rw [hline]
    simp
  have h := substr_skipEscaped line.length pre [] s 34 (by rw [hopen]; simp; omega)
  rw [← hopen] at h
  exact h

/-- `getFieldNaive` reads it up to the first quote. -/
theorem getFieldNaive_eq (line key : Bytes) :
    getFieldNaive line key = ((afterKey line key).map readValueNaive).getD [] := by
  refine getWith_eq line key (fun pre s hline => ?_) fun s hs => readValueNaive_number hs
  have hopen : line = (pre ++ [34]) ++ s := by
    rw [hline]
    simp
  have h := substr_find 34 (pre ++ [34]) s
  rw [← hopen, List.length_append, List.length_singleton] at h
  exact h

/-- The two extractors return the same value, or `getField` goes on behind a quote that follows a
backslash. -/
theorem readValue_naive (s : Bytes) :
    readValue s = readValueNaive s ∨ ∃ more, readValue s = readValueNaive s ++ 34 :: more := by
  by_cases hquoted : ∃ s', s = 34 :: s'
  · obtain ⟨s', rfl⟩ := hquoted
    show quotedValue 34 s' = s'.takeWhile (· != 34) ∨
      ∃ more, quotedValue 34 s' = s'.takeWhile (· != 34) ++ 34 :: more
    by_cases hq : (34 : UInt8) ∈ s'
    · obtain ⟨w, u, rfl, hw⟩ := List.eq_append_cons_of_mem hq
      rw [takeWhile_ne_append_cons hw, quotedValue_append hw, quotedValue]
      split
      · exact Or.inl (List.append_nil w)
      · exact Or.inr ⟨_, rfl⟩
    · rw [takeWhile_ne_of_not_mem hq]
      exact Or.inl (quotedValue_of_not_mem hq 34)
  · have hs : ∀ s', s ≠ 34 :: s' := fun s' heq => hquoted ⟨s', heq⟩
    exact Or.inl (by rw [readValue_number hs, readValueNaive_number hs])

theorem getField_naive (line key : Bytes) :
    getField line key = getFieldNaive line key ∨
      ∃ more, getField line key = getFieldNaive line key ++ 34 :: more := by
  rw [getField_eq, getFieldNaive_eq]
  cases afterKey line key with
  | none => exact Or.inl rfl
  | some s => exact readValue_naive s

/-! ## A line that goes on -/

/-- The value that starts the text ends in it, whatever follows. -/
def Closed : Bytes → Prop
  | 34 :: s => (quotedValue 34 s).length < s.length
  | s => (44 : UInt8) ∈ s

theorem closed_number {s : Bytes} (h : ∀ s', s ≠ 34 :: s') : Closed s ↔ (44 : UInt8) ∈ s := by
  unfold Closed
  split
  · next s' => exact absurd rfl (h s')
  · rfl

instance : DecidablePred Closed := fun s =>
  match s with
  | 34 :: s => inferInstanceAs (Decidable ((quotedValue 34 s).length < s.length))
  | [] => inferInstanceAs (Decidable ((44 : UInt8) ∈ []))
  | c :: s =>
      if h : c = 34 then
        decidable_of_iff ((quotedValue 34 s).length < s.length) (by rw [h]; rfl)
      else
        decidable_of_iff ((44 : UInt8) ∈ c :: s)
          (closed_number fun _ heq => h (List.cons.inj heq).1).symm

theorem quotedValue_append_of_lt {prev : UInt8} {s : Bytes}
    (h : (quotedValue prev s).length < s.length) (u : Bytes) :
    quotedValue prev (s ++ u) = quotedValue prev s := by
  induction s generalizing prev with
  | nil => exact absurd h (Nat.not_lt_zero _)
  | cons c s ih =>
      rw [List.cons_append, quotedValue, quotedValue]
      split
      · rfl
      · next hopen =>
          rw [quotedValue, if_neg hopen] at h
          rw [ih (Nat.lt_of_succ_lt_succ h)]

theorem quotedValue_of_not_lt {prev : UInt8} {s : Bytes}
    (h : ¬ (quotedValue prev s).length < s.length) : quotedValue prev s = s := by
  induction s generalizing prev with
  | nil => rfl
  | cons c s ih =>
      rw [quotedValue] at h ⊢
      split
      · next hclose =>
          rw [if_pos hclose] at h
          exact absurd (Nat.zero_lt_succ _) h
      · next hopen =>
          rw [if_neg hopen] at h
          rw [ih fun hlt => h (Nat.succ_lt_succ hlt)]

theorem quotedValue_append_of_not_lt {prev : UInt8} {s : Bytes} {c : UInt8} (hc : c ≠ 34)
    (h : ¬ (quotedValue prev s).length < s.length) (u : Bytes) :
    quotedValue prev (s ++ c :: u) = s ++ c :: quotedValue c u := by
  induction s generalizing prev with
  | nil => rw [List.nil_append, quotedValue, if_neg fun hq => hc hq.1, List.nil_append]
  | cons b s ih =>
      rw [quotedValue] at h
      rw [List.cons_append, quotedValue]
      split
      · next hclose =>
          rw [if_pos hclose] at h
          exact absurd (Nat.zero_lt_succ _) h
      · next hopen =>
          rw [if_neg hopen] at h
          rw [ih fun hlt => h (Nat.succ_lt_succ hlt), List.cons_append]

theorem takeWhile_append_of_mem {d : UInt8} {s : Bytes} (h : d ∈ s) (u : Bytes) :
    (s ++ u).takeWhile (· != d) = s.takeWhile (· != d) := by
  obtain ⟨t, v, rfl, ht⟩ := List.eq_append_cons_of_mem h
  rw [List.append_assoc, List.cons_append, takeWhile_ne_append_cons ht,
    takeWhile_ne_append_cons ht]

theorem readValue_append_of_closed {s : Bytes} (h : Closed s) (u : Bytes) :
    readValue (s ++ u) = readValue s := by
  by_cases hquoted : ∃ s', s = 34 :: s'
  · obtain ⟨s', rfl⟩ := hquoted
    exact quotedValue_append_of_lt h u
  · have hs : ∀ s', s ≠ 34 :: s' := fun s' heq => hquoted ⟨s', heq⟩
    have hcomma := (closed_number hs).1 h
    have hs' : ∀ s', s ++ u ≠ 34 :: s' := by
      intro s' heq
      cases s with
      | nil => exact absurd hcomma (by simp)
      | cons c s => exact hs s (by rw [(List.cons.inj heq).1])
    rw [readValue_number hs, readValue_number hs', numberValue, numberValue, if_pos hcomma,
      if_pos (List.mem_append_left u hcomma), takeWhile_append_of_mem hcomma]

/-- A value that does not end in the text takes in the brace of the line that is joined to it. -/
theorem readValue_append_of_not_closed {s u : Bytes} (h : ¬ Closed s) (hu : (44 : UInt8) ∈ u) :
    ∃ c w, (c = 123 ∨ c = 125) ∧ readValue (s ++ 123 :: u) = readValue s ++ c :: w ∧
      (123 : UInt8) ∈ c :: w := by
  by_cases hquoted : ∃ s', s = 34 :: s'
  · obtain ⟨s', rfl⟩ := hquoted
    refine ⟨123, quotedValue 123 u, Or.inl rfl, ?_, List.mem_cons_self ..⟩
    show quotedValue 34 (s' ++ 123 :: u) = quotedValue 34 s' ++ 123 :: quotedValue 123 u
    rw [quotedValue_append_of_not_lt (by decide) h, quotedValue_of_not_lt h]
  · have hs : ∀ s', s ≠ 34 :: s' := fun s' heq => hquoted ⟨s', heq⟩
    have hcomma : (44 : UInt8) ∉ s := fun hmem => h ((closed_number hs).2 hmem)
    have hs' : ∀ s', s ++ 123 :: u ≠ 34 :: s' := by
      intro s' heq
      cases s with
      | nil => exact absurd (List.cons.inj heq).1 (by decide)
      | cons c s => exact hs s (by rw [(List.cons.inj heq).1])
    have hjoined : (s ++ 123 :: u).takeWhile (· != 44) = s ++ 123 :: u.takeWhile (· != 44) :=
      takeWhile_ne_append hcomma _
    rw [readValue_number hs, readValue_number hs', numberValue, numberValue, if_neg hcomma,
      if_pos (List.mem_append_right s (List.mem_cons_of_mem _ hu)), hjoined]
    -- without a comma the value went up to the closing brace, or took the whole text
    have hsplit := List.takeWhile_append_dropWhile (p := fun c : UInt8 => c != 125) (l := s)
    cases hrest : s.dropWhile (· != 125) with
    | nil =>
        rw [hrest, List.append_nil] at hsplit
        exact ⟨123, u.takeWhile (· != 44), Or.inl rfl, by rw [hsplit], List.mem_cons_self ..⟩
    | cons c w =>
        have hc : c = 125 := by
          have hne := List.head_dropWhile_not (l := s) (fun c : UInt8 => c != 125)
            (by rw [hrest]; exact List.cons_ne_nil _ _)
          simpa [hrest] using hne
        refine ⟨c, w ++ 123 :: u.takeWhile (· != 44), Or.inr hc, ?_, by simp⟩
        rw [hrest] at hsplit
        rw [← List.cons_append, ← List.append_assoc, hsplit]

theorem afterKey_append_of_some {t key s : Bytes} (h : afterKey t key = some s) (u : Bytes) :
    afterKey (t ++ u) key = some (s ++ u) := by
  obtain ⟨pre, hfirst⟩ := exists_firstAt_of_afterKey h
  have hwhole : FirstAt (keyPattern key) (t ++ u) pre (s ++ u) :=
    ⟨by rw [hfirst.split, List.append_assoc], indexOf_append_of_some hfirst.index u⟩
  exact afterKey_of_firstAt hwhole

/-- A key that is missing in a text is searched for in the line that is joined to it. -/
theorem afterKey_append_of_none {t key : Bytes} (hkey : IsKey key) (h : afterKey t key = none)
    (u : Bytes) : afterKey (t ++ 123 :: u) key = afterKey (123 :: u) key := by
  have hbrace : (123 : UInt8) ∉ keyPattern key := by
    simp [keyPattern, hkey.not_mem (c := 123) (by decide)]
  rw [afterKey, indexOf_append_of_none hbrace u (afterKey_eq_none_iff.1 h), Option.map_map, afterKey]
  congr 1
  funext p
  rw [Function.comp, show p + t.length + (keyPattern key).length =
    t.length + (p + (keyPattern key).length) by omega, List.drop_length_add_append]

/-! ## Lines of escaped values -/

/-- An escaped value is read as a whole; more is read only behind a closing quote that seems to be
escaped. -/
theorem quotedValue_escaped (w s : Bytes) (prev : UInt8) :
    ∃ more, quotedValue prev (jsonEscape w ++ s) = jsonEscape w ++ more := by
  induction w generalizing prev with
  | nil => exact ⟨_, rfl⟩
  | cons c w ih =>
      rw [jsonEscape, List.flatMap_cons, List.append_assoc]
      by_cases hc : c = 34
      · subst hc
        obtain ⟨more, hmore⟩ := ih 34
        refine ⟨more, ?_⟩
        show quotedValue prev (92 :: 34 :: (jsonEscape w ++ s)) = 92 :: 34 :: (jsonEscape w ++ more)
        rw [quotedValue, if_neg fun h => absurd h.1 (by decide), quotedValue,
          if_neg fun h => h.2 rfl, hmore]
      · obtain ⟨more, hmore⟩ := ih ((prev :: escapeByte c).getLast (by simp))
        refine ⟨more, ?_⟩
        rw [quotedValue_append (quote_not_mem_escapeByte hc), List.append_assoc]
        exact congrArg _ hmore

/-- What the reader finds under a key of a recorded line. -/
theorem afterKey_auditLine {e : AuditEvent} (hmsg : Plain e.msgHash) {key v : Bytes}
    (hkey : IsKey key) (hseq : key ≠ ascii "seq") (hlookup : (lineMembers e).lookup key = some v) :
    ∃ post, afterKey (auditLine e) key = some (34 :: (v ++ 34 :: post)) := by
  obtain ⟨pre, post, h⟩ := firstAt_object e.seq hkey hseq (escaped_lineMembers hmsg) hlookup
  exact ⟨post, afterKey_of_firstAt h⟩

/-- The reader returns at least the escaped value that the writer put under the key. -/
theorem getField_auditLine_escaped {e : AuditEvent} (hmsg : Plain e.msgHash) {key w : Bytes}
    (hkey : IsKey key) (hseq : key ≠ ascii "seq")
    (hlookup : (lineMembers e).lookup key = some (jsonEscape w)) :
    ∃ more, getField (auditLine e) key = jsonEscape w ++ more := by
  obtain ⟨post, hafter⟩ := afterKey_auditLine hmsg hkey hseq hlookup
  obtain ⟨more, hmore⟩ := quotedValue_escaped w (34 :: post) 34
  refine ⟨more, ?_⟩
  rw [getField_eq, hafter]
  exact hmore

end SecureFileTransfer
