import SecureFileTransfer.HashChainFileAudit

/-!
# AuditChain — what the log reader makes of the lines the writer appends

The reader returns the text between the quotes as it stands in the line and `verify` escapes it a
second time before it hashes, so writer and reader agree on the fields that escaping leaves alone.
-/

namespace SecureFileTransfer

open StdString

/-! ## Fields that escaping leaves alone -/

/-- `jsonEscape` writes something else than the byte itself. -/
def needsEscape (c : UInt8) : Bool := c == 34 || c == 92 || c < 0x20

/-- No quote, no backslash and no control byte. -/
def Plain (s : Bytes) : Prop := ∀ c ∈ s, needsEscape c = false

instance (s : Bytes) : Decidable (Plain s) := List.decidableBAll (fun c => needsEscape c = false) s

/-- Every text field of the event, as the caller fills it in, is plain. -/
structure AuditEvent.PlainFields (e : AuditEvent) : Prop where
  ts : Plain e.ts
  actor : Plain e.actor
  action : Plain e.action
  fileId : Plain e.fileId
  cipherHash : Plain e.cipherHash

theorem Plain.append {s t : Bytes} (hs : Plain s) (ht : Plain t) : Plain (s ++ t) := by
  intro c hc
  rcases List.mem_append.1 hc with h | h
  · exact hs c h
  · exact ht c h

theorem escapeByte_of_plain {c : UInt8} (hc : needsEscape c = false) : escapeByte c = [c] := by
  simp only [needsEscape, Bool.or_eq_false_iff, beq_eq_false_iff_ne, decide_eq_false_iff_not] at hc
  obtain ⟨⟨hquote, hslash⟩, hctrl⟩ := hc
  have hnl : c ≠ 10 := by rintro rfl; exact hctrl (by decide)
  have hcr : c ≠ 13 := by rintro rfl; exact hctrl (by decide)
  have htab : c ≠ 9 := by rintro rfl; exact hctrl (by decide)
  simp [escapeByte, hquote, hslash, hctrl, hnl, hcr, htab]

theorem jsonEscape_of_plain {s : Bytes} (hs : Plain s) : jsonEscape s = s := by
  induction s with
  | nil => rfl
  | cons c s ih =>
      have hc := escapeByte_of_plain (hs c (by simp))
      have htail := ih fun d hd => hs d (by simp [hd])
      simp only [jsonEscape] at htail
      simp [jsonEscape, hc, htail]

theorem Plain.quote_not_mem {s : Bytes} (hs : Plain s) : (34 : UInt8) ∉ s := by
  intro h
  exact absurd (hs 34 h) (by decide)

theorem Plain.newline_not_mem {s : Bytes} (hs : Plain s) : (10 : UInt8) ∉ s := by
  intro h
  exact absurd (hs 10 h) (by decide)

theorem Plain.backslash_not_mem {s : Bytes} (hs : Plain s) : (92 : UInt8) ∉ s := by
  intro h
  exact absurd (hs 92 h) (by decide)

theorem needsEscape_of_isHexDigit {c : UInt8} (hc : isHexDigit c) : needsEscape c = false :=
  forall_byte (P := fun c => isHexDigit c → needsEscape c = false) (by decide +kernel) c hc

theorem plain_decimal (n : Nat) : Plain (decimal n) := fun _ hc =>
  needsEscape_of_isHexDigit (by simp [isHexDigit, isDigit_of_mem_decimal hc])

theorem plain_twoDigits (n : Nat) : Plain (twoDigits n) := by
  unfold twoDigits
  split
  · exact Plain.append (s := [48]) (by decide) (plain_decimal n)
  · exact plain_decimal n

theorem plain_hex (s : Bytes) : Plain (RealSha256.hex s) := fun _ hc =>
  needsEscape_of_isHexDigit (RealSha256.isHexDigit_of_mem_hex hc)

theorem Tm.plain_stamp (t : Tm) : Plain t.stamp := by
  have hdash : Plain (ascii "-") := by decide
  have hcolon : Plain (ascii ":") := by decide
  have hT : Plain (ascii "T") := by decide
  have hZ : Plain (ascii "Z") := by decide
  have hdate := (((plain_decimal t.year).append hdash).append (plain_twoDigits t.mon)).append hdash
  have hday := (hdate.append (plain_twoDigits t.mday)).append hT
  have hhour := ((hday.append (plain_twoDigits t.hour)).append hcolon).append (plain_twoDigits t.min)
  exact ((hhour.append hcolon).append (plain_twoDigits t.sec)).append hZ

/-! ## Searching a line for a key -/

def isLetter (c : UInt8) : Bool := (65 ≤ c && c ≤ 90) || (97 ≤ c && c ≤ 122)

/-- A key of the line format is made of letters. -/
structure IsKey (key : Bytes) : Prop where
  letters : ∀ c ∈ key, isLetter c = true
  ne_nil : key ≠ []

instance (key : Bytes) : Decidable (IsKey key) :=
  decidable_of_iff (key.all isLetter = true ∧ key ≠ [])
    ⟨fun h => ⟨List.all_eq_true.1 h.1, h.2⟩, fun h => ⟨List.all_eq_true.2 h.letters, h.ne_nil⟩⟩

theorem IsKey.not_mem {key : Bytes} (hkey : IsKey key) {c : UInt8} (hc : isLetter c = false) :
    c ∉ key := by
  intro h
  simp [hkey.letters c h] at hc

theorem IsKey.no_quote {key : Bytes} (hkey : IsKey key) : (34 : UInt8) ∉ key :=
  hkey.not_mem (by decide)

/-- `"key":`, cut at its quotes. -/
def keyPattern (key : Bytes) : Bytes := 34 :: (key ++ 34 :: [58])

theorem keyPattern_eq (key : Bytes) : ascii "\"" ++ key ++ ascii "\":" = keyPattern key := by
  simp [ascii, keyPattern]

/-- A quote followed by punctuation does not open the key. -/
theorem not_pattern_punct {key : Bytes} (hkey : IsKey key) {c : UInt8} (hc : isLetter c = false)
    (s : Bytes) : ¬ keyPattern key <+: 34 :: c :: s := by
  intro h
  obtain ⟨b, key', rfl⟩ := List.exists_cons_of_ne_nil hkey.ne_nil
  have heq : b = c := by simpa using (List.cons_prefix_cons.1 (List.cons_prefix_cons.1 h).2).1
  exact hkey.not_mem hc (by simp [heq])

/-- A quoted text opens the key only if it is the key and a colon follows. -/
theorem pattern_isPrefix_iff {key t : Bytes} (hkey : IsKey key) (ht : (34 : UInt8) ∉ t)
    (s : Bytes) : keyPattern key <+: 34 :: (t ++ 34 :: s) ↔ key = t ∧ [58] <+: s := by
  rw [keyPattern, List.cons_prefix_cons, append_cons_isPrefix_iff hkey.no_quote ht]
  simp

theorem member_eq (key value : Bytes) :
    member key value = [44] ++ 34 :: (key ++ 34 :: ([58] ++ 34 :: (value ++ [34]))) := by
  simp [member, ascii]

/-- What may follow a member: punctuation other than a colon. -/
structure Follows (s : Bytes) : Prop where
  punct : ∃ c t, s = c :: t ∧ isLetter c = false ∧ c ≠ 58

/-- No escape but that of the quote holds a quote. -/
theorem quote_not_mem_escapeByte {c : UInt8} (hc : c ≠ 34) : (34 : UInt8) ∉ escapeByte c :=
  forall_byte (P := fun c => c ≠ 34 → (34 : UInt8) ∉ escapeByte c) (by decide +kernel) c hc

/-- Before a quote in an escaped text stand whole escapes and a backslash. -/
theorem escaped_before_quote {w x y : Bytes} (h : jsonEscape w = x ++ 34 :: y) :
    ∃ w', x = jsonEscape w' ++ [92] := by
  induction w generalizing x with
  | nil => simp [jsonEscape] at h
  | cons c w ih =>
      rw [jsonEscape, List.flatMap_cons] at h
      rcases List.append_eq_append_iff.1 h with ⟨x', rfl, hrest⟩ | ⟨y', hesc, hy'⟩
      · -- the quote comes behind the escape of `c`
        obtain ⟨w', rfl⟩ := ih hrest
        exact ⟨c :: w', by simp [jsonEscape]⟩
      · cases y' with
        | nil =>
            have hrest : jsonEscape w = [] ++ 34 :: y := hy'.symm
            obtain ⟨w', hw'⟩ := ih hrest
            simp at hw'
        | cons d y' =>
            obtain rfl : 34 = d := (List.cons.inj hy').1
            -- a quote inside the escape of `c`: `c` is the quote
            have hc : c = 34 := by
              by_contra hne
              exact quote_not_mem_escapeByte hne (by rw [hesc]; simp)
            rw [hc] at hesc
            cases x with
            | nil => cases hesc
            | cons d x =>
                obtain ⟨rfl, hx⟩ := List.cons.inj hesc
                cases x with
                | nil => exact ⟨[], rfl⟩
                | cons d x => simp at hx

/-- No quote before or inside an escaped text opens a key, when no colon follows the text. -/
theorem not_pattern_escaped {key : Bytes} (hkey : IsKey key) (w : Bytes) {c : UInt8} (hc : c ≠ 58)
    (s : Bytes) : ¬ keyPattern key <+: 34 :: (jsonEscape w ++ 34 :: c :: s) := by
  intro h
  by_cases hquote : (34 : UInt8) ∈ jsonEscape w
  · obtain ⟨x, y, hsplit, hx⟩ := List.eq_append_cons_of_mem hquote
    rw [hsplit, List.append_assoc, List.cons_append] at h
    obtain ⟨w', hw'⟩ := escaped_before_quote hsplit
    have hslash : (92 : UInt8) ∈ x := by
      rw [hw']
      simp
    rw [← ((pattern_isPrefix_iff hkey hx _).1 h).1] at hslash
    exact hkey.not_mem (by decide) hslash
  · have hcolon := ((pattern_isPrefix_iff hkey hquote _).1 h).2
    exact hc (by simpa using (List.cons_prefix_cons.1 hcolon).1.symm)

/-- The search for a key passes an escaped text. -/
theorem firstAt_escaped {key pre post s : Bytes} {c : UInt8} (hkey : IsKey key) (hc : c ≠ 58)
    (w : Bytes) (h : FirstAt (keyPattern key) (34 :: c :: s) pre post) :
    ∃ pre', FirstAt (keyPattern key) (jsonEscape w ++ 34 :: c :: s) pre' post := by
  induction w with
  | nil => exact ⟨pre, h⟩
  | cons b w ih =>
      obtain ⟨pre', h'⟩ := ih
      rw [jsonEscape, List.flatMap_cons, List.append_assoc]
      by_cases hb : b = 34
      · subst hb
        exact ⟨_, FirstAt.append (t := [92]) (by decide)
          (FirstAt.cons (not_pattern_escaped hkey w hc s) h')⟩
      · exact ⟨_, FirstAt.append (quote_not_mem_escapeByte hb) h'⟩

/-- The search for another key passes a member. -/
theorem firstAt_member {key k w s pre post : Bytes} (hkey : IsKey key) (hk : IsKey k)
    (hne : key ≠ k) (hs : Follows s) (h : FirstAt (keyPattern key) s pre post) :
    ∃ pre', FirstAt (keyPattern key) (member k (jsonEscape w) ++ s) pre' post := by
  obtain ⟨c, t, rfl, hletter, hcolon⟩ := hs.punct
  -- the quotes of the member, from the last to the first
  obtain ⟨pre₄, h₄⟩ := firstAt_escaped hkey hcolon w
    (FirstAt.cons (not_pattern_punct hkey hletter t) h)
  have h₃ := FirstAt.append (t := [58]) (by decide)
    (FirstAt.cons (not_pattern_escaped hkey w hcolon t) h₄)
  have h₂ := FirstAt.append hk.no_quote (FirstAt.cons (not_pattern_punct hkey (by decide) _) h₃)
  have h₁ := FirstAt.append (t := [44]) (by decide)
    (FirstAt.cons (fun hpre => hne ((pattern_isPrefix_iff hkey hk.no_quote _).1 hpre).1) h₂)
  exact ⟨_, by simpa [member_eq, keyPattern] using h₁⟩

/-- The members of a line and the brace that closes it. -/
def closedMembers (ms : List (Bytes × Bytes)) : Bytes :=
  ms.flatMap (fun m => member m.1 m.2) ++ ascii "\x7d"

theorem object_eq (seq : UInt64) (ms : List (Bytes × Bytes)) :
    object seq ms =
      [123] ++ 34 :: (ascii "seq" ++ 34 :: ([58] ++ decimal seq.toNat ++ closedMembers ms)) := by
  simp [object, closedMembers, ascii]

theorem closedMembers_cons (m : Bytes × Bytes) (ms : List (Bytes × Bytes)) :
    closedMembers (m :: ms) = member m.1 m.2 ++ closedMembers ms := by
  simp [closedMembers]

theorem follows_closedMembers (ms : List (Bytes × Bytes)) : Follows (closedMembers ms) := by
  cases ms with
  | nil => exact ⟨125, [], by simp [closedMembers, ascii], by decide, by decide⟩
  | cons m ms =>
      exact ⟨44, _, by rw [closedMembers_cons, member_eq]; rfl, by decide, by decide⟩

/-- A member with a key of letters and an escaped value. -/
structure EscapedMember (key value : Bytes) : Prop where
  isKey : IsKey key
  escaped : ∃ w, value = jsonEscape w

/-- Among members with escaped values, the search for a key finds the first one that has it. -/
theorem firstAt_closedMembers {key v : Bytes} {ms : List (Bytes × Bytes)} (hkey : IsKey key)
    (hms : ∀ m ∈ ms, EscapedMember m.1 m.2) (hlookup : ms.lookup key = some v) :
    ∃ pre post, FirstAt (keyPattern key) (closedMembers ms) pre (34 :: (v ++ 34 :: post)) := by
  induction ms with
  | nil => simp at hlookup
  | cons m ms ih =>
      obtain ⟨k, u⟩ := m
      obtain ⟨hk, w, hw⟩ := hms (k, u) (by simp)
      rw [closedMembers_cons]
      by_cases heq : key = k
      · subst heq
        have hv : u = v := by simpa using hlookup
        subst hv
        have h := FirstAt.append (t := [44]) (by decide)
          (FirstAt.here (keyPattern key) (34 :: (u ++ 34 :: closedMembers ms)))
        exact ⟨_, _, by simpa [member_eq, keyPattern] using h⟩
      · have hrest : ms.lookup key = some v := by
          rwa [List.lookup_cons, beq_eq_false_iff_ne.2 heq] at hlookup
        obtain ⟨pre, post, h⟩ := ih (fun m hm => hms m (by simp [hm])) hrest
        obtain ⟨pre', h'⟩ := firstAt_member hkey hk heq (follows_closedMembers ms) h (w := w)
        exact ⟨pre', post, by rw [show u = jsonEscape w from hw]; exact h'⟩

/-- The search for a key of a member passes the sequence number. -/
theorem firstAt_object {key v : Bytes} {ms : List (Bytes × Bytes)} (seq : UInt64)
    (hkey : IsKey key) (hseq : key ≠ ascii "seq")
    (hms : ∀ m ∈ ms, EscapedMember m.1 m.2) (hlookup : ms.lookup key = some v) :
    ∃ pre post, FirstAt (keyPattern key) (object seq ms) pre (34 :: (v ++ 34 :: post)) := by
  obtain ⟨pre, post, h⟩ := firstAt_closedMembers hkey hms hlookup
  have hnum : (34 : UInt8) ∉ [58] ++ decimal seq.toNat := by
    have := (plain_decimal seq.toNat).quote_not_mem
    simpa using this
  have h₂ := FirstAt.append (t := ascii "seq") (by decide)
    (FirstAt.cons (not_pattern_punct hkey (c := 58) (by decide) _) (FirstAt.append hnum h))
  have h₁ := FirstAt.append (t := [123]) (by decide)
    (FirstAt.cons
      (fun hpre => hseq ((pattern_isPrefix_iff hkey (t := ascii "seq") (by decide) _).1 hpre).1) h₂)
  exact ⟨_, _, by rw [object_eq]; exact h₁⟩

/-! ## What the reader returns -/

theorem find_zero_of_firstAt {pat s pre post : Bytes} (h : FirstAt pat s pre post) :
    find s pat 0 = some pre.length := by
  simp [find, h.index]

theorem getD_append_length (pre s : Bytes) (c : UInt8) : (pre ++ c :: s).getD pre.length 0 = c := by
  simp [List.getD]

/-- A closing quote that does not follow a backslash is taken at once. -/
theorem skipEscaped_of_ne {line : Bytes} {fuel q : Nat} (h : line.getD (q - 1) 0 ≠ 92) :
    skipEscaped line fuel (some q) = some q := by
  cases fuel with
  | zero => rfl
  | succ fuel => rw [skipEscaped, if_neg h]

/-- The byte before the closing quote is the last byte of the value or the opening quote. -/
theorem getD_before_close {pre v : Bytes} (hv : (92 : UInt8) ∉ v) (post : Bytes) :
    (pre ++ [34] ++ v ++ 34 :: post).getD ((pre ++ [34]).length + v.length - 1) 0 ≠ 92 := by
  have hne : 34 :: v ≠ [] := by simp
  have hlast : (34 :: v).getLast hne ≠ 92 := by
    intro h
    have hmem : (92 : UInt8) ∈ 34 :: v := h ▸ List.getLast_mem hne
    rcases List.mem_cons.1 hmem with h34 | hmem
    · exact absurd h34 (by decide)
    · exact hv hmem
  have hsplit : pre ++ [34] ++ v ++ 34 :: post =
      (pre ++ (34 :: v).dropLast) ++ (34 :: v).getLast hne :: 34 :: post := by
    have hdl := List.dropLast_concat_getLast hne
    calc pre ++ [34] ++ v ++ 34 :: post
        = pre ++ (34 :: v) ++ 34 :: post := by simp
      _ = pre ++ ((34 :: v).dropLast ++ [(34 :: v).getLast hne]) ++ 34 :: post := by rw [hdl]
      _ = _ := by simp
  have hlen : (pre ++ [34]).length + v.length - 1 = (pre ++ (34 :: v).dropLast).length := by
    simp
  rw [hsplit, hlen, getD_append_length]
  exact hlast

theorem getField_of_firstAt {line key v pre post : Bytes} (hv : Plain v)
    (h : FirstAt (keyPattern key) line pre (34 :: (v ++ 34 :: post))) :
    getField line key = v := by
  have hopen : line = (pre ++ keyPattern key) ++ 34 :: (v ++ 34 :: post) := h.split
  have hsplit : line = (pre ++ keyPattern key ++ [34]) ++ v ++ 34 :: post := by simp [hopen]
  have hpos : pre.length + (keyPattern key).length + 1 = (pre ++ keyPattern key ++ [34]).length := by
    simp [Nat.add_assoc]
  have hat : line.getD (pre.length + (keyPattern key).length) 0 = 34 := by
    rw [hopen, ← List.length_append, getD_append_length]
  have hclose : find line (ascii "\"") (pre ++ keyPattern key ++ [34]).length =
      some ((pre ++ keyPattern key ++ [34]).length + v.length) :=
    find_of_split hsplit (indexOf_singleton hv.quote_not_mem post)
  have hlast : line.getD ((pre ++ keyPattern key ++ [34]).length + v.length - 1) 0 ≠ 92 := by
    rw [hsplit]
    exact getD_before_close hv.backslash_not_mem post
  rw [getField, getWith, keyPattern_eq, find_zero_of_firstAt h]
  simp only [hat, if_true, hpos, hclose, skipEscaped_of_ne hlast]
  exact substr_of_split hsplit

/-- The sequence number ends at the comma of the first member. -/
theorem getField_seq (seq : UInt64) (m : Bytes × Bytes) (ms : List (Bytes × Bytes)) :
    getField (object seq (m :: ms)) (ascii "seq") = decimal seq.toNat := by
  have hfirst : FirstAt (keyPattern (ascii "seq")) (object seq (m :: ms)) [123]
      (decimal seq.toNat ++ closedMembers (m :: ms)) := by
    have h := FirstAt.append (t := [123]) (by decide)
      (FirstAt.here (keyPattern (ascii "seq")) (decimal seq.toNat ++ closedMembers (m :: ms)))
    rw [object_eq]
    simpa [keyPattern] using h
  obtain ⟨tail, htail⟩ : ∃ tail, closedMembers (m :: ms) = 44 :: tail :=
    ⟨_, by rw [closedMembers_cons, member_eq]; rfl⟩
  obtain ⟨d, ds, hdigits⟩ := List.exists_cons_of_ne_nil (decimal_ne_nil seq.toNat)
  have hplain := plain_decimal seq.toNat
  have hd : d ≠ 34 := fun h => hplain.quote_not_mem (by simp [hdigits, h])
  have hcomma : (44 : UInt8) ∉ decimal seq.toNat := fun h =>
    absurd (isDigit_of_mem_decimal h) (by decide)
  have hsplit : object seq (m :: ms) =
      ([123] ++ keyPattern (ascii "seq")) ++ decimal seq.toNat ++ 44 :: tail := by
    rw [hfirst.split, htail]
    simp
  have hat : (object seq (m :: ms)).getD ([123] ++ keyPattern (ascii "seq")).length 0 ≠ 34 := by
    rw [hsplit, hdigits, List.append_assoc]
    exact (getD_append_length _ (ds ++ 44 :: tail) d).trans_ne hd
  have hclose : find (object seq (m :: ms)) (ascii ",")
      ([123] ++ keyPattern (ascii "seq")).length =
        some (([123] ++ keyPattern (ascii "seq")).length + (decimal seq.toNat).length) :=
    find_of_split hsplit (indexOf_singleton hcomma tail)
  rw [getField, getWith, keyPattern_eq, find_zero_of_firstAt hfirst]
  rw [List.length_append] at hat hclose
  simp only [if_neg hat, hclose]
  rw [← List.length_append]
  exact substr_of_split hsplit

/-! ## One line of the chain -/

/-- An event as it stands in a line: its own fields plain, its hashes the chain's. -/
structure AuditEvent.PlainLine (e : AuditEvent) : Prop extends e.PlainFields where
  prevHash : Plain e.prevHash
  msgHash : e.msgHash = RealSha256.hex (canonical { e with msgHash := [] })

theorem escapedMembers_of_plain {e : AuditEvent} (he : e.PlainLine) :
    escapedMembers e =
      [(ascii "ts", e.ts), (ascii "actor", e.actor), (ascii "action", e.action),
        (ascii "fileId", e.fileId), (ascii "cipherHash", e.cipherHash),
        (ascii "prevHash", e.prevHash)] := by
  simp [escapedMembers, jsonEscape_of_plain, he.ts, he.actor, he.action, he.fileId,
    he.cipherHash, he.prevHash]

/-- The members of the line that `record` appends. -/
def lineMembers (e : AuditEvent) : List (Bytes × Bytes) :=
  escapedMembers e ++ [(ascii "msgHash", e.msgHash)]

theorem escaped_lineMembers {e : AuditEvent} (hmsg : Plain e.msgHash) :
    ∀ m ∈ lineMembers e, EscapedMember m.1 m.2 := by
  simp only [lineMembers, escapedMembers, List.cons_append, List.nil_append, List.forall_mem_cons,
    List.not_mem_nil, IsEmpty.forall_iff, implies_true, and_true]
  exact ⟨⟨by decide, _, rfl⟩, ⟨by decide, _, rfl⟩, ⟨by decide, _, rfl⟩, ⟨by decide, _, rfl⟩,
    ⟨by decide, _, rfl⟩, ⟨by decide, _, rfl⟩, ⟨by decide, _, (jsonEscape_of_plain hmsg).symm⟩⟩

/-- The reader returns a plain value that the writer put under the key. -/
theorem getField_auditLine {e : AuditEvent} (hmsg : Plain e.msgHash) {key v : Bytes}
    (hkey : IsKey key) (hseq : key ≠ ascii "seq") (hv : Plain v)
    (hlookup : (lineMembers e).lookup key = some v) : getField (auditLine e) key = v := by
  obtain ⟨pre, post, h⟩ := firstAt_object e.seq hkey hseq (escaped_lineMembers hmsg) hlookup
  exact getField_of_firstAt hv h

/-- The sequence number is read back whatever the fields hold. -/
theorem seqOf_auditLine (e : AuditEvent) : seqOf (getField (auditLine e) (ascii "seq")) = e.seq := by
  rw [auditLine, escapedMembers, List.cons_append, getField_seq, seqOf, stoull_decimal]
  rfl

/-- `verify` accepts the line of an event that continues the chain. -/
theorem checkLine_auditLine {e : AuditEvent} (he : e.PlainLine) :
    checkLine { prev := e.prevHash, expectedSeq := e.seq } (auditLine e) =
      some { prev := e.msgHash, expectedSeq := e.seq + 1 } := by
  have hnonempty : (auditLine e).isEmpty = false := by simp [auditLine, object, ascii]
  have hmembers : lineMembers e =
      [(ascii "ts", e.ts), (ascii "actor", e.actor), (ascii "action", e.action),
        (ascii "fileId", e.fileId), (ascii "cipherHash", e.cipherHash),
        (ascii "prevHash", e.prevHash), (ascii "msgHash", e.msgHash)] := by
    rw [lineMembers, escapedMembers_of_plain he]
    rfl
  have hmsgPlain : Plain e.msgHash := he.msgHash ▸ plain_hex _
  have hts : getField (auditLine e) (ascii "ts") = e.ts :=
    getField_auditLine hmsgPlain (by decide) (by decide) he.ts (by rw [hmembers]; rfl)
  have hactor : getField (auditLine e) (ascii "actor") = e.actor :=
    getField_auditLine hmsgPlain (by decide) (by decide) he.actor (by rw [hmembers]; rfl)
  have haction : getField (auditLine e) (ascii "action") = e.action :=
    getField_auditLine hmsgPlain (by decide) (by decide) he.action (by rw [hmembers]; rfl)
  have hfile : getField (auditLine e) (ascii "fileId") = e.fileId :=
    getField_auditLine hmsgPlain (by decide) (by decide) he.fileId (by rw [hmembers]; rfl)
  have hcipher : getField (auditLine e) (ascii "cipherHash") = e.cipherHash :=
    getField_auditLine hmsgPlain (by decide) (by decide) he.cipherHash (by rw [hmembers]; rfl)
  have hprev : getField (auditLine e) (ascii "prevHash") = e.prevHash :=
    getField_auditLine hmsgPlain (by decide) (by decide) he.prevHash (by rw [hmembers]; rfl)
  have hmsg : getField (auditLine e) (ascii "msgHash") = e.msgHash :=
    getField_auditLine hmsgPlain (by decide) (by decide) hmsgPlain (by rw [hmembers]; rfl)
  have hparsed : parsedEvent e.prevHash e.seq (auditLine e) = { e with msgHash := [] } := by
    simp [parsedEvent, hts, hactor, haction, hfile, hcipher]
  simp [checkLine, hnonempty, seqOf_auditLine, hprev, hmsg, hparsed, ← he.msgHash]

theorem newline_not_mem_jsonEscape (w : Bytes) : (10 : UInt8) ∉ jsonEscape w := by
  have hescape : ∀ c : UInt8, (10 : UInt8) ∉ escapeByte c := forall_byte (by decide +kernel)
  intro h
  obtain ⟨c, -, hc⟩ := List.mem_flatMap.1 h
  exact hescape c hc

/-- A record is one line of the file, whatever its fields hold. -/
theorem newline_not_mem_auditLine {e : AuditEvent} (hmsg : Plain e.msgHash) :
    (10 : UInt8) ∉ auditLine e := by
  have hmember : ∀ m ∈ lineMembers e, (10 : UInt8) ∉ member m.1 m.2 := by
    intro m hm
    obtain ⟨hkey, w, hw⟩ := escaped_lineMembers hmsg m hm
    have hk : (10 : UInt8) ∉ m.1 := hkey.not_mem (by decide)
    simp [member_eq, hk, hw, newline_not_mem_jsonEscape w]
  have hdec := (plain_decimal e.seq.toNat).newline_not_mem
  have hmembers : (10 : UInt8) ∉ (lineMembers e).flatMap fun m => member m.1 m.2 := by
    intro h
    obtain ⟨m, hm, hmem⟩ := List.mem_flatMap.1 h
    exact hmember m hm hmem
  rw [auditLine, object, List.mem_append, List.mem_append, List.mem_append]
  rintro (((h | h) | h) | h)
  · exact absurd h (by decide)
  · exact hdec h
  · exact hmembers h
  · exact absurd h (by decide)

/-! ## Runs of `record` -/

namespace HashChainFileAuditLogger

/-- The lines of the file, checked from the start, end in the state the logger holds. -/
structure Chained (l : HashChainFileAuditLogger) (lines : List Bytes) : Prop where
  content : l.file.getD [] = lines.flatMap (· ++ [10])
  newline : ∀ line ∈ lines, (10 : UInt8) ∉ line
  checked : lines.foldlM checkLine genesis =
    some { prev := l.lastHash, expectedSeq := l.lastSeq + 1 }
  plain : Plain l.lastHash
  sound : l.lastHash ≠ ascii "CORRUPTED"

theorem chained_new : Chained (new none) [] := by
  refine ⟨rfl, by simp, rfl, ?_, ?_⟩
  · show Plain (ascii "GENESIS")
    decide
  · show ascii "GENESIS" ≠ ascii "CORRUPTED"
    decide

theorem Chained.verify {l : HashChainFileAuditLogger} {lines : List Bytes} (h : Chained l lines) :
    l.verify = true := by
  cases hfile : l.file with
  | none => simp [HashChainFileAuditLogger.verify, verifyFile, hfile]
  | some content =>
      have hcontent : content = lines.flatMap (· ++ [10]) := by simpa [hfile] using h.content
      simp [HashChainFileAuditLogger.verify, verifyFile, hfile, hcontent,
        getlines_flatMap h.newline, h.checked]

/-- The completed event continues the chain with plain fields. -/
theorem plainLine_completed {l : HashChainFileAuditLogger} {e : AuditEvent} (now : Tm)
    (hlast : Plain l.lastHash) (he : e.PlainFields) : (l.completed now e).PlainLine := by
  refine ⟨⟨?_, he.actor, he.action, he.fileId, he.cipherHash⟩, hlast, rfl⟩
  show Plain (if e.ts.isEmpty then now.stamp else e.ts)
  split
  · exact now.plain_stamp
  · exact he.ts

/-- A hash the chain writes is not the marker of a corrupted log. -/
theorem hex_ne_corrupted (s : Bytes) : RealSha256.hex s ≠ ascii "CORRUPTED" := by
  intro h
  have hmem : (67 : UInt8) ∈ RealSha256.hex s := by
    rw [h]
    decide
  exact absurd (RealSha256.isHexDigit_of_mem_hex hmem) (by decide)

/-- The state `record` leaves when it does not throw and the line is written. -/
theorem record_eq {l : HashChainFileAuditLogger} (now : Tm) (e : AuditEvent)
    (hsound : l.lastHash ≠ ascii "CORRUPTED") (hverify : l.verify = true) :
    l.record now true e =
      .ok
        { file := some (l.file.getD [] ++ (auditLine (l.completed now e) ++ [10]))
          lastHash := (l.completed now e).msgHash
          lastSeq := l.lastSeq + 1 } := by
  simp [record, hsound, hverify, completed]

/-- A recorded plain event neither throws nor breaks the chain. -/
theorem Chained.record {l : HashChainFileAuditLogger} {lines : List Bytes} {e : AuditEvent}
    (now : Tm) (h : Chained l lines) (he : e.PlainFields) :
    ∃ l', l.record now true e = .ok l' ∧ Chained l' (lines ++ [auditLine (l.completed now e)]) := by
  have hline := plainLine_completed now h.plain he
  refine ⟨_, record_eq now e h.sound h.verify, ?_, ?_, ?_, plain_hex _, hex_ne_corrupted _⟩
  · simp [h.content]
  · intro line hmem
    rcases List.mem_append.1 hmem with hold | hnew
    · exact h.newline line hold
    · rw [List.mem_singleton.1 hnew]
      exact newline_not_mem_auditLine (plain_hex _)
  · have hstep : checkLine { prev := l.lastHash, expectedSeq := l.lastSeq + 1 }
        (auditLine (l.completed now e)) =
          some { prev := (l.completed now e).msgHash, expectedSeq := l.lastSeq + 1 + 1 } :=
      checkLine_auditLine hline
    simp [List.foldlM_append, h.checked, hstep]

theorem Chained.recordAll {l : HashChainFileAuditLogger} {lines : List Bytes}
    {es : List (Tm × AuditEvent)} (h : Chained l lines) (hes : ∀ te ∈ es, te.2.PlainFields) :
    ∃ l' lines', l.recordAll es = .ok l' ∧ Chained l' lines' := by
  induction es generalizing l lines with
  | nil => exact ⟨l, lines, rfl, h⟩
  | cons te es ih =>
      obtain ⟨l₁, hrecord, h₁⟩ := h.record te.1 (hes te (by simp))
      obtain ⟨l₂, lines₂, hrest, h₂⟩ := ih h₁ fun te' hmem => hes te' (by simp [hmem])
      refine ⟨l₂, lines₂, ?_, h₂⟩
      rw [HashChainFileAuditLogger.recordAll, List.foldlM_cons, hrecord]
      exact hrest

/-- On a fresh log, events whose fields need no escaping are all recorded, and the log verifies
after each of them. -/
theorem recordAll_verify (es : List (Tm × AuditEvent)) (hes : ∀ te ∈ es, te.2.PlainFields) :
    ∀ pre, pre <+: es → ∃ l, (new none).recordAll pre = .ok l ∧ l.verify = true := by
  intro pre hpre
  have hplain : ∀ te ∈ pre, te.2.PlainFields := fun te hmem => hes te (hpre.subset hmem)
  obtain ⟨l, lines, hrun, hl⟩ := chained_new.recordAll hplain
  exact ⟨l, hrun, hl.verify⟩

theorem recordAll_verify_login :
    ∃ l, (new none).recordAll
        [(⟨2026, 1, 1, 0, 0, 0⟩, { actor := ascii "alice", action := ascii "REGISTER_OK" }),
          (⟨2026, 1, 1, 0, 1, 0⟩, { actor := ascii "alice", action := ascii "LOGIN_OK" })] = .ok l ∧
      l.verify = true :=
  recordAll_verify _
    (by
      intro te hte
      simp only [List.mem_cons, List.not_mem_nil, or_false] at hte
      rcases hte with rfl | rfl <;> exact ⟨by decide, by decide, by decide, by decide, by decide⟩)
    _ List.prefix_rfl

set_option maxRecDepth 100000 in
/-- An actor that holds a quote is written escaped, read back escaped and escaped again: the log
does not verify after the call, and the next call throws. -/
theorem not_recordAll_verify_quote :
    ¬ (∃ l, (new none).recordAll
        [(⟨2026, 1, 1, 0, 0, 0⟩, { actor := ascii "\"", action := ascii "LOGIN_FAIL" })] = .ok l ∧
      l.verify = true) ∧
    (new none).recordAll
        [(⟨2026, 1, 1, 0, 0, 0⟩, { actor := ascii "\"", action := ascii "LOGIN_FAIL" }),
          (⟨2026, 1, 1, 0, 1, 0⟩, { actor := ascii "alice", action := ascii "LOGIN_OK" })] =
      .error (.runtime "audit chain verification failed before append") := by
  have hfirst : ((new none).recordAll
      [(⟨2026, 1, 1, 0, 0, 0⟩, { actor := ascii "\"", action := ascii "LOGIN_FAIL" })]).map
        HashChainFileAuditLogger.verify = .ok false := by
    decide +kernel
  refine ⟨?_, by decide +kernel⟩
  rintro ⟨l, hrun, hverify⟩
  rw [hrun] at hfirst
  simp [Except.map, hverify] at hfirst

end HashChainFileAuditLogger
end SecureFileTransfer
