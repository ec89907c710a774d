import SecureFileTransfer.AuditReadback

/-!
# ReplacedLog — a log file that is replaced under a running logger

`record` checks the file as it finds it and appends a line for the chain it holds in memory.  The two
chains meet either in a line of their own or, when the file does not end with a newline, inside one
line.
-/

namespace SecureFileTransfer

open StdString HashChain

/-! ## A line joined to an open one -/

/-- The keys of the quoted fields. -/
def textKeys : List Bytes :=
  [ ascii "ts", ascii "actor", ascii "action", ascii "fileId", ascii "cipherHash",
    ascii "prevHash", ascii "msgHash" ]

/-- The fields an event may leave empty. -/
def optionalFields (e : AuditEvent) : List (Bytes × Bytes) :=
  [ (ascii "actor", e.actor), (ascii "action", e.action), (ascii "fileId", e.fileId),
    (ascii "cipherHash", e.cipherHash) ]

/-- The open line `t` reads the same when the line of the event `e` with the number `seq` is joined
to it: its own fields are closed, and the fields it lacks are empty in the event. -/
structure Swallows (t : Bytes) (seq : UInt64) (e : AuditEvent) : Prop where
  closed : ∀ key ∈ textKeys, ∀ s, afterKey t key = some s → Closed s
  optional : ∀ m ∈ optionalFields e, afterKey t m.1 = none → m.2 = []
  ts : afterKey t (ascii "ts") ≠ none
  seq : afterKey t (ascii "seq") = none → seq = 0

theorem isKey_of_mem_textKeys {key : Bytes} (h : key ∈ textKeys) : IsKey key := by
  have hall : ∀ key ∈ textKeys, IsKey key := by decide
  exact hall key h

/-- An audit line starts with a brace and holds a comma. -/
theorem auditLine_eq_cons (e : AuditEvent) :
    ∃ u, auditLine e = 123 :: u ∧ (44 : UInt8) ∈ u := by
  refine ⟨_, object_eq _ _, ?_⟩
  simp [closedMembers, escapedMembers, member_eq]

section Joined

variable {t u key : Bytes}

theorem getField_of_none (h : afterKey t key = none) : getField t key = [] := by
  rw [getField_eq, h]
  rfl

theorem getField_of_some {s : Bytes} (h : afterKey t key = some s) :
    getField t key = readValue s := by
  rw [getField_eq, h]
  rfl

/-- A field that is closed in the open line keeps its value. -/
theorem getField_joined_of_closed {s : Bytes} (h : afterKey t key = some s) (hs : Closed s) :
    getField (t ++ u) key = getField t key := by
  rw [getField_of_some (afterKey_append_of_some h u), getField_of_some h,
    readValue_append_of_closed hs]

/-- A field that is not closed takes in the brace of the next line. -/
theorem getField_joined_of_not_closed {s : Bytes} (h : afterKey t key = some s) (hs : ¬ Closed s)
    (hu : (44 : UInt8) ∈ u) :
    ∃ c w, (c = 123 ∨ c = 125) ∧ getField (t ++ 123 :: u) key = getField t key ++ c :: w ∧
      (123 : UInt8) ∈ c :: w := by
  rw [getField_of_some (afterKey_append_of_some h _), getField_of_some h]
  exact readValue_append_of_not_closed hs hu

/-- A field that is missing is read from the next line. -/
theorem getField_joined_of_none (hkey : IsKey key) (h : afterKey t key = none) :
    getField (t ++ 123 :: u) key = getField (123 :: u) key := by
  rw [getField_eq, getField_eq, afterKey_append_of_none hkey h]

/-- A field of the open line keeps its value exactly when it is closed, or missing and empty in the
next line. -/
theorem getField_joined_iff (hkey : IsKey key) (hu : (44 : UInt8) ∈ u) :
    getField (t ++ 123 :: u) key = getField t key ↔
      (∀ s, afterKey t key = some s → Closed s) ∧
        (afterKey t key = none → getField (123 :: u) key = []) := by
  cases hafter : afterKey t key with
  | none =>
      rw [getField_joined_of_none hkey hafter, getField_of_none hafter]
      simp
  | some s =>
      by_cases hs : Closed s
      · rw [getField_joined_of_closed hafter hs]
        simpa using hs
      · obtain ⟨c, w, -, hjoined, -⟩ := getField_joined_of_not_closed hafter hs hu
        rw [hjoined]
        simpa using hs

/-- The sequence number keeps its value unless it is missing. -/
theorem seqOf_joined (hu : (44 : UInt8) ∈ u) (h : afterKey t (ascii "seq") ≠ none) :
    seqOf (getField (t ++ 123 :: u) (ascii "seq")) = seqOf (getField t (ascii "seq")) := by
  obtain ⟨s, hs⟩ := Option.ne_none_iff_exists'.1 h
  by_cases hclosed : Closed s
  · rw [getField_joined_of_closed hs hclosed]
  · obtain ⟨c, w, hc, hjoined, -⟩ := getField_joined_of_not_closed hs hclosed hu
    have hstop : isSpace c = false ∧ isDigit c = false ∧ c ≠ 43 ∧ c ≠ 45 := by
      rcases hc with rfl | rfl <;> decide
    rw [hjoined, seqOf, seqOf, stoull_append_cons hstop.1 hstop.2.1 hstop.2.2.1 hstop.2.2.2]

end Joined

/-- A field the writer leaves empty is read as empty, and no other. -/
theorem getField_auditLine_eq_nil_iff {e : AuditEvent} (hmsg : Plain e.msgHash) {key w : Bytes}
    (hkey : IsKey key) (hseq : key ≠ ascii "seq")
    (hlookup : (lineMembers e).lookup key = some (jsonEscape w)) :
    getField (auditLine e) key = [] ↔ w = [] := by
  constructor
  · intro hread
    obtain ⟨more, hmore⟩ := getField_auditLine_escaped hmsg hkey hseq hlookup
    have hnil : jsonEscape w = [] := (List.append_eq_nil_iff.1 (hmore.symm.trans hread)).1
    cases w with
    | nil => rfl
    | cons c w =>
        have hone : ∀ c : UInt8, escapeByte c ≠ [] := forall_byte (by decide +kernel)
        rw [jsonEscape, List.flatMap_cons] at hnil
        exact absurd (List.append_eq_nil_iff.1 hnil).1 (hone c)
  · rintro rfl
    exact getField_auditLine hmsg hkey hseq (fun c hc => absurd hc List.not_mem_nil) hlookup

theorem parsedRecord_eq_iff (line line' : Bytes) :
    parsedRecord line = parsedRecord line' ↔
      seqOf (getField line (ascii "seq")) = seqOf (getField line' (ascii "seq")) ∧
        ∀ key ∈ textKeys, getField line key = getField line' key := by
  simp only [parsedRecord, parsedEvent, AuditEvent.mk.injEq, textKeys, List.forall_mem_cons,
    List.not_mem_nil, IsEmpty.forall_iff, implies_true, and_true]

open HashChainFileAuditLogger

theorem completed_ts_ne_nil (k : HashChainFileAuditLogger) (now : Tm) (e : AuditEvent) :
    (k.completed now e).ts ≠ [] := by
  show (if e.ts.isEmpty then now.stamp else e.ts) ≠ []
  split
  · simp [Tm.stamp, decimal_ne_nil]
  · next h => simpa using h

/-- An open line that holds both hashes reads the same with the next line joined to it exactly when
it swallows that line. -/
theorem parsedRecord_joined_iff {t : Bytes} (k : HashChainFileAuditLogger) (now : Tm)
    (e : AuditEvent) (hprev : afterKey t (ascii "prevHash") ≠ none)
    (hmsg : afterKey t (ascii "msgHash") ≠ none) :
    parsedRecord (t ++ auditLine (k.completed now e)) = parsedRecord t ↔
      Swallows t (k.lastSeq + 1) e := by
  have hplain : Plain (k.completed now e).msgHash := plain_hex _
  have hactor : getField (auditLine (k.completed now e)) (ascii "actor") = [] ↔ e.actor = [] :=
    getField_auditLine_eq_nil_iff hplain (by decide) (by decide) rfl
  have haction : getField (auditLine (k.completed now e)) (ascii "action") = [] ↔ e.action = [] :=
    getField_auditLine_eq_nil_iff hplain (by decide) (by decide) rfl
  have hfile : getField (auditLine (k.completed now e)) (ascii "fileId") = [] ↔ e.fileId = [] :=
    getField_auditLine_eq_nil_iff hplain (by decide) (by decide) rfl
  have hcipher :
      getField (auditLine (k.completed now e)) (ascii "cipherHash") = [] ↔ e.cipherHash = [] :=
    getField_auditLine_eq_nil_iff hplain (by decide) (by decide) rfl
  have hts : getField (auditLine (k.completed now e)) (ascii "ts") ≠ [] := fun hnil =>
    completed_ts_ne_nil k now e ((getField_auditLine_eq_nil_iff hplain (by decide) (by decide) rfl).1
      hnil)
  have hseq : seqOf (getField (auditLine (k.completed now e)) (ascii "seq")) = k.lastSeq + 1 :=
    seqOf_auditLine _
  obtain ⟨u, hu, hcomma⟩ := auditLine_eq_cons (k.completed now e)
  rw [hu] at hactor haction hfile hcipher hts hseq ⊢
  have hfields : ∀ key ∈ textKeys, (getField (t ++ 123 :: u) key = getField t key ↔
      (∀ s, afterKey t key = some s → Closed s) ∧
        (afterKey t key = none → getField (123 :: u) key = [])) := fun key hkey =>
    getField_joined_iff (isKey_of_mem_textKeys hkey) hcomma
  rw [parsedRecord_eq_iff]
  constructor
  · rintro ⟨hnumber, htext⟩
    refine ⟨fun key hkey => ((hfields key hkey).1 (htext key hkey)).1, ?_, ?_, ?_⟩
    · have habsent : ∀ key ∈ textKeys, afterKey t key = none → getField (123 :: u) key = [] :=
        fun key hkey => ((hfields key hkey).1 (htext key hkey)).2
      simp only [optionalFields, List.forall_mem_cons, List.not_mem_nil, IsEmpty.forall_iff,
        implies_true, and_true]
      exact ⟨fun h => hactor.1 (habsent _ (by decide) h), fun h => haction.1 (habsent _ (by decide) h),
        fun h => hfile.1 (habsent _ (by decide) h), fun h => hcipher.1 (habsent _ (by decide) h)⟩
    · intro hnone
      exact hts (((hfields _ (by decide)).1 (htext _ (by decide))).2 hnone)
    · intro hnone
      rw [getField_joined_of_none (by decide) hnone, hseq, getField_of_none hnone] at hnumber
      exact hnumber
  · rintro ⟨hclosed, hoptional, hstamp, hmissing⟩
    constructor
    · by_cases hnone : afterKey t (ascii "seq") = none
      · rw [getField_joined_of_none (by decide) hnone, hseq, getField_of_none hnone, hmissing hnone]
        rfl
      · exact seqOf_joined hcomma hnone
    · simp only [optionalFields, List.forall_mem_cons, List.not_mem_nil, IsEmpty.forall_iff,
        implies_true, and_true] at hoptional
      obtain ⟨hoActor, hoAction, hoFile, hoCipher⟩ := hoptional
      have habsent : ∀ key ∈ textKeys, afterKey t key = none → getField (123 :: u) key = [] := by
        simp only [textKeys, List.forall_mem_cons, List.not_mem_nil, IsEmpty.forall_iff,
          implies_true, and_true]
        exact ⟨fun h => absurd h hstamp, fun h => hactor.2 (hoActor h),
          fun h => haction.2 (hoAction h), fun h => hfile.2 (hoFile h),
          fun h => hcipher.2 (hoCipher h), fun h => absurd h hprev, fun h => absurd h hmsg⟩
      exact fun key hkey => (hfields key hkey).2 ⟨hclosed key hkey, habsent key hkey⟩

/-! ## The next record -/

theorem verifyFile_eq (file : Option Bytes) :
    verifyFile file = ((getlines (file.getD [])).foldlM checkLine genesis).isSome := by
  cases file <;> rfl

theorem lineRecords_getlines (content : Bytes) :
    lineRecords (getlines content) = parsedRecords content := rfl

/-- The content once `record` has appended its line. -/
def appended (l : HashChainFileAuditLogger) (content : Option Bytes) (now : Tm) (e : AuditEvent) :
    Bytes :=
  content.getD [] ++ (auditLine (l.completed now e) ++ [10])

/-- The lines of a file behind which a line is written. -/
theorem getlines_append_line {ls : List Bytes} {t line : Bytes}
    (hls : ∀ l ∈ ls, (10 : UInt8) ∉ l) (ht : (10 : UInt8) ∉ t) (hline : (10 : UInt8) ∉ line) :
    getlines (ls.flatMap (· ++ [10]) ++ t ++ (line ++ [10])) = ls ++ [t ++ line] := by
  have hjoined : (10 : UInt8) ∉ t ++ line := fun h => (List.mem_append.1 h).elim ht hline
  have hsplit : ls.flatMap (· ++ [10]) ++ t ++ (line ++ [10]) =
      (ls ++ [t ++ line]).flatMap (· ++ [10]) := by
    simp
  rw [hsplit]
  refine getlines_flatMap fun l hl => ?_
  rcases List.mem_append.1 hl with hold | hnew
  · exact hls l hold
  · rw [List.mem_singleton.1 hnew]
    exact hjoined

/-- A content is the lines before its open line, and that line, to which the next one is joined. -/
structure Cut (content : Bytes) (ls : List Bytes) (t : Bytes) : Prop where
  lines : getlines content = ls ++ if t = [] then [] else [t]
  joined : ∀ line, (10 : UInt8) ∉ line → getlines (content ++ (line ++ [10])) = ls ++ [t ++ line]

theorem exists_cut (content : Bytes) : ∃ ls, Cut content ls (openLine content) := by
  obtain ⟨ls, hls, hcontent⟩ := exists_lines content
  have hopen := newline_not_mem_openLine content
  generalize openLine content = t at hcontent hopen
  refine ⟨ls, ?_, fun line hline => ?_⟩
  · rw [hcontent, getlines_flatMap_append hls, getlines_open hopen]
  · rw [hcontent]
    exact getlines_append_line hls hopen hline

/-- A file verifies exactly if its last line is accepted in the state the lines before have led to. -/
theorem verifyFile_concat_iff {file : Option Bytes} {ls : List Bytes} {t : Bytes}
    (hlines : getlines (file.getD []) = ls ++ [t]) (ht : t.isEmpty = false) :
    verifyFile file = true ↔
      ∃ c, ls.foldlM checkLine genesis = some c ∧ ∃ c₁, Accepts c t c₁ := by
  rw [verifyFile_eq, hlines, List.foldlM_append]
  simp only [← checkLine_eq_some_iff ht]
  cases ls.foldlM checkLine genesis with
  | none => simp
  | some c => simp [Option.isSome_iff_exists]

theorem parsedRecord_mem_of_concat {content t : Bytes} {ls : List Bytes}
    (hlines : getlines content = ls ++ [t]) (ht : t.isEmpty = false) :
    parsedRecord t ∈ parsedRecords content := by
  rw [← lineRecords_getlines, hlines, lineRecords_append, lineRecords_singleton ht]
  simp

theorem prev_ne_nil_of_checkLines {ls : List Bytes} {c : Chain}
    (h : ls.foldlM checkLine genesis = some c) : c.prev ≠ [] := by
  have hchecked := checked_of_checkLines h
  rw [hchecked.prev]
  exact lastDigest_ne_nil hchecked.linked

theorem isHexDigit_brace : isHexDigit 123 = false := by decide

/-- A line that is accepted holds both hashes. -/
theorem Accepts.keys {c c' : Chain} {t : Bytes} (h : Accepts c t c') (hprev : c.prev ≠ []) :
    afterKey t (ascii "prevHash") ≠ none ∧ afterKey t (ascii "msgHash") ≠ none := by
  constructor
  · intro hnone
    have hstored : getField t (ascii "prevHash") = c.prev := h.prev
    rw [getField_of_none hnone] at hstored
    exact hprev hstored.symm
  · intro hnone
    have hhash : RealSha256.hex (canonical (parsedRecord t)) = getField t (ascii "msgHash") := h.hash
    rw [getField_of_none hnone] at hhash
    exact hex_ne_nil _ hhash

/-- Two lines that are accepted in one state of the chain, one of them the other with more joined to
it, read the same. -/
theorem Accepts.parsedRecord_joined {c c₁ c₂ : Chain} {t u : Bytes} (hu : (44 : UInt8) ∈ u)
    (h : Accepts c t c₁) (hjoined : Accepts c (t ++ 123 :: u) c₂) (hprev : c.prev ≠ [])
    (hcol : RealSha256.hex (canonical (parsedRecord (t ++ 123 :: u))) =
      RealSha256.hex (canonical (parsedRecord t)) →
        canonical (parsedRecord (t ++ 123 :: u)) = canonical (parsedRecord t)) :
    parsedRecord (t ++ 123 :: u) = parsedRecord t := by
  obtain ⟨s, hs⟩ := Option.ne_none_iff_exists'.1 (h.keys hprev).2
  -- a stored hash that took in the brace of the joined line would be no hash
  have hclosed : Closed s := by
    by_contra hopen
    obtain ⟨c, w, -, hread, hbrace⟩ := getField_joined_of_not_closed hs hopen hu
    have hhex : (123 : UInt8) ∈ RealSha256.hex (canonical (parsedRecord (t ++ 123 :: u))) := by
      rw [hjoined.hash]
      show (123 : UInt8) ∈ getField (t ++ 123 :: u) (ascii "msgHash")
      rw [hread]
      exact List.mem_append_right _ hbrace
    have hdigit := RealSha256.isHexDigit_of_mem_hex hhex
    rw [isHexDigit_brace] at hdigit
    cases hdigit
  have hmsg : (parsedRecord (t ++ 123 :: u)).msgHash = (parsedRecord t).msgHash :=
    getField_joined_of_closed hs hclosed
  have hcanonical := hcol (by rw [hjoined.hash, h.hash, hmsg])
  rw [canonical_inj hcanonical.symm, hmsg]

/-- A line the logger writes is accepted only behind the hash the logger holds. -/
theorem Accepts.prev_auditLine {l : HashChainFileAuditLogger} {now : Tm} {e : AuditEvent}
    {c c' : Chain} (h : Accepts c (auditLine (l.completed now e)) c') (hplain : Plain l.lastHash) :
    c.prev = l.lastHash := by
  have hstored : (parsedRecord (auditLine (l.completed now e))).prevHash = l.lastHash :=
    getField_auditLine (plain_hex _) (by decide) (by decide) hplain
      (by rw [← jsonEscape_of_plain hplain]; rfl)
  rw [← h.prev, hstored]

/-- An open line that is accepted alone, and with the next line joined to it, swallows that line. -/
theorem Accepts.swallows {l : HashChainFileAuditLogger} {now : Tm} {e : AuditEvent}
    {c c₁ c₂ : Chain} {t : Bytes} (h : Accepts c t c₁)
    (hjoined : Accepts c (t ++ auditLine (l.completed now e)) c₂) (hprev : c.prev ≠ [])
    (hcol : RealSha256.hex (canonical (parsedRecord (t ++ auditLine (l.completed now e)))) =
      RealSha256.hex (canonical (parsedRecord t)) →
        canonical (parsedRecord (t ++ auditLine (l.completed now e))) =
          canonical (parsedRecord t)) :
    Swallows t (l.lastSeq + 1) e := by
  have hkeys := h.keys hprev
  refine (parsedRecord_joined_iff l now e hkeys.1 hkeys.2).1 ?_
  obtain ⟨u, hu, hcomma⟩ := auditLine_eq_cons (l.completed now e)
  rw [hu] at hjoined hcol ⊢
  exact h.parsedRecord_joined hcomma hjoined hprev hcol

/-- A running logger whose log file is replaced by other records notices it at its next call, unless
the new content verifies and ends with an open line that swallows the line of that call. -/
theorem replacement_noticed_iff {file : Option Bytes} (hfresh : file.getD [] = [])
    {es : List (Tm × AuditEvent)} (hne : es ≠ []) {l : HashChainFileAuditLogger}
    (hrun : (new file).recordAll es = .ok l) (content : Option Bytes)
    (hdiff : parsedRecords (content.getD []) ≠ recorded (new file) es) (now : Tm) (e : AuditEvent)
    (hcol : CollisionFree auditFormat RealSha256.hex (recorded (new file) es ++
      parsedRecords (content.getD []) ++ parsedRecords (appended l content now e))) :
    (∀ l', { l with file := content }.record now true e = .ok l' → l'.verify = false) ↔
      ¬ (verifyFile content = true ∧ openLine (content.getD []) ≠ [] ∧
        Swallows (openLine (content.getD [])) (l.lastSeq + 1) e) := by
  have hnew := new_of_fresh hfresh
  have hwrote := wrote_of_recordAll hrun
  have hlinked := linked_recorded (new file) es
  have hstart : (new file).lastHash = ascii "GENESIS" := by rw [hnew]
  rw [hstart] at hlinked
  have hlast : l.lastHash = lastDigest auditFormat (ascii "GENESIS") (recorded (new file) es) := by
    rw [hwrote.lastHash, hstart]
  -- the head of the chain in memory is the hash of a record
  have hrecords : recorded (new file) es ≠ [] := fun hnil =>
    hne (List.eq_nil_of_length_eq_zero (by rw [← length_recorded (new file), hnil]; rfl))
  obtain ⟨m, hm⟩ := exists_hex_of_linked hrecords hlinked
  have hsound : l.lastHash ≠ ascii "CORRUPTED" := by
    rw [hlast, hm]
    exact hex_ne_corrupted m
  have hplain : Plain l.lastHash := by
    rw [hlast, hm]
    exact plain_hex m
  -- the file is lines that end, and an open one to which the new line is joined
  obtain ⟨ls, hcut⟩ := exists_cut (content.getD [])
  generalize openLine (content.getD []) = t at hcut ⊢
  have hnext : getlines (appended l content now e) = ls ++ [t ++ auditLine (l.completed now e)] :=
    hcut.joined _ (newline_not_mem_auditLine (plain_hex _))
  have hnextNe : (t ++ auditLine (l.completed now e)).isEmpty = false := by
    obtain ⟨u, hu, -⟩ := auditLine_eq_cons (l.completed now e)
    simp [hu]
  have hverify : verifyFile (some (appended l content now e)) = true ↔ ∃ c,
      ls.foldlM checkLine genesis = some c ∧
        ∃ c₂, Accepts c (t ++ auditLine (l.completed now e)) c₂ :=
    verifyFile_concat_iff hnext hnextNe
  have hcontent : t ≠ [] → getlines (content.getD []) = ls ++ [t] := fun hopen => by
    rw [hcut.lines, if_neg hopen]
  constructor
  · rintro hnotice ⟨hok, hopen, hswallows⟩
    have hfalse : verifyFile (some (appended l content now e)) = false :=
      hnotice _ (record_eq now e hsound hok)
    have htNe : t.isEmpty = false := by simpa using hopen
    obtain ⟨c, hc, c₁, hc₁⟩ := (verifyFile_concat_iff (hcontent hopen) htNe).1 hok
    have hkeys := hc₁.keys (prev_ne_nil_of_checkLines hc)
    have hsame := (parsedRecord_joined_iff l now e hkeys.1 hkeys.2).2 hswallows
    have hjoined : checkLine c (t ++ auditLine (l.completed now e)) = some c₁ :=
      (checkLine_congr hnextNe htNe hsame).trans ((checkLine_eq_some_iff htNe).2 hc₁)
    rw [hverify.2 ⟨c, hc, c₁, (checkLine_eq_some_iff hnextNe).1 hjoined⟩] at hfalse
    cases hfalse
  · intro hexcept l' hl'
    obtain ⟨-, hok, rfl⟩ := record_ok hl'
    show verifyFile (some (appended l content now e)) = false
    rw [← Bool.not_eq_true, hverify]
    rintro ⟨c, hc, c₂, hjoined⟩
    by_cases hopen : t = []
    · -- the new line stands alone, so both chains end with the hash it links to
      rw [hopen, List.nil_append] at hjoined
      have hchecked := checked_of_checkLines hc
      have hrecs : parsedRecords (content.getD []) = lineRecords ls := by
        rw [← lineRecords_getlines, hcut.lines, if_pos hopen, List.append_nil]
      rw [hrecs] at hcol hdiff
      refine hdiff (hchecked.linked.eq_of_lastDigest auditFormat_covers hex_ne_genesis
        (hcol.mono ?_) hlinked ?_)
      · exact List.append_subset.2 ⟨fun x hx => by simp [hx], fun x hx => by simp [hx]⟩
      · rw [← hlast, ← hjoined.prev_auditLine hplain]
        exact hchecked.prev.symm
    · -- the new line is joined to a line that was accepted without it
      have htNe : t.isEmpty = false := by simpa using hopen
      obtain ⟨c', hc', c₁, haccepts⟩ := (verifyFile_concat_iff (hcontent hopen) htNe).1 hok
      obtain rfl : c = c' := Option.some.inj (hc.symm.trans hc')
      have hmem := parsedRecord_mem_of_concat (hcontent hopen) htNe
      have hmem' := parsedRecord_mem_of_concat hnext hnextNe
      have hswallows := haccepts.swallows hjoined (prev_ne_nil_of_checkLines hc)
        (hcol _ (by simp [hmem']) _ (by simp [hmem]))
      exact hexcept ⟨hok, hopen, hswallows⟩

/-- A login on a fresh log, and the state it leaves. -/
def loginCall : List (Tm × AuditEvent) :=
  [(⟨2026, 1, 1, 0, 0, 0⟩, { actor := ascii "alice", action := ascii "LOGIN_OK" })]

def loginRecorded : HashChainFileAuditLogger :=
  ((new none).recordAll loginCall).toOption.getD (new none)

/-- The record someone else's login would have left. -/
def otherLogin : AuditEvent :=
  (new none).completed ⟨2026, 1, 1, 0, 0, 0⟩ { actor := ascii "bob", action := ascii "LOGIN_OK" }

def nextEvent : AuditEvent := { actor := ascii "alice", action := ascii "UPLOAD" }

/-- The record that the next call writes. -/
def nextRecord : AuditEvent := loginRecorded.completed ⟨2026, 1, 1, 0, 1, 0⟩ nextEvent

theorem recordAll_loginCall : (new none).recordAll loginCall = .ok loginRecorded := by
  decide +kernel

set_option maxRecDepth 100000 in
theorem collisionFree_logins : CollisionFree auditFormat RealSha256.hex
    [loginEvent, otherLogin, nextRecord] :=
  collisionFree_of_nodup (by decide +kernel)

set_option maxRecDepth 100000 in
/-- The other record in a line of its own: the next record does not fit. -/
theorem replacement_noticed_otherLogin :
    (new none).recordAll loginCall = .ok loginRecorded ∧
      ∀ l', { loginRecorded with file := some (auditLine otherLogin ++ [10]) }.record
        ⟨2026, 1, 1, 0, 1, 0⟩ true nextEvent = .ok l' → l'.verify = false := by
  refine ⟨recordAll_loginCall, (replacement_noticed_iff rfl (by decide) recordAll_loginCall _
    (by decide +kernel) _ _ (collisionFree_logins.mono ?_)).2 ?_⟩
  · decide +kernel
  · rintro ⟨-, hopen, -⟩
    exact hopen (by decide +kernel)

set_option maxRecDepth 100000 in
/-- The other record without its newline: the next record is joined to its line, where `verify` does
not see it. -/
theorem not_replacement_noticed_openLine :
    (new none).recordAll loginCall = .ok loginRecorded ∧
      parsedRecords (auditLine otherLogin) ≠ recorded (new none) loginCall ∧
      CollisionFree auditFormat RealSha256.hex (recorded (new none) loginCall ++
        parsedRecords (auditLine otherLogin) ++ parsedRecords (appended loginRecorded
          (some (auditLine otherLogin)) ⟨2026, 1, 1, 0, 1, 0⟩ nextEvent)) ∧
      ¬ ∀ l', { loginRecorded with file := some (auditLine otherLogin) }.record
        ⟨2026, 1, 1, 0, 1, 0⟩ true nextEvent = .ok l' → l'.verify = false := by
  refine ⟨recordAll_loginCall, by decide +kernel, collisionFree_logins.mono (by decide +kernel),
    fun hnotice => ?_⟩
  have hverify : ({ loginRecorded with file := some (auditLine otherLogin) }.record
      ⟨2026, 1, 1, 0, 1, 0⟩ true nextEvent).map HashChainFileAuditLogger.verify = .ok true := by
    decide +kernel
  cases hrecord : { loginRecorded with file := some (auditLine otherLogin) }.record
      ⟨2026, 1, 1, 0, 1, 0⟩ true nextEvent with
  | error err =>
      rw [hrecord] at hverify
      cases hverify
  | ok l' =>
      rw [hrecord, Except.map, hnotice l' hrecord] at hverify
      cases hverify

end SecureFileTransfer
