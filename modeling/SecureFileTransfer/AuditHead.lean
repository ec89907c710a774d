import SecureFileTransfer.ReplacedLog

/-!
# AuditHead — the head of the chain in memory, against the file

The constructor takes the head from the last line of the file, and `record` moves it on whether or
not the line it appends gets there.
-/

namespace SecureFileTransfer

open StdString HashChain HashChainFileAuditLogger

/-! ## Restart -/

/-- A hash is read the same by both extractors. -/
theorem getFieldNaive_of_hex {line key m : Bytes} (h : getField line key = RealSha256.hex m) :
    getFieldNaive line key = RealSha256.hex m := by
  rcases getField_naive line key with hsame | ⟨more, hmore⟩
  · rw [← hsame, h]
  · have hquote : (34 : UInt8) ∈ RealSha256.hex m := by
      rw [← h, hmore]
      simp
    exact absurd hquote (plain_hex m).quote_not_mem

/-- A number is read the same by both, as it ends before any quote. -/
theorem seqOf_naive (line key : Bytes) :
    seqOf (getFieldNaive line key) = seqOf (getField line key) := by
  rcases getField_naive line key with hsame | ⟨more, hmore⟩
  · rw [hsame]
  · rw [hmore, seqOf, seqOf,
      stoull_append_cons (by decide) (by decide) (by decide) (by decide)]

theorem new_eq (file : Option Bytes) :
    new file = match (getlines (file.getD [])).getLast? with
      | none => { file := file, lastHash := ascii "GENESIS", lastSeq := 0 }
      | some lastLine =>
          if verifyFile file then
            { file := file
              lastHash := if (getFieldNaive lastLine (ascii "msgHash")).isEmpty then ascii "GENESIS"
                else getFieldNaive lastLine (ascii "msgHash")
              lastSeq := seqOf (getFieldNaive lastLine (ascii "seq")) }
          else
            { file := file, lastHash := ascii "CORRUPTED", lastSeq := 0 } := by
  cases file <;> rfl

/-- The constructor's view of the file is that of `verify`. -/
structure Continues (l : HashChainFileAuditLogger) (records : List AuditEvent) : Prop where
  lastSeq : l.lastSeq = UInt64.ofNat records.length
  lastHash : l.lastHash = lastDigest auditFormat (ascii "GENESIS") records

/-- A last line that holds a record is where the constructor finds the head of the chain. -/
theorem continues_of_lastLine {file : Option Bytes} {lines : List Bytes} {line : Bytes}
    (hlines : getlines (file.getD []) = lines ++ [line]) (hline : line.isEmpty = false)
    (hverify : verifyFile file = true) :
    Continues (new file) (parsedRecords (file.getD [])) := by
  obtain ⟨c, hc, c₁, haccepts⟩ := (verifyFile_concat_iff hlines hline).1 hverify
  have hchecked := checked_of_checkLines hc
  have hrecs : parsedRecords (file.getD []) = lineRecords lines ++ [parsedRecord line] := by
    rw [← lineRecords_getlines, hlines, lineRecords_append, lineRecords_singleton hline]
  have hhash : getField line (ascii "msgHash") = RealSha256.hex (canonical (parsedRecord line)) :=
    haccepts.hash.symm
  have hnaive := getFieldNaive_of_hex hhash
  have hlast : (getlines (file.getD [])).getLast? = some line := by
    rw [hlines, List.getLast?_concat]
  rw [new_eq, hlast]
  simp only [hverify, if_true]
  refine ⟨?_, ?_⟩
  · show seqOf (getFieldNaive line (ascii "seq")) = _
    have hseq : seqOf (getField line (ascii "seq")) = c.expectedSeq := haccepts.seq
    rw [seqOf_naive, hseq, hchecked.expectedSeq, hrecs, List.length_append, UInt64.ofNat_add,
      UInt64.add_comm]
    rfl
  · show (if (getFieldNaive line (ascii "msgHash")).isEmpty then ascii "GENESIS"
      else getFieldNaive line (ascii "msgHash")) = _
    rw [if_neg (by simpa [hnaive] using hex_ne_nil _), hnaive, hrecs, lastDigest_concat]
    exact haccepts.hash

/-- On a log that `verify` accepts, the constructor continues the chain exactly when the log has no
records or its last line is one. -/
theorem new_continues_iff {file : Option Bytes} (hverify : verifyFile file = true) :
    Continues (new file) (parsedRecords (file.getD [])) ↔
      parsedRecords (file.getD []) = [] ∨ (getlines (file.getD [])).getLast? ≠ some [] := by
  have hlinked : Linked auditFormat RealSha256.hex (ascii "GENESIS")
      (parsedRecords (file.getD [])) := by
    rw [verifyFile_eq] at hverify
    exact linked_of_checkLines hverify
  cases hlast : (getlines (file.getD [])).getLast? with
  | none =>
      have hnil : getlines (file.getD []) = [] := List.getLast?_eq_none_iff.1 hlast
      have hrecs : parsedRecords (file.getD []) = [] := by
        rw [← lineRecords_getlines, hnil]
        rfl
      rw [new_eq, hlast, hrecs]
      exact ⟨fun _ => Or.inl rfl, fun _ => ⟨rfl, rfl⟩⟩
  | some line =>
      cases hline : line.isEmpty with
      | true =>
          -- the fields of an empty line are empty
          obtain rfl : line = [] := List.isEmpty_iff.1 hline
          have hnew : new file = { file := file, lastHash := ascii "GENESIS", lastSeq := 0 } := by
            rw [new_eq, hlast]
            simp only [hverify, if_true]
            rfl
          rw [hnew]
          constructor
          · intro hcontinues
            by_contra hcond
            have hne : parsedRecords (file.getD []) ≠ [] := fun h => hcond (Or.inl h)
            obtain ⟨m, hm⟩ := exists_hex_of_linked hne hlinked
            exact hex_ne_genesis m (hm.symm.trans hcontinues.lastHash.symm)
          · rintro (hnil | hne)
            · rw [hnil]
              exact ⟨rfl, rfl⟩
            · exact absurd rfl hne
      | false =>
          obtain ⟨lines, hlines⟩ := List.getLast?_eq_some_iff.1 hlast
          have hne : line ≠ [] := by
            rintro rfl
            cases hline
          exact ⟨fun _ => Or.inr (by simpa using hne),
            fun _ => continues_of_lastLine hlines hline hverify⟩

set_option maxRecDepth 100000 in
theorem new_continues_loginLog :
    verifyFile (some loginLog) = true ∧ Continues (new (some loginLog)) (parsedRecords loginLog) := by
  have hverify : verifyFile (some loginLog) = true := by decide +kernel
  exact ⟨hverify, (new_continues_iff hverify).2 (Or.inr (by decide +kernel))⟩

set_option maxRecDepth 100000 in
/-- A blank line behind the record: `verify` skips it, the constructor reads it. -/
theorem not_new_continues_blankLine :
    verifyFile (some (loginLog ++ [10])) = true ∧
      ¬ Continues (new (some (loginLog ++ [10]))) (parsedRecords (loginLog ++ [10])) := by
  refine ⟨by decide +kernel, fun hcontinues => ?_⟩
  have hseq := hcontinues.lastSeq
  revert hseq
  decide +kernel

/-! ## Appends that do not reach the file -/

/-- One call of `record`: the time, whether its line reaches the file, and the event. -/
structure RecordCall where
  now : Tm
  wrote : Bool
  event : AuditEvent

namespace HashChainFileAuditLogger

/-- The state behind a call, which a call that throws leaves as it was. -/
def attempt (l : HashChainFileAuditLogger) (c : RecordCall) : HashChainFileAuditLogger :=
  match l.record c.now c.wrote c.event with
  | .ok l' => l'
  | .error _ => l

/-- Successive calls, up to the first that throws. -/
def recordRun (l : HashChainFileAuditLogger) (cs : List RecordCall) :
    Except Exn HashChainFileAuditLogger :=
  cs.foldlM (fun l c => l.record c.now c.wrote c.event) l

/-- A call gets as far as its append. -/
structure Appends (l : HashChainFileAuditLogger) : Prop where
  sound : l.lastHash ≠ ascii "CORRUPTED"
  verify : l.verify = true

/-- The logger withstands an append that does not reach the file: the call throws, so that nothing
has changed, and the next plain event that is written leaves a log that verifies. -/
structure Withstands (l : HashChainFileAuditLogger) (now : Tm) (e : AuditEvent) : Prop where
  throws : ∃ err, l.record now false e = .error err
  recovers : ∀ now' e' l', e'.PlainFields → l.record now' true e' = .ok l' → l'.verify = true

/-- A call whose append is lost moves the head of the chain on and does not throw. -/
theorem record_lost {l : HashChainFileAuditLogger} (h : l.Appends) (now : Tm) (e : AuditEvent) :
    l.record now false e =
      .ok { l with lastHash := (l.completed now e).msgHash, lastSeq := l.lastSeq + 1 } := by
  simp [record, h.sound, h.verify, completed]

/-- After lost appends the logger still appends, and its numbers are ahead of the file. -/
theorem recordRun_lost {l : HashChainFileAuditLogger} (h : l.Appends) {lost : List RecordCall}
    (hlost : ∀ c ∈ lost, c.wrote = false) :
    ∃ l', l.recordRun lost = .ok l' ∧ l'.Appends ∧ l'.file = l.file ∧
      l'.lastSeq = l.lastSeq + UInt64.ofNat lost.length := by
  induction lost generalizing l with
  | nil => exact ⟨l, rfl, h, rfl, (UInt64.add_zero _).symm⟩
  | cons c lost ih =>
      have hstep := record_lost h c.now c.event
      rw [← hlost c (List.mem_cons_self ..)] at hstep
      have hnext : Appends { l with
          lastHash := (l.completed c.now c.event).msgHash, lastSeq := l.lastSeq + 1 } :=
        ⟨hex_ne_corrupted _, h.verify⟩
      obtain ⟨l', hrun, happends, hfile, hseq⟩ :=
        ih hnext fun c' hc' => hlost c' (List.mem_cons_of_mem _ hc')
      refine ⟨l', ?_, happends, hfile, ?_⟩
      · rw [recordRun, List.foldlM_cons, hstep]
        exact hrun
      · rw [hseq, List.length_cons, Nat.add_comm, UInt64.ofNat_add, ← UInt64.add_assoc]
        rfl

theorem record_throws {l : HashChainFileAuditLogger} (h : l.verify = false) (c : RecordCall) :
    ∃ err, l.record c.now c.wrote c.event = .error err := by
  unfold HashChainFileAuditLogger.record
  by_cases hcorrupt : l.lastHash = ascii "CORRUPTED"
  · exact ⟨_, if_pos hcorrupt⟩
  · exact ⟨_, by rw [if_neg hcorrupt, if_pos h]⟩

/-- A line whose number the chain does not expect leaves a log that does not verify. -/
theorem verify_of_gap {l l' : HashChainFileAuditLogger} {lines : List Bytes} {c : Chain}
    (hcontent : l.file.getD [] = lines.flatMap (· ++ [10]))
    (hnewline : ∀ line ∈ lines, (10 : UInt8) ∉ line)
    (hchecked : lines.foldlM checkLine genesis = some c) (hgap : l.lastSeq + 1 ≠ c.expectedSeq)
    {now : Tm} {e : AuditEvent} (hrecord : l.record now true e = .ok l') : l'.verify = false := by
  obtain ⟨-, -, rfl⟩ := record_ok hrecord
  have hplain : Plain (l.completed now e).msgHash := plain_hex _
  have hlines : getlines (Option.getD (some (l.file.getD [] ++ (auditLine (l.completed now e) ++ [10])))
      []) = lines ++ [auditLine (l.completed now e)] := by
    rw [Option.getD_some, hcontent, ← List.append_nil (lines.flatMap _)]
    exact getlines_append_line hnewline (by simp) (newline_not_mem_auditLine hplain)
  have hline : (auditLine (l.completed now e)).isEmpty = false := by
    obtain ⟨u, hu, -⟩ := auditLine_eq_cons (l.completed now e)
    rw [hu]
    rfl
  show verifyFile (some _) = false
  rw [← Bool.not_eq_true, verifyFile_concat_iff hlines hline]
  rintro ⟨c', hc', c₁, haccepts⟩
  obtain rfl : c = c' := Option.some.inj (hchecked.symm.trans hc')
  exact hgap ((seqOf_auditLine _).symm.trans haccepts.seq)

end HashChainFileAuditLogger

/-- In no state that calls of any outcome reach does a logger withstand an append that is lost.  If
the file was in step with it, every call goes on until a line is written again, and that line breaks
the log for good. -/
theorem lost_append_breaks_log (file : Option Bytes) (calls : List RecordCall)
    (happends : (calls.foldl attempt (new file)).Appends) :
    (∀ now e, ¬ (calls.foldl attempt (new file)).Withstands now e) ∧
      ∀ lines, Chained (calls.foldl attempt (new file)) lines →
        ∀ lost : List RecordCall, lost ≠ [] → lost.length < 2 ^ 64 →
          (∀ c ∈ lost, c.wrote = false) → ∀ now e,
            ∃ l, (calls.foldl attempt (new file)).recordRun (lost ++ [⟨now, true, e⟩]) = .ok l ∧
              l.verify = false ∧ ∀ c : RecordCall, ∃ err, l.record c.now c.wrote c.event =
                .error err := by
  constructor
  · intro now e hwithstands
    obtain ⟨err, herr⟩ := hwithstands.throws
    rw [record_lost happends] at herr
    cases herr
  · intro lines hchained lost hne hlength hlost now e
    obtain ⟨l₁, hrun, happends₁, hfile, hseq⟩ := recordRun_lost happends hlost
    have hrecord := record_eq now e happends₁.sound happends₁.verify
    have hgap : l₁.lastSeq + 1 ≠ (calls.foldl attempt (new file)).lastSeq + 1 := by
      rw [hseq, ne_eq, UInt64.add_left_inj, UInt64.add_eq_left]
      intro hzero
      have hnat := congrArg UInt64.toNat hzero
      rw [UInt64.toNat_ofNat', Nat.mod_eq_of_lt hlength] at hnat
      exact hne (List.eq_nil_of_length_eq_zero hnat)
    have hbroken := verify_of_gap (by rw [hfile]; exact hchained.content) hchained.newline
      hchained.checked hgap hrecord
    refine ⟨_, ?_, hbroken, fun c => ?_⟩
    · rw [recordRun, List.foldlM_append, ← recordRun, hrun]
      show (l₁.record now true e >>= pure) = _
      rw [hrecord]
      rfl
    · exact record_throws hbroken c

/-- On a fresh log: a login whose line is lost, and a logout that is written. -/
theorem lost_append_breaks_log_login :
    ¬ (new none).Withstands ⟨2026, 1, 1, 0, 0, 0⟩
        { actor := ascii "alice", action := ascii "LOGIN_OK" } ∧
      ∃ l, (new none).recordRun
        [ ⟨⟨2026, 1, 1, 0, 0, 0⟩, false, { actor := ascii "alice", action := ascii "LOGIN_OK" }⟩,
          ⟨⟨2026, 1, 1, 0, 1, 0⟩, true, { actor := ascii "alice", action := ascii "LOGOUT" }⟩ ] =
            .ok l ∧ l.verify = false := by
  have h := lost_append_breaks_log none [] ⟨chained_new.sound, chained_new.verify⟩
  refine ⟨h.1 _ _, ?_⟩
  obtain ⟨l, hrun, hverify, -⟩ := h.2 [] chained_new
    [⟨⟨2026, 1, 1, 0, 0, 0⟩, false, { actor := ascii "alice", action := ascii "LOGIN_OK" }⟩]
    (by simp) (by decide) (by simp) _ _
  exact ⟨l, hrun, hverify⟩

set_option maxRecDepth 100000 in
/-- The first line on a fresh log is lost: the call does not throw, and the log that the second call
writes does not verify. -/
theorem not_withstands_first :
    ¬ ((new none).Withstands ⟨2026, 1, 1, 0, 0, 0⟩ { actor := ascii "alice" }) ∧
      ((new none).recordRun
        [ ⟨⟨2026, 1, 1, 0, 0, 0⟩, false, { actor := ascii "alice" }⟩,
          ⟨⟨2026, 1, 1, 0, 1, 0⟩, true, { actor := ascii "alice" }⟩ ]).map
            HashChainFileAuditLogger.verify = .ok false := by
  refine ⟨fun hwithstands => ?_, by decide +kernel⟩
  obtain ⟨err, herr⟩ := hwithstands.throws
  rw [record_lost ⟨chained_new.sound, chained_new.verify⟩] at herr
  cases herr

end SecureFileTransfer
