import SecureFileTransfer.CanonicalEncoding
import SecureFileTransfer.Lib.HashChain

/-!
# TamperEvidence — what a verified log commits to

`verify` on arbitrary bytes: it accepts exactly the files whose parsed records form a hash chain,
and the canonical form that is hashed determines every field of the record.
-/

namespace SecureFileTransfer

open StdString HashChain

/-! ## What `verify` accepts -/

/-- The record `verify` reads from a line. -/
def parsedRecord (line : Bytes) : AuditEvent :=
  { parsedEvent (getField line (ascii "prevHash")) (seqOf (getField line (ascii "seq"))) line with
    msgHash := getField line (ascii "msgHash") }

/-- The records of a file: one for each line that is not empty. -/
def parsedRecords (content : Bytes) : List AuditEvent :=
  ((getlines content).filter fun line => !line.isEmpty).map parsedRecord

/-- The log as a hash chain: the canonical form is what is hashed. -/
def auditFormat : Format AuditEvent Bytes Bytes where
  message := canonical
  prev := AuditEvent.prevHash
  digest := AuditEvent.msgHash

theorem auditFormat_covers : auditFormat.Covers where
  link := by
    intro e e' h
    rw [canonical_inj h]
    rfl
  record := by
    intro e e' h hdigest
    rw [canonical_inj h, ← show e.msgHash = e'.msgHash from hdigest]

/-- The line is the next link of the chain, and the chain goes on behind it. -/
structure Accepts (c : Chain) (line : Bytes) (c' : Chain) : Prop where
  seq : (parsedRecord line).seq = c.expectedSeq
  prev : (parsedRecord line).prevHash = c.prev
  hash : RealSha256.hex (canonical (parsedRecord line)) = (parsedRecord line).msgHash
  next : c' = { prev := (parsedRecord line).msgHash, expectedSeq := c.expectedSeq + 1 }

/-- A round of the loop on a line that is not empty goes on exactly behind a link of the chain. -/
theorem checkLine_eq_some_iff {c c' : Chain} {line : Bytes} (hline : line.isEmpty = false) :
    checkLine c line = some c' ↔ Accepts c line c' := by
  rw [checkLine, if_neg (by rw [hline]; decide)]
  dsimp only
  constructor
  · intro h
    -- each of the three checks would have ended the loop
    split_ifs at h with hseq hprev hhash
    have hprev' : getField line (ascii "prevHash") = c.prev := not_not.1 hprev
    refine ⟨not_not.1 hseq, hprev', ?_, (Option.some.inj h).symm⟩
    rw [← hprev'] at hhash
    exact not_not.1 hhash
  · rintro ⟨hseq, hprev, hhash, rfl⟩
    have hseq' : seqOf (getField line (ascii "seq")) = c.expectedSeq := hseq
    have hprev' : getField line (ascii "prevHash") = c.prev := hprev
    have hhash' : RealSha256.hex (canonical (parsedEvent (getField line (ascii "prevHash"))
        (seqOf (getField line (ascii "seq"))) line)) = getField line (ascii "msgHash") := hhash
    rw [if_neg (not_not.2 hseq'), if_neg (not_not.2 hprev'), if_neg (not_not.2 (by
      rw [← hprev']
      exact hhash'))]
    rfl

/-- Only what is read from a line decides on it. -/
theorem checkLine_congr {c : Chain} {line line' : Bytes} (hline : line.isEmpty = false)
    (hline' : line'.isEmpty = false) (h : parsedRecord line = parsedRecord line') :
    checkLine c line = checkLine c line' := by
  refine Option.ext fun c' => ?_
  rw [checkLine_eq_some_iff hline, checkLine_eq_some_iff hline']
  constructor
  · rintro ⟨hseq, hprev, hhash, hnext⟩
    rw [h] at hseq hprev hhash hnext
    exact ⟨hseq, hprev, hhash, hnext⟩
  · rintro ⟨hseq, hprev, hhash, hnext⟩
    rw [← h] at hseq hprev hhash hnext
    exact ⟨hseq, hprev, hhash, hnext⟩

/-- The records of some lines: one for each line that is not empty. -/
def lineRecords (lines : List Bytes) : List AuditEvent :=
  (lines.filter fun line => !line.isEmpty).map parsedRecord

theorem lineRecords_append (lines lines' : List Bytes) :
    lineRecords (lines ++ lines') = lineRecords lines ++ lineRecords lines' := by
  simp [lineRecords]

theorem lineRecords_singleton {line : Bytes} (hline : line.isEmpty = false) :
    lineRecords [line] = [parsedRecord line] := by
  simp [lineRecords, hline]

/-- What the loop of `verify` has established when it goes on. -/
structure Checked (c : Chain) (lines : List Bytes) (c' : Chain) : Prop where
  linked : Linked auditFormat RealSha256.hex c.prev (lineRecords lines)
  prev : c'.prev = lastDigest auditFormat c.prev (lineRecords lines)
  expectedSeq : c'.expectedSeq = c.expectedSeq + UInt64.ofNat (lineRecords lines).length

theorem checked_of_checkLines {lines : List Bytes} {c c' : Chain}
    (h : lines.foldlM checkLine c = some c') : Checked c lines c' := by
  -- induction on the lines, with the state that the loop carries
  induction lines generalizing c with
  | nil =>
      obtain rfl : c = c' := Option.some.inj h
      exact ⟨trivial, rfl, (UInt64.add_zero _).symm⟩
  | cons line lines ih =>
      rw [List.foldlM_cons] at h
      cases hcheck : checkLine c line with
      | none =>
          rw [hcheck] at h
          cases h
      | some c₁ =>
          rw [hcheck] at h
          obtain ⟨hlinked, hprev, hseq⟩ := ih h
          cases hline : line.isEmpty with
          | true =>
              -- an empty line leaves the loop's state as it is
              have hskip : lineRecords (line :: lines) = lineRecords lines := by
                simp [lineRecords, hline]
              rw [checkLine, if_pos hline] at hcheck
              obtain rfl : c = c₁ := Option.some.inj hcheck
              exact ⟨hskip ▸ hlinked, hskip ▸ hprev, hskip ▸ hseq⟩
          | false =>
              have htake : lineRecords (line :: lines) = parsedRecord line :: lineRecords lines := by
                simp [lineRecords, hline]
              obtain ⟨-, hstored, hhash, rfl⟩ := (checkLine_eq_some_iff hline).1 hcheck
              refine ⟨?_, ?_, ?_⟩
              · rw [htake]
                exact ⟨hstored, hhash, hlinked⟩
              · rw [htake, lastDigest_cons]
                exact hprev
              · rw [htake, List.length_cons, Nat.add_comm, UInt64.ofNat_add, ← UInt64.add_assoc]
                exact hseq

/-- A log that `verify` accepts is a hash chain. -/
theorem linked_of_checkLines {lines : List Bytes} {c : Chain}
    (h : (lines.foldlM checkLine c).isSome = true) :
    Linked auditFormat RealSha256.hex c.prev (lineRecords lines) := by
  obtain ⟨c', hc'⟩ := Option.isSome_iff_exists.1 h
  exact (checked_of_checkLines hc').linked

theorem linked_of_verifyFile {content : Bytes} (h : verifyFile (some content) = true) :
    Linked auditFormat RealSha256.hex (ascii "GENESIS") (parsedRecords content) :=
  linked_of_checkLines h

/-- A hash is not the start of the chain. -/
theorem hex_ne_genesis (m : Bytes) : RealSha256.hex m ≠ ascii "GENESIS" := by
  intro h
  -- `G` is no hexadecimal digit
  have hmem : (71 : UInt8) ∈ RealSha256.hex m := by
    rw [h]
    decide
  exact absurd (RealSha256.isHexDigit_of_mem_hex hmem) (by decide)

theorem hex_ne_nil (m : Bytes) : RealSha256.hex m ≠ [] := by
  intro h
  have hlength := congrArg List.length h
  rw [RealSha256.hex, length_hexBytes, (RealSha256.hashBytes m).2] at hlength
  cases hlength

/-- The head of a chain with records is a hash. -/
theorem exists_hex_of_linked {g : Bytes} {rs : List AuditEvent} (hne : rs ≠ [])
    (h : Linked auditFormat RealSha256.hex g rs) :
    ∃ m, lastDigest auditFormat g rs = RealSha256.hex m := by
  obtain ⟨init, r, rfl⟩ := List.eq_nil_or_concat' rs |>.resolve_left hne
  obtain ⟨-, -, hhash⟩ := linked_concat.1 h
  exact ⟨canonical r, by rw [lastDigest_concat]; exact hhash.symm⟩

theorem lastDigest_ne_nil {rs : List AuditEvent}
    (h : Linked auditFormat RealSha256.hex (ascii "GENESIS") rs) :
    lastDigest auditFormat (ascii "GENESIS") rs ≠ [] := by
  by_cases hne : rs = []
  · rw [hne, lastDigest_nil]
    decide
  · obtain ⟨m, hm⟩ := exists_hex_of_linked hne h
    rw [hm]
    exact hex_ne_nil m

/-! ## Tamper evidence -/

/-- The `msgHash` of the last line that is not empty. -/
def lastMsgHash (content : Bytes) : Option Bytes :=
  (parsedRecords content).getLast?.map AuditEvent.msgHash

/-- SHA-256 tells apart the canonical forms that `verify` hashes for the two files. -/
def NoAuditCollision (content content' : Bytes) : Prop :=
  CollisionFree auditFormat RealSha256.hex (parsedRecords content ++ parsedRecords content')

/-- Whatever bytes the two files hold, if `verify` accepts one of them and they end with the same
hash, it accepts the other only if it reads the same records from both. -/
theorem verify_commits_to_records (content content' : Bytes)
    (hcol : NoAuditCollision content content')
    (hlast : lastMsgHash content = lastMsgHash content')
    (hverify : verifyFile (some content) = true) :
    (verifyFile (some content') = true → parsedRecords content = parsedRecords content') ∧
      (parsedRecords content ≠ parsedRecords content' → verifyFile (some content') = false) := by
  -- the two chains end with one digest, or are both empty
  have hdigest : lastDigest auditFormat (ascii "GENESIS") (parsedRecords content) =
      lastDigest auditFormat (ascii "GENESIS") (parsedRecords content') :=
    congrArg (·.getD (ascii "GENESIS")) hlast
  have hsame : verifyFile (some content') = true →
      parsedRecords content = parsedRecords content' := by
    intro hverify'
    exact (linked_of_verifyFile hverify).eq_of_lastDigest auditFormat_covers hex_ne_genesis hcol
      (linked_of_verifyFile hverify') hdigest
  refine ⟨hsame, fun hne => ?_⟩
  cases hverify' : verifyFile (some content') with
  | false => rfl
  | true => exact absurd (hsame hverify') hne

/-- A log of one login, the same log between blank lines, and the same log with its actor replaced. -/
def loginEvent : AuditEvent :=
  (HashChainFileAuditLogger.new none).completed ⟨2026, 1, 1, 0, 0, 0⟩
    { actor := ascii "alice", action := ascii "LOGIN_OK" }

def loginLog : Bytes := auditLine loginEvent ++ [10]
def spacedLog : Bytes := [10] ++ loginLog ++ [10]
def forgedLog : Bytes := auditLine { loginEvent with actor := ascii "mallory" } ++ [10]

set_option maxRecDepth 100000 in
theorem verify_commits_to_records_login :
    parsedRecords loginLog = parsedRecords spacedLog ∧ verifyFile (some forgedLog) = false := by
  have hverify : verifyFile (some loginLog) = true := by
    decide +kernel
  constructor
  · refine (verify_commits_to_records _ _ ?_ (by decide +kernel) hverify).1 (by decide +kernel)
    unfold NoAuditCollision CollisionFree
    decide +kernel
  · refine (verify_commits_to_records _ _ ?_ (by decide +kernel) hverify).2 (by decide +kernel)
    unfold NoAuditCollision CollisionFree
    decide +kernel

end SecureFileTransfer
