import SecureFileTransfer.AuditFields

/-!
# AuditReadback — what `all` returns of the events that were recorded

The records a run of the logger writes, as a list beside the run, and the fields `all` finds in
their lines.  A field comes back as it was recorded exactly when escaping leaves it alone.
-/

namespace SecureFileTransfer

open StdString HashChain

namespace HashChainFileAuditLogger

/-! ## The records of a run -/

/-- The events that successive calls write, completed with the state each call finds. -/
def recorded : HashChainFileAuditLogger → List (Tm × AuditEvent) → List AuditEvent
  | _, [] => []
  | l, te :: es =>
      let e := l.completed te.1 te.2
      e :: recorded { l with lastHash := e.msgHash, lastSeq := e.seq } es

@[simp] theorem length_recorded (l : HashChainFileAuditLogger) (es : List (Tm × AuditEvent)) :
    (recorded l es).length = es.length := by
  induction es generalizing l with
  | nil => rfl
  | cons te es ih => rw [recorded, List.length_cons, List.length_cons, ih]

/-- The file as it is does not matter to the events that are written next. -/
theorem recorded_congr {l l' : HashChainFileAuditLogger} (hhash : l.lastHash = l'.lastHash)
    (hseq : l.lastSeq = l'.lastSeq) (es : List (Tm × AuditEvent)) :
    recorded l es = recorded l' es := by
  induction es generalizing l l' with
  | nil => rfl
  | cons te es ih =>
      have hcompleted : l.completed te.1 te.2 = l'.completed te.1 te.2 := by
        rw [completed, completed, hhash, hseq]
      rw [recorded, recorded, hcompleted]
      exact congrArg _ (ih rfl rfl)

/-- A call that does not throw found its state sound. -/
theorem record_ok {l l' : HashChainFileAuditLogger} {now : Tm} {wrote : Bool} {e : AuditEvent}
    (h : l.record now wrote e = .ok l') :
    l.lastHash ≠ ascii "CORRUPTED" ∧ l.verify = true ∧ l' =
      { file := if wrote then some (l.file.getD [] ++ (auditLine (l.completed now e) ++ [10]))
          else l.file
        lastHash := (l.completed now e).msgHash
        lastSeq := (l.completed now e).seq } := by
  unfold HashChainFileAuditLogger.record at h
  by_cases hcorrupt : l.lastHash = ascii "CORRUPTED"
  · rw [if_pos hcorrupt] at h
    cases h
  · rw [if_neg hcorrupt] at h
    cases hverify : l.verify with
    | false =>
        rw [if_pos hverify] at h
        cases h
    | true =>
        rw [if_neg (by rw [hverify]; decide)] at h
        exact ⟨hcorrupt, rfl, (Except.ok.inj h).symm⟩

/-- What a run of calls has done to the file and to the state in memory. -/
structure Wrote (l l' : HashChainFileAuditLogger) (ws : List AuditEvent) : Prop where
  file : l'.file.getD [] = l.file.getD [] ++ (ws.map auditLine).flatMap (· ++ [10])
  lastHash : l'.lastHash = lastDigest auditFormat l.lastHash ws
  lastSeq : l'.lastSeq = l.lastSeq + UInt64.ofNat ws.length

theorem wrote_of_recordAll {l l' : HashChainFileAuditLogger} {es : List (Tm × AuditEvent)}
    (h : l.recordAll es = .ok l') : Wrote l l' (recorded l es) := by
  induction es generalizing l with
  | nil =>
      obtain rfl : l = l' := Except.ok.inj h
      exact ⟨by simp [recorded], rfl, by simp [recorded]⟩
  | cons te es ih =>
      rw [recordAll, List.foldlM_cons] at h
      cases hrecord : l.record te.1 true te.2 with
      | error err =>
          rw [hrecord] at h
          cases h
      | ok l₁ =>
          rw [hrecord] at h
          obtain ⟨-, -, rfl⟩ := record_ok hrecord
          have hrest := ih h
          have hnext : recorded l (te :: es) = l.completed te.1 te.2 :: recorded
              { file := some (l.file.getD [] ++ (auditLine (l.completed te.1 te.2) ++ [10]))
                lastHash := (l.completed te.1 te.2).msgHash
                lastSeq := (l.completed te.1 te.2).seq } es := by
            rw [recorded]
            exact congrArg (List.cons _) (recorded_congr (by rfl) (by rfl) es)
          rw [hnext]
          refine ⟨?_, ?_, ?_⟩
          · rw [hrest.file]
            simp
          · rw [hrest.lastHash, lastDigest_cons]
            rfl
          · rw [hrest.lastSeq, List.length_cons]
            simp only [completed]
            rw [UInt64.ofNat_add, UInt64.add_assoc]
            exact congrArg (l.lastSeq + ·) (UInt64.add_comm _ _)

/-- The records of a run are a hash chain. -/
theorem linked_recorded (l : HashChainFileAuditLogger) (es : List (Tm × AuditEvent)) :
    Linked auditFormat RealSha256.hex l.lastHash (recorded l es) := by
  induction es generalizing l with
  | nil => trivial
  | cons te es ih =>
      exact ⟨rfl, rfl, ih { l with
        lastHash := (l.completed te.1 te.2).msgHash
        lastSeq := (l.completed te.1 te.2).seq }⟩

/-- A logger on an empty file stands at the start of the chain. -/
theorem new_of_fresh {file : Option Bytes} (hfresh : file.getD [] = []) :
    new file = { file := file, lastHash := ascii "GENESIS", lastSeq := 0 } := by
  cases file with
  | none => rfl
  | some content =>
      obtain rfl : content = [] := hfresh
      rfl

/-- The record of the `i`-th call: the event of the call, completed by some state of the logger. -/
theorem recorded_getElem {l : HashChainFileAuditLogger} {es : List (Tm × AuditEvent)} {i : Nat}
    {te : Tm × AuditEvent} {w : AuditEvent} (hlast : Plain l.lastHash) (hi : es[i]? = some te)
    (hw : (recorded l es)[i]? = some w) :
    w.seq = l.lastSeq + UInt64.ofNat (i + 1) ∧
      ∃ k : HashChainFileAuditLogger, Plain k.lastHash ∧ w = k.completed te.1 te.2 := by
  induction es generalizing l i with
  | nil => cases hi
  | cons te' es ih =>
      cases i with
      | zero =>
          obtain rfl : te' = te := Option.some.inj hi
          obtain rfl : l.completed te'.1 te'.2 = w := Option.some.inj hw
          exact ⟨rfl, l, hlast, rfl⟩
      | succ i =>
          rw [recorded, List.getElem?_cons_succ] at hw
          rw [List.getElem?_cons_succ] at hi
          obtain ⟨hseq, hk⟩ := ih (plain_hex _) hi hw
          refine ⟨?_, hk⟩
          rw [hseq]
          simp only [completed]
          rw [UInt64.ofNat_add (i + 1), UInt64.add_assoc]
          exact congrArg (l.lastSeq + ·) (UInt64.add_comm _ _)

end HashChainFileAuditLogger

/-! ## A recorded field, read back -/

/-- Escaping makes a field longer unless it leaves the field alone. -/
theorem plain_of_length_jsonEscape {s : Bytes} (h : (jsonEscape s).length ≤ s.length) : Plain s := by
  have hone : ∀ c : UInt8, 1 ≤ (escapeByte c).length ∧
      (needsEscape c = true → 2 ≤ (escapeByte c).length) := forall_byte (by decide +kernel)
  have hge : ∀ s : Bytes, s.length ≤ (jsonEscape s).length := by
    intro s
    induction s with
    | nil => exact Nat.le_refl _
    | cons c s ih =>
        rw [jsonEscape, List.flatMap_cons, List.length_append, List.length_cons, Nat.add_comm]
        exact Nat.add_le_add (hone c).1 ih
  induction s with
  | nil => exact fun c hc => absurd hc (List.not_mem_nil)
  | cons c s ih =>
      rw [jsonEscape, List.flatMap_cons, List.length_append, List.length_cons] at h
      have hrest := hge s
      rw [jsonEscape] at hrest
      intro d hd
      rcases List.mem_cons.1 hd with rfl | hd
      · cases hneeds : needsEscape d with
        | false => rfl
        | true =>
            have htwo := (hone d).2 hneeds
            omega
      · have hhead := (hone c).1
        exact ih (by rw [jsonEscape]; omega) d hd

/-- A field comes back as it was recorded exactly when escaping leaves it alone. -/
theorem getField_auditLine_eq_iff {e : AuditEvent} (hmsg : Plain e.msgHash) {key v : Bytes}
    (hkey : IsKey key) (hseq : key ≠ ascii "seq")
    (hlookup : (lineMembers e).lookup key = some (jsonEscape v)) :
    getField (auditLine e) key = v ↔ Plain v := by
  constructor
  · intro hread
    obtain ⟨more, hmore⟩ := getField_auditLine_escaped hmsg hkey hseq hlookup
    have hlength := congrArg List.length (hmore.symm.trans hread)
    rw [List.length_append] at hlength
    exact plain_of_length_jsonEscape (by omega)
  · intro hv
    rw [jsonEscape_of_plain hv] at hlookup
    exact getField_auditLine hmsg hkey hseq hv hlookup

/-! ## The log as a whole -/

/-- The `i`-th event `r` that `all` returns, against the event `e` of the `i`-th call and the record
`w` that the call wrote. -/
structure ReadBack (i : Nat) (e w r : AuditEvent) : Prop where
  seq : r.seq = UInt64.ofNat (i + 1)
  ts : e.ts ≠ [] → r.ts = e.ts
  actor : r.actor = e.actor
  action : r.action = e.action
  fileId : r.fileId = e.fileId
  cipherHash : r.cipherHash = e.cipherHash
  prevHash : r.prevHash = w.prevHash
  msgHash : r.msgHash = RealSha256.hex (canonical w)

/-- The text fields of an event that `all` can return. -/
structure ReadablyRecorded (e : AuditEvent) : Prop where
  ts : Plain e.ts
  actor : Plain e.actor
  action : Plain e.action
  fileId : Plain e.fileId
  cipherHash : e.cipherHash = []

open HashChainFileAuditLogger

/-- One call: the sequence number and the two hashes always come back, the event itself exactly when
it is readable. -/
theorem readBack_completed_iff {k : HashChainFileAuditLogger} (hlast : Plain k.lastHash) (now : Tm)
    (e : AuditEvent) {i : Nat} (hseq : (k.completed now e).seq = UInt64.ofNat (i + 1)) :
    ReadBack i e (k.completed now e) (readEvent (auditLine (k.completed now e))) ↔ ReadablyRecorded e := by
  have hmsg : Plain (k.completed now e).msgHash := plain_hex _
  have hactor : getField (auditLine (k.completed now e)) (ascii "actor") = e.actor ↔ Plain e.actor :=
    getField_auditLine_eq_iff hmsg (by decide) (by decide) rfl
  have haction :
      getField (auditLine (k.completed now e)) (ascii "action") = e.action ↔ Plain e.action :=
    getField_auditLine_eq_iff hmsg (by decide) (by decide) rfl
  have hfile :
      getField (auditLine (k.completed now e)) (ascii "fileId") = e.fileId ↔ Plain e.fileId :=
    getField_auditLine_eq_iff hmsg (by decide) (by decide) rfl
  have hts : (e.ts ≠ [] → getField (auditLine (k.completed now e)) (ascii "ts") = e.ts) ↔
      Plain e.ts := by
    by_cases hgiven : e.ts = []
    · rw [hgiven]
      exact ⟨fun _ c hc => absurd hc List.not_mem_nil, fun _ h => absurd rfl h⟩
    · have hkept : (k.completed now e).ts = e.ts := by
        simp [completed, hgiven]
      have h : getField (auditLine (k.completed now e)) (ascii "ts") = e.ts ↔ Plain e.ts :=
        getField_auditLine_eq_iff hmsg (by decide) (by decide) (by rw [← hkept]; rfl)
      exact ⟨fun hread => h.1 (hread hgiven), fun hplain _ => h.2 hplain⟩
  constructor
  · intro hread
    exact ⟨hts.1 hread.ts, hactor.1 hread.actor, haction.1 hread.action, hfile.1 hread.fileId,
      hread.cipherHash.symm⟩
  · intro hreadable
    have hprev : getField (auditLine (k.completed now e)) (ascii "prevHash") = k.lastHash :=
      (getField_auditLine_eq_iff hmsg (by decide) (by decide) rfl).2 hlast
    have hhash : getField (auditLine (k.completed now e)) (ascii "msgHash") =
        RealSha256.hex (canonical (k.completed now e)) :=
      getField_auditLine hmsg (by decide) (by decide) hmsg rfl
    exact ⟨(seqOf_auditLine _).trans hseq, hts.2 hreadable.ts, hactor.2 hreadable.actor,
      haction.2 hreadable.action, hfile.2 hreadable.fileId, hreadable.cipherHash.symm, hprev, hhash⟩

theorem all_eq (l : HashChainFileAuditLogger) :
    l.all = (getlines (l.file.getD [])).map readEvent := by
  cases hfile : l.file <;> simp [HashChainFileAuditLogger.all, hfile, getlines]

/-- The run of calls `es` that wrote the records `ws`, against what `all` returns at its end. -/
structure ReadsBack (l : HashChainFileAuditLogger) (es : List (Tm × AuditEvent))
    (ws : List AuditEvent) : Prop where
  length : l.all.length = es.length
  events : ∀ i te w r, es[i]? = some te → ws[i]? = some w → l.all[i]? = some r →
    ReadBack i te.2 w r

/-- After any calls that a logger on a fresh file accepts, `all` returns their events exactly when
none of them has a `cipherHash` or a field that the writer escapes. -/
theorem readsBack_iff {file : Option Bytes} (hfresh : file.getD [] = [])
    {es : List (Tm × AuditEvent)} {l : HashChainFileAuditLogger}
    (hrun : (new file).recordAll es = .ok l) :
    ReadsBack l es (recorded (new file) es) ↔ ∀ te ∈ es, ReadablyRecorded te.2 := by
  have hnew := new_of_fresh hfresh
  have hwrote := wrote_of_recordAll hrun
  have hplain : Plain (new file).lastHash := by
    rw [hnew]
    show Plain (ascii "GENESIS")
    decide
  -- every record is one line of the file
  have hlines : ∀ line ∈ (recorded (new file) es).map auditLine, (10 : UInt8) ∉ line := by
    intro line hline
    obtain ⟨w, hw, rfl⟩ := List.mem_map.1 hline
    obtain ⟨i, hi⟩ := List.mem_iff_getElem?.1 hw
    have hlt : i < es.length := by
      rw [← length_recorded (new file) es]
      exact (List.getElem?_eq_some_iff.1 hi).1
    obtain ⟨-, k, -, rfl⟩ := recorded_getElem hplain (List.getElem?_eq_getElem hlt) hi
    exact newline_not_mem_auditLine (plain_hex _)
  have hall : l.all = (recorded (new file) es).map fun w => readEvent (auditLine w) := by
    rw [all_eq, hwrote.file, hnew, hfresh, List.nil_append, ← hnew, getlines_flatMap hlines,
      List.map_map]
    rfl
  have hevent : ∀ i te w, es[i]? = some te → (recorded (new file) es)[i]? = some w →
      (ReadBack i te.2 w (readEvent (auditLine w)) ↔ ReadablyRecorded te.2) := by
    intro i te w hi hw
    obtain ⟨hseq, k, hk, rfl⟩ := recorded_getElem hplain hi hw
    have hstart : (new file).lastSeq = 0 := by rw [hnew]
    rw [hstart, UInt64.zero_add] at hseq
    exact readBack_completed_iff hk te.1 te.2 hseq
  constructor
  · intro hread te hte
    obtain ⟨i, hi⟩ := List.mem_iff_getElem?.1 hte
    have hlt : i < (recorded (new file) es).length := by
      rw [length_recorded]
      exact (List.getElem?_eq_some_iff.1 hi).1
    have hw := List.getElem?_eq_getElem hlt
    refine (hevent i te _ hi hw).1 (hread.events i te _ _ hi hw ?_)
    rw [hall, List.getElem?_map, hw, Option.map_some]
  · intro hreadable
    refine ⟨by rw [hall, List.length_map, length_recorded], fun i te w r hi hw hr => ?_⟩
    rw [hall, List.getElem?_map, hw, Option.map_some] at hr
    rw [← Option.some.inj hr]
    exact (hevent i te w hi hw).2 (hreadable te (List.mem_of_getElem? hi))

/-- A login and an upload whose event names no ciphertext. -/
def readableCalls : List (Tm × AuditEvent) :=
  [ (⟨2026, 1, 1, 0, 0, 0⟩, { actor := ascii "alice", action := ascii "LOGIN_OK" }),
    (⟨2026, 1, 1, 0, 1, 0⟩,
      { actor := ascii "alice", action := ascii "UPLOAD", fileId := ascii "f1" }) ]

set_option maxRecDepth 100000 in
theorem readsBack_readableCalls :
    ∃ l, (new none).recordAll readableCalls = .ok l ∧
      ReadsBack l readableCalls (recorded (new none) readableCalls) := by
  obtain ⟨l, hrun, -⟩ := recordAll_verify readableCalls (by
    intro te hte
    simp only [readableCalls, List.mem_cons, List.not_mem_nil, or_false] at hte
    rcases hte with rfl | rfl <;> exact ⟨by decide, by decide, by decide, by decide, by decide⟩)
    readableCalls List.prefix_rfl
  refine ⟨l, hrun, (readsBack_iff rfl hrun).2 fun te hte => ?_⟩
  simp only [readableCalls, List.mem_cons, List.not_mem_nil, or_false] at hte
  rcases hte with rfl | rfl <;> exact ⟨by decide, by decide, by decide, by decide, rfl⟩

/-- An event that carries the hash of a ciphertext, and a failed login under a name with a quote. -/
def lossyCalls : List (Tm × AuditEvent) :=
  [ (⟨2026, 1, 1, 0, 0, 0⟩,
      { actor := ascii "alice", action := ascii "UPLOAD", cipherHash := ascii "ab12" }),
    (⟨2026, 1, 1, 0, 1, 0⟩, { actor := ascii "\"", action := ascii "LOGIN_FAIL" }) ]

set_option maxRecDepth 100000 in
/-- Both calls are accepted; the first event comes back without its hash, the second with the quote
escaped. -/
theorem not_readsBack_lossyCalls :
    ¬ ∀ l, (new none).recordAll lossyCalls = .ok l →
      ReadsBack l lossyCalls (recorded (new none) lossyCalls) := by
  intro hread
  have hback : ((new none).recordAll lossyCalls).map
      (fun l => l.all.map fun r => (r.cipherHash, r.actor)) =
        .ok [([], ascii "alice"), ([], ascii "\\\"")] := by
    decide +kernel
  cases hrun : (new none).recordAll lossyCalls with
  | error err =>
      rw [hrun] at hback
      cases hback
  | ok l =>
      rw [hrun] at hback
      have hall : l.all.map (fun r => (r.cipherHash, r.actor)) = _ := Except.ok.inj hback
      cases hl : l.all with
      | nil =>
          rw [hl] at hall
          cases hall
      | cons r rs =>
          rw [hl] at hall
          have hcipher : r.cipherHash = [] :=
            congrArg Prod.fst (List.cons.inj hall).1
          have hfirst := (hread l hrun).events 0 _ _ r rfl rfl (by rw [hl]; rfl)
          rw [hfirst.cipherHash] at hcipher
          exact absurd hcipher (by decide)

end SecureFileTransfer
