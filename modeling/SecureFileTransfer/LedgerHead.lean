import SecureFileTransfer.AuditHead
import SecureFileTransfer.AuditLedger

/-!
# LedgerHead — the head of the log commits to the tables

The hash that a logger holds in memory is that of the last record of its file, through any number of
restarts.  As the records tell what is in the tables, two servers whose loggers hold the same hash
have the same names, the same inactive accounts and the same files.
-/

namespace SecureFileTransfer

open StdString HashChain HashChainFileAuditLogger

/-- A record keeps what an event tells of the tables. -/
structure SameNews (e r : AuditEvent) : Prop where
  actor : r.actor = e.actor
  action : r.action = e.action
  fileId : r.fileId = e.fileId

/-- The events were passed to loggers of one file that did not exist at first, and none of the calls
threw; `rs` are the records they wrote, and the last logger is in the state `l`. -/
inductive LoggedBy : List AuditEvent → HashChainFileAuditLogger → List AuditEvent → Prop
  | fresh : LoggedBy [] (HashChainFileAuditLogger.new none) []
  | recorded {es l rs now e l'} (log : LoggedBy es l rs) (run : l.record now true e = .ok l') :
      LoggedBy (es ++ [e]) l' (rs ++ [l.completed now e])
  /-- The process is started again. -/
  | restarted {es l rs} (log : LoggedBy es l rs) :
      LoggedBy es (HashChainFileAuditLogger.new l.file) rs

namespace LoggedBy

variable {es rs : List AuditEvent} {l : HashChainFileAuditLogger}

theorem hashed (h : LoggedBy es l rs) : ∀ r ∈ rs, ∃ m, r.msgHash = RealSha256.hex m := by
  induction h with
  | fresh =>
      intro r hr
      cases hr
  | @recorded es l rs now e l' _ _ ih =>
      intro r hr
      rcases List.mem_append.1 hr with hr | hr
      · exact ih r hr
      · rw [List.mem_singleton.1 hr]
        exact ⟨_, rfl⟩
  | restarted _ ih => exact ih

theorem file (h : LoggedBy es l rs) :
    l.file.getD [] = (rs.map auditLine).flatMap (· ++ [10]) := by
  induction h with
  | fresh => rfl
  | recorded _ run ih =>
      obtain ⟨-, -, rfl⟩ := record_ok run
      show _ ++ _ = _
      rw [ih]
      simp
  | @restarted es l rs _ ih =>
      have hfile : (HashChainFileAuditLogger.new l.file).file = l.file := by
        rw [new_eq]
        split
        · rfl
        · split <;> rfl
      rw [hfile]
      exact ih

theorem news (h : LoggedBy es l rs) : List.Forall₂ SameNews es rs := by
  induction h with
  | fresh => exact .nil
  | recorded _ _ ih => exact List.rel_append ih (.cons ⟨rfl, rfl, rfl⟩ .nil)
  | restarted _ ih => exact ih

/-- The last hash in memory, unless a restart found the file damaged. -/
theorem head (h : LoggedBy es l rs) : l.lastHash = ascii "CORRUPTED" ∨
    l.lastHash = lastDigest auditFormat (ascii "GENESIS") rs := by
  induction h with
  | fresh => exact .inr rfl
  | recorded _ run _ =>
      obtain ⟨-, -, rfl⟩ := record_ok run
      refine .inr ?_
      rw [lastDigest_concat]
      rfl
  | @restarted es l rs log _ =>
      have hlines : getlines (l.file.getD []) = rs.map auditLine := by
        rw [log.file]
        refine getlines_flatMap fun line hline => ?_
        obtain ⟨r, hr, rfl⟩ := List.mem_map.1 hline
        obtain ⟨m, hm⟩ := log.hashed r hr
        exact newline_not_mem_auditLine (by rw [hm]; exact plain_hex m)
      rw [new_eq, hlines]
      rcases List.eq_nil_or_concat' rs with rfl | ⟨init, r, rfl⟩
      · exact .inr rfl
      rw [List.map_append, List.map_singleton, List.getLast?_concat, lastDigest_concat]
      cases hverify : verifyFile l.file with
      | false => exact .inl rfl
      | true =>
          -- the constructor reads the hash of the last line as it was written
          obtain ⟨m, hm⟩ := log.hashed r (by simp)
          have hplain : Plain r.msgHash := by
            rw [hm]
            exact plain_hex m
          have hfield : getField (auditLine r) (ascii "msgHash") = RealSha256.hex m := by
            rw [← hm]
            exact getField_auditLine hplain (by decide) (by decide) hplain rfl
          have hnaive := getFieldNaive_of_hex hfield
          refine .inr ?_
          show (if (getFieldNaive (auditLine r) (ascii "msgHash")).isEmpty then ascii "GENESIS"
            else getFieldNaive (auditLine r) (ascii "msgHash")) = r.msgHash
          rw [hnaive, if_neg (by simpa using hex_ne_nil m), hm]

theorem linked (h : LoggedBy es l rs) : Linked auditFormat RealSha256.hex (ascii "GENESIS") rs := by
  induction h with
  | fresh => trivial
  | recorded log run ih =>
      obtain ⟨hsound, -, -⟩ := record_ok run
      exact linked_concat.2 ⟨ih, (log.head.resolve_left hsound :), rfl⟩
  | restarted _ ih => exact ih

end LoggedBy

/-- The records of a log, replayed, make the view that its events make. -/
theorem replay_of_news {es rs : List AuditEvent} (h : List.Forall₂ SameNews es rs) :
    auditLedger.replay AuditView.empty es = auditLedger.replay AuditView.empty rs := by
  refine Journal.replay_congr (h.imp fun e r hnews v => ?_) _
  exact (AuditView.enter_congr hnews.action hnews.actor hnews.fileId v).symm

/-- The entry of the first administrator, and the logger that wrote it to a fresh file. -/
def rootEntry : AuditEvent := auditEntry .REGISTER_OK (ascii "root") []

def rootRecord : AuditEvent :=
  (HashChainFileAuditLogger.new none).completed ⟨2026, 1, 1, 0, 0, 0⟩ rootEntry

def rootLogger : HashChainFileAuditLogger :=
  ((HashChainFileAuditLogger.new none).record ⟨2026, 1, 1, 0, 0, 0⟩ true rootEntry).toOption.getD
    (HashChainFileAuditLogger.new none)

theorem loggedBy_rootLogger : LoggedBy [rootEntry] rootLogger [rootRecord] :=
  .recorded .fresh (by decide +kernel)

end SecureFileTransfer
