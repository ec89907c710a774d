import Mathlib.Data.Finset.Basic
import SecureFileTransfer.Accounts
import SecureFileTransfer.AuditReadback
import SecureFileTransfer.Lib.Journal
import SecureFileTransfer.ServerRuns

/-!
# AuditLedger — the tables, rebuilt from the audit log

The entries of the audit log tell who registered, which accounts are inactive and who uploaded which
file.  After every run of the server this is what the tables hold, as long as the logger does not
throw: each write of a table that the log tells of is entered before the call returns.
-/

namespace SecureFileTransfer

open Prog Service Handler Runs

/-! ## What the log tells -/

theorem AuditAction.text_injective : Function.Injective AuditAction.text := by
  intro action action'
  cases action <;> cases action' <;> decide

namespace AuditEvent

/-- The entry is one of the action. -/
def Is (e : AuditEvent) (action : AuditAction) : Prop := e.action = action.text

instance (e : AuditEvent) (action : AuditAction) : Decidable (e.Is action) :=
  inferInstanceAs (Decidable (e.action = action.text))

/-- An entry has one action. -/
theorem Is.not {e : AuditEvent} {action action' : AuditAction} (h : e.Is action)
    (hne : action ≠ action') : ¬ e.Is action' := fun h' =>
  hne (AuditAction.text_injective (h.symm.trans h'))

end AuditEvent

/-- The names in the order of their registration, the ids of the accounts that are not active, and
owner and id of the files in the order of their upload. -/
@[ext]
structure AuditView where
  usernames : List Text
  inactive : Finset Text
  files : List (Text × Text)
  deriving DecidableEq

namespace AuditView

def empty : AuditView := ⟨[], ∅, []⟩

/-- What an entry tells.  An account starts active, and the entry of its registration has no id. -/
def enter (v : AuditView) (e : AuditEvent) : AuditView :=
  if e.Is .REGISTER_OK then
    { v with usernames := v.usernames ++ [Text.bind e.actor] }
  else if e.Is .ACTIVATE then
    { v with inactive := v.inactive.erase (Text.bind e.fileId) }
  else if e.Is .DEACTIVATE then
    { v with inactive := insert (Text.bind e.fileId) v.inactive }
  else if e.Is .UPLOAD then
    { v with files := v.files ++ [(Text.bind e.actor, Text.bind e.fileId)] }
  else
    v

/-- Sequence number, time and hashes tell nothing of the tables. -/
theorem enter_congr {e e' : AuditEvent} (haction : e.action = e'.action) (hactor : e.actor = e'.actor)
    (hfile : e.fileId = e'.fileId) (v : AuditView) : v.enter e = v.enter e' := by
  have his : ∀ action, e.Is action ↔ e'.Is action := fun action => by
    unfold AuditEvent.Is
    rw [haction]
  simp only [enter, his, hactor, hfile]

end AuditView

/-- The entry `audit_->record` is handed. -/
def auditEntry (action : AuditAction) (actor fileId : Bytes) : AuditEvent :=
  { actor := actor, action := action.text, fileId := fileId }

/-- The actions that tell of no table. -/
theorem AuditView.enter_other {action : AuditAction} {actor fileId : Bytes} {v : AuditView}
    (h : action ∉ [AuditAction.REGISTER_OK, .ACTIVATE, .DEACTIVATE, .UPLOAD]) :
    v.enter (auditEntry action actor fileId) = v := by
  have hne : ∀ other ∈ [AuditAction.REGISTER_OK, .ACTIVATE, .DEACTIVATE, .UPLOAD],
      ¬ (auditEntry action actor fileId).Is other := fun other hother heq =>
    h (AuditAction.text_injective heq ▸ hother)
  rw [AuditView.enter, if_neg (hne .REGISTER_OK (by decide)), if_neg (hne .ACTIVATE (by decide)),
    if_neg (hne .DEACTIVATE (by decide)), if_neg (hne .UPLOAD (by decide))]

/-! ## What the tables hold -/

namespace SqliteUserRepository

variable {t t' : SqliteUserRepository}

def usernames (t : SqliteUserRepository) : List Text := t.rows.map UserRow.username

def inactiveIds (t : SqliteUserRepository) : Finset Text :=
  ((t.rows.filter fun r => r.status ≠ Text.bind (ascii "active")).map UserRow.id).toFinset

theorem mem_inactiveIds {id : Text} :
    id ∈ t.inactiveIds ↔ ∃ r ∈ t.rows, r.status ≠ Text.bind (ascii "active") ∧ r.id = id := by
  simp [inactiveIds, and_assoc]

section UpdateWhere

variable {id : Bytes} {f : UserRow → UserRow} {hid : ∀ r, (f r).id = r.id}
  {hname : ∀ r, (f r).username = r.username} {hmail : ∀ r, (f r).email = r.email}

theorem usernames_updateWhere : (t.updateWhere id f hid hname hmail).usernames = t.usernames := by
  simp only [usernames, updateWhere, List.map_map]
  refine List.map_congr_left fun r _ => ?_
  show (if r.id = Text.bind id then f r else r).username = r.username
  split
  · exact hname r
  · rfl

/-- Rows keep their place, so an id is inactive after the update by the status of its own row. -/
theorem mem_inactiveIds_updateWhere {x : Text} :
    x ∈ (t.updateWhere id f hid hname hmail).inactiveIds ↔
      ∃ r ∈ t.rows, (if r.id = Text.bind id then f r else r).status ≠ Text.bind (ascii "active") ∧
        r.id = x := by
  have hrow : ∀ r, (if r.id = Text.bind id then f r else r).id = r.id := by
    intro r
    split
    · exact hid r
    · rfl
  rw [mem_inactiveIds]
  constructor
  · rintro ⟨_, hmem, hstatus, hx⟩
    obtain ⟨r, hr, rfl⟩ := List.mem_map.1 hmem
    exact ⟨r, hr, hstatus, (hrow r).symm.trans hx⟩
  · rintro ⟨r, hr, hstatus, hx⟩
    exact ⟨_, List.mem_map.2 ⟨r, hr, rfl⟩, hstatus, (hrow r).trans hx⟩

end UpdateWhere

theorem inactiveIds_setLockout (t : SqliteUserRepository) (id : UserId) (fails lockout : Int) :
    (t.setLockout id fails lockout).inactiveIds = t.inactiveIds := by
  refine Finset.ext fun x => ?_
  rw [setLockout, mem_inactiveIds_updateWhere, mem_inactiveIds]
  refine exists_congr fun r => and_congr_right fun _ => and_congr_left fun _ => ?_
  split
  · exact Iff.rfl
  · exact Iff.rfl

section Status

variable {u : User}

theorem exists_row_of_findById (hu : t.findById u.id = .ok (some u)) :
    ∃ r ∈ t.rows, r.id = Text.bind u.id.value := by
  obtain ⟨r, hr, hrow, -⟩ := findByColumn_eq_some hu
  exact ⟨r, hr, hrow⟩

theorem inactiveIds_activate (t : SqliteUserRepository) (u : User) :
    (t.updateStatus u (ascii "active")).inactiveIds =
      t.inactiveIds.erase (Text.bind u.id.value) := by
  refine Finset.ext fun x => ?_
  rw [updateStatus, mem_inactiveIds_updateWhere, Finset.mem_erase, mem_inactiveIds]
  constructor
  · rintro ⟨r, hr, hstatus, rfl⟩
    by_cases hrow : r.id = Text.bind u.id.value
    · rw [if_pos hrow] at hstatus
      exact absurd rfl hstatus
    · rw [if_neg hrow] at hstatus
      exact ⟨hrow, r, hr, hstatus, rfl⟩
  · rintro ⟨hne, r, hr, hstatus, rfl⟩
    exact ⟨r, hr, by rwa [if_neg hne], rfl⟩

theorem inactiveIds_deactivate (hu : t.findById u.id = .ok (some u)) :
    (t.updateStatus u (ascii "inactive")).inactiveIds =
      insert (Text.bind u.id.value) t.inactiveIds := by
  have hstatus : Text.bind (ascii "inactive") ≠ Text.bind (ascii "active") := by decide
  refine Finset.ext fun x => ?_
  rw [updateStatus, mem_inactiveIds_updateWhere, Finset.mem_insert, mem_inactiveIds]
  constructor
  · rintro ⟨r, hr, hstatus', rfl⟩
    by_cases hrow : r.id = Text.bind u.id.value
    · exact .inl hrow
    · rw [if_neg hrow] at hstatus'
      exact .inr ⟨r, hr, hstatus', rfl⟩
  · rintro (rfl | ⟨r, hr, hstatus', rfl⟩)
    · obtain ⟨r, hr, hrow⟩ := exists_row_of_findById hu
      exact ⟨r, hr, by rwa [if_pos hrow], hrow⟩
    · refine ⟨r, hr, ?_, rfl⟩
      split
      · exact hstatus
      · exact hstatus'

end Status

theorem usernames_save {u : User} {encodedHash : Bytes} (h : save u encodedHash t = .ok t') :
    t'.usernames = t.usernames ++ [Text.bind u.username] := by
  rw [usernames, save_ok h, List.map_append]
  rfl

theorem inactiveIds_save {u : User} {encodedHash : Bytes} (h : save u encodedHash t = .ok t')
    (hactive : u.status = ascii "active") : t'.inactiveIds = t.inactiveIds := by
  refine Finset.ext fun x => ?_
  rw [mem_inactiveIds, mem_inactiveIds, save_ok h]
  constructor
  · rintro ⟨r, hr, hstatus, hx⟩
    rcases List.mem_append.1 hr with hr | hr
    · exact ⟨r, hr, hstatus, hx⟩
    · -- the new account is active
      obtain rfl := List.mem_singleton.1 hr
      exact absurd (congrArg Text.bind hactive) hstatus
  · rintro ⟨r, hr, hstatus, hx⟩
    exact ⟨r, List.mem_append_left _ hr, hstatus, hx⟩

end SqliteUserRepository

/-- The same view, of the tables. -/
def tablesView (users : SqliteUserRepository) (files : SqliteFileRepository) : AuditView where
  usernames := users.usernames
  inactive := users.inactiveIds
  files := files.rows.map fun r => (r.ownerId, r.id)

def World.auditView (w : World .sqlite) : AuditView := tablesView w.users w.files

/-- The audit log as a journal of the tables. -/
def auditLedger : Journal (World .sqlite) AuditEvent AuditView where
  log := World.audit
  view := World.auditView
  enter := AuditView.enter

/-! ## Rules for the collaborator calls -/

/-- The audit logger does not throw, and neither does the session store when it revokes sessions. -/
structure AuditEnv (env : Env) : Prop where
  record : ∀ action n, env.fault (.record action) n = none
  revoke : ∀ n, env.fault .invalidateAllForUser n = none

open Journal

section Rules

variable {env : Env} {w w₀ : World .sqlite} {α : Type} {c : Call}

theorem silent_of {w' : World .sqlite} (husers : w'.users = w.users) (hfiles : w'.files = w.files)
    (haudit : w'.audit = w.audit) : auditLedger.Silent w w' := by
  refine ⟨haudit, ?_⟩
  show tablesView w'.users w'.files = tablesView w.users w.files
  rw [husers, hfiles]

theorem silent_tick (w : World .sqlite) : auditLedger.Silent w w.tick := silent_of rfl rfl rfl

theorem silent_query {f : World .sqlite → Except Exn α} : Steps auditLedger.Silent (query env c f) := by
  intro w
  exact wp_query (Q := fun _ w' => auditLedger.Silent w w') (fun _ _ => silent_tick w) (silent_tick w)

theorem silent_modifyGet {f : World .sqlite → α × World .sqlite}
    (hf : ∀ w, auditLedger.Silent w (f w).2) : Steps auditLedger.Silent (modifyGet f : Service .sqlite α) :=
  hf

theorem silent_call : Steps auditLedger.Silent (call (b := .sqlite) env c) := by
  intro w
  exact wp_call (Q := fun _ w' => auditLedger.Silent w w') (fun _ _ => silent_tick w)
    fun _ => silent_tick w

/-- A write of another store. -/
theorem silent_write {f : World .sqlite → Except Exn (World .sqlite)}
    (hf : ∀ w w', f w = .ok w' → auditLedger.Silent w w') : Steps auditLedger.Silent (write env c f) := by
  intro w
  exact wp_write (Q := fun _ w' => auditLedger.Silent w w') (fun _ _ => silent_tick w)
    (fun _ _ => silent_tick w) fun w' h => (silent_tick w).trans (hf w.tick w' h)

/-- A write of the user directory that the log does not tell of. -/
theorem silent_writeUsers {f : SqliteUserRepository → Except Exn SqliteUserRepository}
    (hf : ∀ t t', f t = .ok t' → t'.usernames = t.usernames ∧ t'.inactiveIds = t.inactiveIds) :
    Steps auditLedger.Silent (writeUsers (b := .sqlite) env c f) := by
  refine silent_write fun w w' h => ?_
  cases hrun : f w.users with
  | error e =>
      rw [hrun] at h
      cases h
  | ok users =>
      rw [hrun] at h
      cases h
      obtain ⟨hnames, hinactive⟩ := hf _ _ hrun
      exact ⟨rfl, AuditView.ext hnames hinactive rfl⟩

/-- A query, then the rest with the answer in the state it leaves. -/
theorem wp_query_exact {β : Type} {f : World .sqlite → Except Exn α} {k : α → Service .sqlite β}
    {Q : Except Exn β → World .sqlite → Prop} (hf : f w.tick = f w)
    (herr : ∀ e, Q (.error e) w.tick) (hok : ∀ a, f w = .ok a → wp (k a) Q w.tick) :
    wp (query env c f >>= k) Q w := by
  rw [wp_bind]
  refine wp_query (fun e _ => herr e) ?_
  rw [hf]
  cases hans : f w with
  | error e => exact herr e
  | ok a => exact hok a hans

/-- A write of the user directory, then the rest in the state it leaves. -/
theorem wp_writeUsers_exact {β : Type} {f : SqliteUserRepository → Except Exn SqliteUserRepository}
    {k : Unit → Service .sqlite β} {Q : Except Exn β → World .sqlite → Prop}
    (herr : ∀ e, Q (.error e) w.tick)
    (hok : ∀ users, f w.users = .ok users → wp (k ()) Q { w.tick with users := users }) :
    wp (writeUsers (b := .sqlite) env c f >>= k) Q w := by
  rw [wp_bind]
  refine wp_write (fun e _ => herr e) (fun e _ => herr e) fun w' h => ?_
  cases hrun : f w.users with
  | error e =>
      rw [show w.tick.users = w.users from rfl, hrun] at h
      cases h
  | ok users =>
      rw [show w.tick.users = w.users from rfl, hrun] at h
      cases h
      exact hok users hrun

/-- An entry that tells of no table. -/
theorem faithful_record {action : AuditAction} {actor fileId : Bytes}
    (haction : action ∉ [AuditAction.REGISTER_OK, .ACTIVATE, .DEACTIVATE, .UPLOAD]) :
    Steps auditLedger.Faithful (record (b := .sqlite) env action actor fileId) := by
  intro w
  refine wp_write (Q := fun _ w' => auditLedger.Faithful w w')
    (fun _ _ => (silent_tick w).faithful) (fun _ h => by cases h) fun w' h => ?_
  cases h
  exact .of_idle rfl rfl (AuditView.enter_other haction)

/-- The entry that is due, then the rest. -/
theorem wp_record_due {action : AuditAction} {actor fileId : Bytes} {a : α} (henv : AuditEnv env)
    (hdue : auditLedger.Ahead (auditEntry action actor fileId) w₀ w) :
    wp (record env action actor fileId >>= fun _ => (pure a : Service .sqlite α))
      (fun _ w' => auditLedger.Faithful w₀ w') w := by
  rw [wp_bind]
  refine wp_write (fun e h => ?_) (fun _ h => by cases h) fun w' h => ?_
  · rw [henv.record] at h
    cases h
  · cases h
    exact hdue.settled rfl rfl

theorem faithful_record_failure {action : AuditAction} {actor fileId t : Bytes}
    (haction : action ∉ [AuditAction.REGISTER_OK, .ACTIVATE, .DEACTIVATE, .UPLOAD]) :
    Steps auditLedger.Faithful (record env action actor fileId >>= fun _ =>
      (pure (.failure t) : Service .sqlite (Result α))) :=
  faithful_bind (faithful_record haction) fun _ => faithful_pure _

end Rules

/-! ## AuthService -/

section Calls

variable {env : Env}

theorem faithful_registerUser (henv : AuditEnv env) (u email pw role : Bytes) :
    Steps auditLedger.Faithful (registerUser (b := .sqlite) env u email pw role) := by
  have hrefused : Steps auditLedger.Faithful (record (b := .sqlite) env .REGISTER_FAIL (ascii "system")
      >>= fun _ => (pure (.failure (ascii "Registration failed")) : Service .sqlite (Result UserId))) :=
    faithful_record_failure (by decide)
  have htaken : Steps auditLedger.Silent (nameOrMailTaken (b := .sqlite) env u email) :=
    silent_bind silent_query fun _ =>
      Steps.ite (silent_pure _) (silent_bind silent_query fun _ => silent_pure _)
  refine Steps.ite (faithful_pure _) ?_
  refine faithful_bind (faithful_of_silent htaken) fun _ => Steps.ite hrefused ?_
  refine faithful_bind (faithful_of_silent silent_query) fun encoded => ?_
  refine faithful_bind (faithful_of_silent (silent_modifyGet fun _ => silent_of rfl rfl rfl))
    fun id => ?_
  intro w
  show wp _ (fun _ w' => auditLedger.Faithful w w') w
  rw [wp_bind, wp_outcome]
  cases hnew : User.new id u email role (ascii "active") 0 0 with
  | error e => exact Faithful.refl w
  | ok nu =>
      obtain ⟨-, hname, -, -, hstatus⟩ := User.fields_of_new hnew
      rw [wpBind_ok, wp_bind, wp_tryCatch]
      refine wp_writeUsers_exact (fun e => ?_) fun users hsave => ?_
      · -- nothing was saved, and the refusal is entered
        exact (silent_tick w).faithful.trans (hrefused.wp w.tick)
      · rw [wp_pure, wpCatch_ok, wpBind_ok]
        have hactive := SqliteUserRepository.inactiveIds_save hsave hstatus
        have hnames := SqliteUserRepository.usernames_save hsave
        rw [hname] at hnames
        exact wp_record_due henv ⟨rfl, AuditView.ext hnames hactive rfl⟩

/-- The lockout columns are not in the log. -/
theorem silent_setLockout {c : Call} {f : SqliteUserRepository → Except Exn SqliteUserRepository}
    (hf : ∀ t t', f t = .ok t' → ∃ id fails lockout, t' = t.setLockout id fails lockout) :
    Steps auditLedger.Silent (writeUsers (b := .sqlite) env c f) := by
  refine silent_writeUsers fun t t' h => ?_
  obtain ⟨id, fails, lockout, rfl⟩ := hf t t' h
  exact ⟨SqliteUserRepository.usernames_updateWhere,
    SqliteUserRepository.inactiveIds_setLockout t id fails lockout⟩

theorem silent_recordLoginFailure (id : UserId) (now : Int) :
    Steps auditLedger.Silent (recordLoginFailure (b := .sqlite) env id now) :=
  silent_setLockout fun _ _ h =>
    have ⟨fails, lockout, h'⟩ := SqliteUserRepository.recordLoginFailure_ok h
    ⟨id, fails, lockout, h'⟩

theorem silent_resetLoginFailures (id : UserId) :
    Steps auditLedger.Silent (resetLoginFailures (b := .sqlite) env id) :=
  silent_setLockout fun _ _ h => ⟨id, 0, 0, (Except.ok.inj h).symm⟩

theorem silent_nowMs : Steps auditLedger.Silent (nowMs (b := .sqlite) env) :=
  silent_modifyGet fun _ => silent_of rfl rfl rfl

theorem silent_newId : Steps auditLedger.Silent (newId (b := .sqlite) env) :=
  silent_modifyGet fun _ => silent_of rfl rfl rfl

theorem faithful_login (u pw : Bytes) : Steps auditLedger.Faithful (login (b := .sqlite) env u pw) := by
  have hfailed : Steps auditLedger.Faithful (loginFailed (b := .sqlite) env u) :=
    faithful_record_failure (by decide)
  refine faithful_bind (faithful_of_silent silent_nowMs) fun now => ?_
  refine faithful_bind (faithful_of_silent silent_query) fun found => ?_
  cases found with
  | none => exact hfailed
  | some user =>
      refine Steps.ite hfailed ?_
      refine faithful_bind (faithful_of_silent silent_query) fun enc => ?_
      refine faithful_bind (faithful_of_silent silent_query) fun ok => Steps.ite ?_ ?_
      · exact faithful_bind (faithful_of_silent (silent_recordLoginFailure user.id now))
          fun _ => hfailed
      · refine faithful_bind (faithful_of_silent (silent_resetLoginFailures user.id)) fun _ => ?_
        have hcreate : Steps auditLedger.Silent (createForUser (b := .sqlite) env user.id now) :=
          (createForUser_frame user.id now).mono fun w w' ⟨_, _, _, h⟩ =>
            silent_of (by rw [h]) (by rw [h]) (by rw [h])
        refine faithful_bind (faithful_of_silent hcreate) fun _ => ?_
        exact faithful_bind (faithful_record (by decide)) fun _ => faithful_pure _

theorem faithful_logout (tok : SessionId) :
    Steps auditLedger.Faithful (logout (b := .sqlite) env tok) := by
  have hinvalidate : Steps auditLedger.Silent (invalidate (b := .sqlite) env tok) :=
    silent_bind silent_call fun _ => silent_modifyGet fun _ => silent_of rfl rfl rfl
  refine faithful_bind (faithful_of_silent hinvalidate) fun _ => Steps.ite ?_ (faithful_pure _)
  exact faithful_bind (faithful_record (by decide)) fun _ => faithful_pure _

/-! ## AdminService -/

theorem silent_isAdmin (id : UserId) : Steps auditLedger.Silent (isAdmin (b := .sqlite) env id) := by
  refine silent_bind silent_query fun found => ?_
  cases found with
  | none => exact silent_pure _
  | some u => exact silent_pure _

theorem silent_isAdminSession (token : SessionId) :
    Steps auditLedger.Silent (isAdminSession (b := .sqlite) env token) := by
  refine silent_bind silent_nowMs fun now => silent_bind silent_query fun valid => ?_
  refine Steps.ite (silent_pure _) (silent_bind silent_query fun sess => ?_)
  cases sess with
  | none => exact silent_pure _
  | some s =>
      refine silent_bind silent_query fun user => ?_
      cases user with
      | none => exact silent_pure _
      | some u =>
          refine Steps.ite (silent_pure _) (silent_bind (silent_isAdmin _) fun ok => ?_)
          exact Steps.ite (silent_pure _) (silent_pure _)

/-- The update of a status is what the entry of the administration tells. -/
theorem tablesView_setStatus {t t' : SqliteUserRepository} {tgt : UserId} {u : User}
    {action : AuditAction} {status : Bytes} (files : SqliteFileRepository) (actor : Bytes)
    (hstatus : action = .ACTIVATE ∧ status = ascii "active" ∨
      action = .DEACTIVATE ∧ status = ascii "inactive")
    (hfound : t.findById tgt = .ok (some u))
    (hwrite : SqliteUserRepository.update (u.setStatus status) t = .ok t') :
    tablesView t' files = (tablesView t files).enter (auditEntry action actor tgt.value) := by
  have hu := SqliteUserRepository.accounts.findById_text hfound
  have hid : Text.bind u.id.value = Text.bind tgt.value := by
    rw [SqliteUserRepository.accounts.id_of_findById hfound]
    exact Text.bind_val (Text.bind tgt.value)
  obtain rfl : t.updateStatus u status = t' :=
    Except.ok.inj ((SqliteUserRepository.update_setStatus hu).symm.trans hwrite)
  rcases hstatus with ⟨rfl, rfl⟩ | ⟨rfl, rfl⟩
  · have hinactive := SqliteUserRepository.inactiveIds_activate t u
    rw [hid] at hinactive
    exact AuditView.ext SqliteUserRepository.usernames_updateWhere hinactive rfl
  · have hinactive := SqliteUserRepository.inactiveIds_deactivate hu
    rw [hid] at hinactive
    exact AuditView.ext SqliteUserRepository.usernames_updateWhere hinactive rfl

theorem faithful_activateAs (henv : AuditEnv env) (adminId tgt : UserId) :
    Steps auditLedger.Faithful (activateAs (b := .sqlite) env adminId tgt) := by
  intro w
  show wp _ (fun _ w' => auditLedger.Faithful w w') w
  unfold activateAs
  refine wp_query_exact rfl (fun _ => (silent_tick w).faithful) fun found hfound => ?_
  cases found with
  | none => exact (silent_tick w).faithful
  | some u =>
      refine wp_writeUsers_exact (fun e => ?_) fun users hwrite => ?_
      · exact ((silent_tick w).trans (silent_tick w.tick)).faithful
      · have hview := tablesView_setStatus w.files adminId.value (.inl ⟨rfl, rfl⟩) hfound hwrite
        exact wp_record_due henv ⟨rfl, hview⟩

theorem faithful_deactivateAs (henv : AuditEnv env) (adminId tgt : UserId) :
    Steps auditLedger.Faithful (deactivateAs (b := .sqlite) env adminId tgt) := by
  intro w
  show wp _ (fun _ w' => auditLedger.Faithful w w') w
  unfold deactivateAs
  refine wp_query_exact rfl (fun _ => (silent_tick w).faithful) fun found hfound => ?_
  cases found with
  | none => exact (silent_tick w).faithful
  | some u =>
      have hlast : Steps auditLedger.Silent (isLastAdmin (b := .sqlite) env u) :=
        Steps.ite (silent_bind (silent_bind silent_query fun _ => silent_pure _) fun _ => silent_pure _)
          (silent_pure _)
      have hquiet : Steps Quiet (isLastAdmin (b := .sqlite) env u) :=
        Steps.ite (quiet_bind (quiet_bind quiet_query fun _ => quiet_pure _) fun _ => quiet_pure _)
          (quiet_pure _)
      rw [wp_bind]
      refine wp_mono (wp_and (hlast.wp w.tick) (hquiet.wp w.tick)) ?_
      rintro (e | last) w₁ ⟨hs, hq⟩
      · exact ((silent_tick w).trans hs).faithful
      have hw : auditLedger.Silent w w₁ := (silent_tick w).trans hs
      have husers : w₁.users = w.users := congrArg Stores.users hq.stores
      rw [wpBind_ok]
      refine wp_ite (fun _ => hw.faithful) fun _ => ?_
      refine wp_writeUsers_exact (fun e => ?_) fun users hwrite => ?_
      · exact (hw.trans (silent_tick w₁)).faithful
      · rw [← husers] at hfound
        have hview := tablesView_setStatus w₁.files adminId.value (.inr ⟨rfl, rfl⟩) hfound hwrite
        have hdue : auditLedger.Ahead (auditEntry .DEACTIVATE adminId.value tgt.value) w
            { w₁.tick with users := users } := .of_silent hw ⟨rfl, hview⟩
        rw [wp_bind]
        refine wp_write (fun e h => ?_) (fun e h => by cases h) fun w₂ h₂ => ?_
        · rw [henv.revoke] at h
          cases h
        · cases h₂
          exact wp_record_due henv (hdue.silent (silent_of rfl rfl rfl))

theorem faithful_asAdminSession (token : SessionId) (tgt : UserId)
    {action : UserId → Service .sqlite (Result UserId)}
    (haction : ∀ adminId, Steps auditLedger.Faithful (action adminId)) :
    Steps auditLedger.Faithful (asAdminSession env token tgt action) := by
  refine faithful_bind (faithful_of_silent (silent_isAdminSession token)) fun admin => ?_
  cases admin with
  | none => exact faithful_record_failure (by decide)
  | some adminId => exact haction adminId

/-! ## TransferService -/

theorem faithful_checkUpload (a : UploadArgs) :
    Steps auditLedger.Faithful (checkUpload (b := .sqlite) env a) := by
  refine faithful_bind (faithful_of_silent silent_nowMs) fun now => ?_
  refine faithful_bind (faithful_of_silent silent_query) fun valid => Steps.ite ?_ ?_
  · exact faithful_bind (faithful_record (by decide)) fun _ => Steps.throw Faithful.refl _
  refine faithful_bind (faithful_of_silent silent_query) fun senderId => ?_
  refine faithful_bind (faithful_of_silent silent_query) fun found => ?_
  cases found with
  | none => exact Steps.throw Faithful.refl _
  | some recipient =>
      refine faithful_bind (faithful_of_silent silent_query) fun ok => ?_
      refine Steps.ite (Steps.throw Faithful.refl _) ?_
      refine faithful_bind (Steps.outcome Faithful.refl _) fun _ => ?_
      exact Steps.ite (Steps.throw Faithful.refl _) (faithful_pure _)

theorem silent_stagedWrite (sid data : Bytes) :
    Steps auditLedger.Silent (stagedWrite (b := .sqlite) env sid data) :=
  silent_write fun w w' h => by
    cases h
    exact silent_of rfl rfl rfl

theorem silent_removeStaged (sid : Bytes) :
    Steps auditLedger.Silent (removeStaged (b := .sqlite) env sid) :=
  silent_write fun w w' h => by
    cases h
    exact silent_of rfl rfl rfl

/-- The transfers are not in the log. -/
theorem silent_saveTransfer (t : Transfer) :
    Steps auditLedger.Silent (saveTransfer (b := .sqlite) env t) := by
  refine silent_write fun w w' h => ?_
  cases hrun : w.transfers.save t with
  | error e =>
      rw [hrun] at h
      cases h
  | ok ts =>
      rw [hrun] at h
      cases h
      exact silent_of rfl rfl rfl

theorem wp_newId_silent {β : Type} {w : World .sqlite} {k : UserId → Service .sqlite β}
    {Q : Except Exn β → World .sqlite → Prop}
    (h : ∀ id w', auditLedger.Silent w w' → wp (k id) Q w') : wp (newId env >>= k) Q w := by
  rw [wp_bind]
  exact h _ _ (silent_of rfl rfl rfl)

/-- Saving the transfer; a failure is passed over. -/
theorem wp_saveTransfer_silent {β : Type} {w : World .sqlite} {t : Transfer}
    {k : Unit → Service .sqlite β} {Q : Except Exn β → World .sqlite → Prop}
    (h : ∀ w', auditLedger.Silent w w' → wp (k ()) Q w') :
    wp (tryCatch (saveTransfer env t) (fun _ => return ()) >>= k) Q w := by
  rw [wp_bind, wp_tryCatch]
  refine wp_mono ((silent_saveTransfer t).wp w) ?_
  rintro (e | _) w' hs
  · exact h w' hs
  · exact h w' hs

/-- Saving a record with its rollback, then the rest in the state it leaves. -/
theorem wp_saveFile_exact {β : Type} {fr : FileRecord} {w : World .sqlite}
    {k : Unit → Service .sqlite β} {Q : Except Exn β → World .sqlite → Prop}
    (herr : ∀ e w', auditLedger.Silent w w' → Q (.error e) w')
    (hok : ∀ files, SqliteFileRepository.save fr w.files = .ok files →
      wp (k ()) Q { w.tick with files := files }) :
    wp (tryCatch (saveFile env fr) (fun e => do
      tryCatch (removeStaged env fr.storageId) fun _ => return ()
      throw e) >>= k) Q w := by
  have handler : ∀ e, wp (do
      tryCatch (removeStaged env fr.storageId) fun _ => return ()
      throw e) (wpBind k Q) w.tick := by
    intro e
    have hremoved : Steps auditLedger.Silent (tryCatch (removeStaged (b := .sqlite) env fr.storageId)
        fun _ => return ()) := silent_tryCatch (silent_removeStaged _) fun _ => silent_pure _
    rw [wp_bind]
    refine wp_mono (hremoved.wp w.tick) ?_
    rintro (e' | _) w' hs
    · exact herr e' w' ((silent_tick w).trans hs)
    · exact herr e w' ((silent_tick w).trans hs)
  rw [wp_bind, wp_tryCatch]
  refine wp_write (fun e _ => handler e) (fun e _ => handler e) fun w₁ h₁ => ?_
  cases hsave : SqliteFileRepository.save fr w.files with
  | error e =>
      rw [show Backend.sqlite.files.save fr w.tick.files = _ from hsave] at h₁
      cases h₁
  | ok files =>
      rw [show Backend.sqlite.files.save fr w.tick.files = _ from hsave] at h₁
      cases h₁
      exact hok files hsave

/-- The record stands in the table before the entry is written. -/
theorem faithful_storeUpload (henv : AuditEnv env) (a : UploadArgs) (senderId recipientId : UserId) :
    Steps auditLedger.Faithful (storeUpload (b := .sqlite) env a senderId recipientId) := by
  refine faithful_bind (faithful_of_silent silent_newId) fun fileId => ?_
  refine faithful_bind (faithful_of_silent silent_newId) fun storage => ?_
  refine faithful_bind (faithful_of_silent silent_nowMs) fun now => ?_
  refine faithful_bind (faithful_of_silent (silent_stagedWrite _ _)) fun _ => ?_
  intro w
  show wp _ (fun _ w' => auditLedger.Faithful w w') w
  refine wp_saveFile_exact (fun e w' hs => hs.faithful) fun files hsave => ?_
  have hview : tablesView w.users files = (tablesView w.users w.files).enter
      (auditEntry .UPLOAD senderId.value fileId.value) := by
    have hrows := congrArg (List.map fun r => (r.ownerId, r.id)) (SqliteFileRepository.save_ok hsave).1
    rw [List.map_append] at hrows
    exact AuditView.ext rfl rfl hrows
  have hdue : auditLedger.Ahead (auditEntry .UPLOAD senderId.value fileId.value) w
      { w.tick with files := files } := ⟨rfl, hview⟩
  refine wp_newId_silent fun transferId w₁ hs₁ => ?_
  refine wp_saveTransfer_silent fun w₂ hs₂ => ?_
  exact wp_record_due henv ((hdue.silent hs₁).silent hs₂)

theorem faithful_upload (henv : AuditEnv env) (a : UploadArgs) :
    Steps auditLedger.Faithful (upload (b := .sqlite) env a) := by
  refine faithful_bind (faithful_checkUpload a) fun p => ?_
  refine faithful_bind (faithful_of_silent silent_query) fun dup => ?_
  exact Steps.ite (faithful_pure _) (faithful_storeUpload henv a p.1 p.2)

theorem faithful_download (requestSess : SessionId) (fid : FileId) :
    Steps auditLedger.Faithful (download (b := .sqlite) env requestSess fid) := by
  refine faithful_bind (faithful_of_silent silent_nowMs) fun now => ?_
  refine faithful_bind (faithful_of_silent silent_query) fun valid => Steps.ite ?_ ?_
  · exact faithful_bind (faithful_record (by decide)) fun _ => Steps.throw Faithful.refl _
  refine faithful_bind (faithful_of_silent silent_query) fun requestor => ?_
  refine faithful_bind (faithful_of_silent silent_query) fun found => ?_
  cases found with
  | none => exact faithful_pure _
  | some fr =>
      refine Steps.ite ?_ (faithful_record_failure (by decide))
      have hread : Steps auditLedger.Silent (tryCatch (do
          let data ← Service.read (b := .sqlite) env fr.storageId
          return (.ok data : Except Exn Bytes)) fun e => return .error e) :=
        silent_tryCatch (silent_bind silent_query fun _ => silent_pure _) fun _ => silent_pure _
      refine faithful_bind (faithful_of_silent hread) fun blob => ?_
      cases blob with
      | error e => exact faithful_pure _
      | ok data => exact faithful_bind (faithful_record (by decide)) fun _ => faithful_pure _

/-! ## The frame loop -/

/-- The journal, seen by a handler. -/
def handlerLedger : Journal Handling AuditEvent AuditView := auditLedger.comap Handling.world

theorem faithful_service {α : Type} {x : Service .sqlite α} (hx : Steps auditLedger.Faithful x) :
    Steps handlerLedger.Faithful (service x) :=
  faithful_zoom (fun _ _ => rfl) hx

/-- What does not reach the process. -/
theorem faithful_modify {g : Handling → Unit × Handling} (hg : ∀ h, (g h).2.world = h.world) :
    Steps handlerLedger.Faithful (modifyGet g : Handler Unit) := fun h =>
  Silent.faithful ⟨congrArg World.audit (hg h), congrArg World.auditView (hg h)⟩

theorem faithful_setConn (c : Conn) : Steps handlerLedger.Faithful (setConn c) :=
  faithful_modify fun _ => rfl

theorem faithful_sendFrame (f : Frame) : Steps handlerLedger.Faithful (sendFrame f) :=
  faithful_modify fun _ => rfl

theorem faithful_conn : Steps handlerLedger.Faithful conn := Steps.ask Faithful.refl _

variable {f : Frame}

theorem faithful_guarded {branch : Handler Unit} (h : Steps handlerLedger.Faithful branch) :
    Steps handlerLedger.Faithful (guarded f branch) :=
  faithful_tryCatch h fun _ => faithful_sendFrame _

theorem faithful_handleRegister (henv : AuditEnv env) :
    Steps handlerLedger.Faithful (handleRegister env f) := by
  refine faithful_guarded (faithful_bind (Steps.outcome Faithful.refl _) fun pl => ?_)
  refine faithful_bind (faithful_service (faithful_registerUser henv _ _ _ _)) fun r => ?_
  cases r with
  | success _ => exact faithful_sendFrame _
  | failure _ => exact faithful_sendFrame _

theorem faithful_handleAuth : Steps handlerLedger.Faithful (handleAuth env f) := by
  refine faithful_guarded (faithful_bind (Steps.outcome Faithful.refl _) fun pl => ?_)
  refine faithful_bind (faithful_service (faithful_login _ _)) fun r => ?_
  cases r with
  | success token =>
      refine faithful_bind faithful_conn fun c => ?_
      exact faithful_bind (faithful_setConn _) fun _ => faithful_sendFrame _
  | failure _ => exact faithful_sendFrame _

theorem faithful_handleLogout : Steps handlerLedger.Faithful (handleLogout env f) := by
  refine faithful_bind (faithful_service (faithful_logout _)) fun ok => ?_
  refine Steps.ite ?_ (faithful_sendFrame _)
  refine faithful_bind (faithful_sendFrame _) fun _ => faithful_bind faithful_conn fun c => ?_
  exact Steps.ite (faithful_setConn _) (faithful_pure _)

theorem faithful_handleAdmin (henv : AuditEnv env) :
    Steps handlerLedger.Faithful (handleAdmin env f) := by
  refine faithful_guarded (faithful_bind (Steps.outcome Faithful.refl _) fun pl => ?_)
  have haction : Steps auditLedger.Faithful (adminAction env f.type ⟨pl.token⟩ ⟨pl.targetId⟩) :=
    Steps.ite (faithful_asAdminSession _ _ fun adminId => faithful_activateAs henv adminId _)
      (faithful_asAdminSession _ _ fun adminId => faithful_deactivateAs henv adminId _)
  refine faithful_bind (faithful_service haction) fun r => ?_
  cases r with
  | success _ => exact faithful_sendFrame _
  | failure _ => exact faithful_sendFrame _

theorem faithful_connTokenValid (c : Conn) :
    Steps handlerLedger.Faithful (connTokenValid env c) :=
  faithful_bind (faithful_service (faithful_of_silent silent_nowMs)) fun _ =>
    faithful_service (faithful_of_silent silent_query)

theorem faithful_handleUploadInit : Steps handlerLedger.Faithful (handleUploadInit env f) := by
  refine faithful_guarded (faithful_bind (Steps.outcome Faithful.refl _) fun init => ?_)
  refine faithful_bind faithful_conn fun c => Steps.ite (faithful_sendFrame _) ?_
  refine faithful_bind (faithful_connTokenValid c) fun valid => Steps.ite ?_ (faithful_sendFrame _)
  unfold acceptInit
  cases PdfFileValidator.validate init.origName init.size fakeHdr with
  | error e => exact faithful_sendFrame _
  | ok _ =>
      refine faithful_bind (faithful_setConn _) fun _ => ?_
      refine faithful_bind (faithful_tryCatch ?_ fun _ => faithful_pure _) fun _ =>
        faithful_sendFrame _
      exact faithful_bind (faithful_service (faithful_of_silent silent_query)) fun _ =>
        faithful_pure _

theorem faithful_handleUploadData : Steps handlerLedger.Faithful (handleUploadData f) := by
  refine faithful_guarded (faithful_bind (Steps.outcome Faithful.refl _) fun data => ?_)
  refine faithful_bind faithful_conn fun c => ?_
  cases c.pendingData.lookup data.uploadId with
  | none => exact faithful_sendFrame _
  | some sofar =>
      refine Steps.ite (faithful_sendFrame _) ?_
      exact faithful_bind (faithful_setConn _) fun _ => faithful_sendFrame _

theorem faithful_commitPending (henv : AuditEnv env) (c : Conn) (id : Bytes)
    (init : Option UploadInit) (data : Option Bytes) :
    Steps handlerLedger.Faithful (commitPending env f c id init data) := by
  cases init with
  | none => exact faithful_sendFrame _
  | some init =>
      cases data with
      | none => exact faithful_sendFrame _
      | some data =>
          refine Steps.ite (faithful_sendFrame _) ?_
          refine faithful_bind (faithful_connTokenValid c) fun valid => ?_
          refine Steps.ite ?_ (faithful_sendFrame _)
          have hupload : Steps handlerLedger.Faithful (transfersUpload env (c.uploadArgs init data)) :=
            faithful_bind (faithful_modify fun _ => rfl) fun _ =>
              faithful_service (faithful_upload henv _)
          refine faithful_bind hupload fun r => ?_
          cases r with
          | success t => exact faithful_bind (faithful_sendFrame _) fun _ => faithful_setConn _
          | failure error => exact faithful_sendFrame _

theorem faithful_handleUploadCommit (henv : AuditEnv env) :
    Steps handlerLedger.Faithful (handleUploadCommit env f) :=
  faithful_guarded (faithful_bind faithful_conn fun c => faithful_commitPending henv c _ _ _)

theorem faithful_handleDownloadReq : Steps handlerLedger.Faithful (handleDownloadReq env f) := by
  refine faithful_guarded (faithful_bind (Steps.outcome Faithful.refl _) fun req => ?_)
  refine faithful_bind faithful_conn fun c => ?_
  refine faithful_bind (faithful_service (faithful_download _ _)) fun r => ?_
  cases r with
  | success o => exact faithful_sendFrame _
  | failure error => exact faithful_sendFrame _

theorem faithful_handleFrame (henv : AuditEnv env) :
    Steps handlerLedger.Faithful (handleFrame env f) := by
  unfold handleFrame
  refine Steps.ite (faithful_handleRegister henv) ?_
  refine Steps.ite faithful_handleAuth ?_
  refine Steps.ite faithful_handleLogout ?_
  refine Steps.ite (faithful_handleAdmin henv) ?_
  refine Steps.ite faithful_handleUploadInit ?_
  refine Steps.ite faithful_handleUploadData ?_
  refine Steps.ite (faithful_handleUploadCommit henv) ?_
  refine Steps.ite faithful_handleDownloadReq ?_
  exact Steps.ite (faithful_sendFrame _) (faithful_sendFrame _)

theorem faithful_boot (henv : AuditEnv env) (u e p : Bytes) :
    Steps auditLedger.Faithful (boot env u e p) := by
  refine faithful_bind (faithful_of_silent (silent_modifyGet fun _ => silent_of rfl rfl rfl))
    fun _ => ?_
  refine faithful_bind (faithful_of_silent silent_query) fun users => ?_
  refine Steps.ite ?_ (faithful_pure _)
  exact faithful_bind (faithful_registerUser henv u e p _) fun _ => faithful_pure _

/-! ## Runs of the server -/

/-- The journal of the process. -/
def serverLedger : Journal ServerState AuditEvent AuditView := auditLedger.comap ServerState.world

theorem serverStep_faithful (henv : AuditEnv env) (s : ServerState) (ev : ServerEvent) :
    serverLedger.Faithful s (serverStep env s ev).2 := by
  have kept : ∀ {s' : ServerState}, auditLedger.Silent s.world s'.world → serverLedger.Faithful s s' :=
    fun h => Silent.faithful ⟨h.log, h.view⟩
  have same : ∀ phase, serverLedger.Faithful s ⟨s.world, phase⟩ := fun phase =>
    kept (Silent.refl s.world)
  cases ev with
  | boot u e p =>
      have hboot : auditLedger.Faithful s.world (boot env u e p s.world).2 := faithful_boot henv u e p s.world
      simp only [serverStep]
      rcases hrun : boot env u e p s.world with ⟨ex | _, w⟩
      · rw [hrun] at hboot
        exact hboot
      · rw [hrun] at hboot
        exact hboot
  | accept =>
      simp only [serverStep]
      split
      · exact same _
      · exact Faithful.refl s
  | frame f =>
      simp only [serverStep]
      split
      · rename_i c _
        have hframe : handlerLedger.Faithful { world := s.world, conn := c }
            (handleFrame env f { world := s.world, conn := c }).2 := faithful_handleFrame henv _
        rcases hrun : handleFrame env f { world := s.world, conn := c } with ⟨e | _, h⟩
        · rw [hrun] at hframe
          exact hframe
        · rw [hrun] at hframe
          exact hframe
      · exact Faithful.refl s
  | hangup =>
      simp only [serverStep]
      split
      · exact same _
      · exact Faithful.refl s
  | pubkey uid pub =>
      simp only [serverStep]
      split
      · exact kept (silent_of rfl rfl rfl)
      · exact Faithful.refl s

/-- The log, replayed, is the view of the tables. -/
theorem auditView_of_serverRun (henv : AuditEnv env) (evs : List ServerEvent) :
    (serverAfter env evs).world.auditView =
      auditLedger.replay AuditView.empty (serverAfter env evs).world.audit :=
  (Faithful.final (serverStep_faithful henv) evs ServerState.initial).view_eq rfl

end Calls

/-! ## What a log tells, entry by entry -/

/-- The last entry of the log on the status of the account deactivates it. -/
def Deactivated (log : List AuditEvent) (id : Text) : Prop :=
  ∃ pre e post, log = pre ++ e :: post ∧ e.Is .DEACTIVATE ∧ Text.bind e.fileId = id ∧
    ∀ e' ∈ post, e'.Is .ACTIVATE → Text.bind e'.fileId ≠ id

theorem deactivated_concat {log : List AuditEvent} {e : AuditEvent} {id : Text} :
    Deactivated (log ++ [e]) id ↔ (e.Is .DEACTIVATE ∧ Text.bind e.fileId = id) ∨
      (Deactivated log id ∧ (e.Is .ACTIVATE → Text.bind e.fileId ≠ id)) := by
  constructor
  · rintro ⟨pre, x, post, heq, hx, hid, hpost⟩
    rcases List.eq_nil_or_concat' post with rfl | ⟨post, last, rfl⟩
    · obtain ⟨-, hlast⟩ := List.append_inj' heq rfl
      obtain rfl : e = x := List.singleton_inj.1 hlast
      exact .inl ⟨hx, hid⟩
    · have heq' : log ++ [e] = (pre ++ x :: post) ++ [last] := by simpa using heq
      obtain ⟨hlog, hlast⟩ := List.append_inj' heq' rfl
      obtain rfl : e = last := List.singleton_inj.1 hlast
      exact .inr ⟨⟨pre, x, post, hlog, hx, hid, fun e' he' => hpost e' (by simp [he'])⟩,
        hpost e (by simp)⟩
  · rintro (⟨he, hid⟩ | ⟨⟨pre, x, post, rfl, hx, hid, hpost⟩, hlast⟩)
    · exact ⟨log, e, [], rfl, he, hid, fun _ h => by cases h⟩
    · refine ⟨pre, x, post ++ [e], by simp, hx, hid, fun e' he' => ?_⟩
      rcases List.mem_append.1 he' with he' | he'
      · exact hpost e' he'
      · obtain rfl := List.mem_singleton.1 he'
        exact hlast

namespace AuditView

variable {v : AuditView} {e : AuditEvent}

theorem usernames_enter : (v.enter e).usernames =
    if e.Is .REGISTER_OK then v.usernames ++ [Text.bind e.actor] else v.usernames := by
  unfold enter
  split_ifs <;> rfl

theorem files_enter : (v.enter e).files =
    if e.Is .UPLOAD then v.files ++ [(Text.bind e.actor, Text.bind e.fileId)] else v.files := by
  unfold enter
  split_ifs with h₁ hupload h₂ hupload h₃ hupload h₄ <;> first | rfl | skip
  · exact absurd hupload (h₁.not (by decide))
  · exact absurd hupload (h₂.not (by decide))
  · exact absurd hupload (h₃.not (by decide))

theorem mem_inactive_enter {id : Text} : id ∈ (v.enter e).inactive ↔
    (e.Is .DEACTIVATE ∧ Text.bind e.fileId = id) ∨
      (id ∈ v.inactive ∧ (e.Is .ACTIVATE → Text.bind e.fileId ≠ id)) := by
  have other : ¬ e.Is .ACTIVATE → ¬ e.Is .DEACTIVATE →
      (id ∈ v.inactive ↔ (e.Is .DEACTIVATE ∧ Text.bind e.fileId = id) ∨
        (id ∈ v.inactive ∧ (e.Is .ACTIVATE → Text.bind e.fileId ≠ id))) := by
    intro hactivate hdeactivate
    simp [hactivate, hdeactivate]
  unfold enter
  split_ifs with h₁ h₂ h₃ h₄
  · exact other (h₁.not (by decide)) (h₁.not (by decide))
  · have hdeactivate : ¬ e.Is .DEACTIVATE := h₂.not (by decide)
    simp only [Finset.mem_erase, hdeactivate, h₂, false_and, false_or, true_implies]
    rw [and_comm, ne_comm]
  · have hactivate : ¬ e.Is .ACTIVATE := h₃.not (by decide)
    simp [h₃, hactivate, eq_comm]
  · exact other (h₄.not (by decide)) (h₄.not (by decide))
  · exact other h₂ h₃

end AuditView

/-- What the log tells of the columns. -/
structure LogTells (log : List AuditEvent) (v : AuditView) : Prop where
  usernames : v.usernames = (log.filter (·.Is .REGISTER_OK)).map fun e => Text.bind e.actor
  inactive : ∀ id, id ∈ v.inactive ↔ Deactivated log id
  files : v.files =
    (log.filter (·.Is .UPLOAD)).map fun e => (Text.bind e.actor, Text.bind e.fileId)

theorem logTells_replay (log : List AuditEvent) :
    LogTells log (auditLedger.replay AuditView.empty log) := by
  -- the entries one after the other, the last one last
  induction log using List.reverseRecOn with
  | nil =>
      refine ⟨rfl, fun id => ⟨fun h => absurd h (Finset.notMem_empty id), ?_⟩, rfl⟩
      rintro ⟨pre, e, post, heq, -⟩
      simp at heq
  | append_singleton log e ih =>
      rw [replay_append]
      refine ⟨?_, fun id => ?_, ?_⟩
      · show (AuditView.enter _ e).usernames = _
        rw [AuditView.usernames_enter, ih.usernames]
        split_ifs with h
        · simp [h]
        · simp [h]
      · show id ∈ (AuditView.enter _ e).inactive ↔ _
        rw [AuditView.mem_inactive_enter, ih.inactive, deactivated_concat]
      · show (AuditView.enter _ e).files = _
        rw [AuditView.files_enter, ih.files]
        split_ifs with h
        · simp [h]
        · simp [h]

/-- A server that starts without users, and a client that registers. -/
def registeringEvents : List ServerEvent :=
  [ .boot (ascii "root") (ascii "root@x") (ascii "password"),
    .accept,
    .frame
      { type := .REGISTER
        requestId := 1
        body := encodeRegister
          { username := ascii "alice", email := ascii "alice@x", password := ascii "password" } } ]

/-- Then the administrator logs in, sends the client a file and deactivates its account. -/
def ledgerEvents : List ServerEvent :=
  registeringEvents ++
    [ .pubkey (generateUserId (Env.counting.randomId 1)) (List.replicate 32 7),
      .frame { type := .AUTH, requestId := 2, body := encodeLogin ⟨ascii "root", ascii "password"⟩ },
      .frame
        { type := .UPLOAD_INIT
          requestId := 3
          body := encodeUploadInit
            { recipient := ascii "alice"
              origName := ascii "a.pdf"
              uploadId := ascii "u1"
              size := 3
              digest := zeroDigest
              wrapped := {} } },
      .frame
        { type := .UPLOAD_DATA, requestId := 4, body := encodeUploadData ⟨ascii "u1", 0, [1, 2, 3]⟩ },
      .frame { type := .UPLOAD_COMMIT, requestId := 5, body := [] },
      .frame
        { type := .ADMIN_DEACTIVATE
          requestId := 6
          body := encodeAdmin
            ⟨(sessionToken (Env.counting.randomToken 0)).value,
              (generateUserId (Env.counting.randomId 1)).value⟩ } ]

end SecureFileTransfer
