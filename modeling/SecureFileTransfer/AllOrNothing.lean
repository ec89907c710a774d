import SecureFileTransfer.AccountSteps

/-!
# AllOrNothing — what a call that does not succeed leaves behind

A service call that throws or reports a failure leaves the stores alone, up to the login counters
of the account a login named.  Three failures come too late to be undone: the audit record of what
was done, the revocation of the sessions of a user that is already inactive, and the removal of a
blob whose record was not saved.  What the stores hold after each of them is fixed all the same.
-/

namespace SecureFileTransfer

open Prog Service Runs

variable {b : Backend} {env : Env} {w w' : World b} {c : ServiceCall}

/-- The call threw or reported a failure. -/
def Fails : Except Exn ServiceReply → Prop
  | .error _ => True
  | .ok (.user (.failure _)) => True
  | .ok (.session (.failure _)) => True
  | .ok (.transfer (.failure _)) => True
  | .ok (.blob (.failure _)) => True
  | .ok (.flag ok) => ok = false
  | .ok _ => False

/-- The stores are as before, up to the failed attempts and the lockout of the account that a login
named. -/
def Unchanged (c : ServiceCall) (w w' : World b) : Prop :=
  w'.toStores = w.toStores ∨ ∃ u pw user users, c = .login u pw ∧
    b.users.findByUsername w.users u = .ok (some user) ∧
    b.users.EqualButLockout user.id w.users users ∧ w'.toStores = w.toStores.withUsers users

/-- The record of the transfer and its blob are stored. -/
def FileStored (a : UploadArgs) (t : Transfer) (w' : World b) : Prop :=
  ∃ fr, b.files.findById w'.files t.file = some fr ∧
    w'.blobs.lookup fr.storageId = some a.opaqueBytes

/-- A call does everything or nothing. -/
structure AllOrNothing (c : ServiceCall) (w : World b) (r : Except Exn ServiceReply)
    (w' : World b) : Prop where
  nothing : Fails r → Unchanged c w w'
  all : ∀ a t, c = .upload a → r = .ok (.transfer (.success t)) →
    FileStored a t w' ∧ w'.transfers.findById t.id = some t

/-- After these calls, `c` does everything or nothing. -/
def AllOrNothingAfter (b : Backend) (env : Env) (calls : List ServiceCall) (c : ServiceCall) :
    Prop :=
  AllOrNothing c (final (serviceStep env) (World.empty b) calls)
    (serviceStep env (final (serviceStep env) (World.empty b) calls) c).1
    (serviceStep env (final (serviceStep env) (World.empty b) calls) c).2

theorem AllOrNothingAfter.stores {calls : List ServiceCall} {e : Exn} (hc : ∀ u pw, c ≠ .login u pw)
    (h : AllOrNothingAfter b env calls c)
    (hthrown : (serviceStep env (final (serviceStep env) (World.empty b) calls) c).1 = .error e) :
    (serviceStep env (final (serviceStep env) (World.empty b) calls) c).2.toStores =
      (final (serviceStep env) (World.empty b) calls).toStores := by
  have hf : Fails (serviceStep env (final (serviceStep env) (World.empty b) calls) c).1 := by
    rw [hthrown]
    trivial
  rcases h.nothing hf with hst | ⟨u, pw, _, _, rfl, _⟩
  · exact hst
  · exact absurd rfl (hc u pw)

/-- Every call of these functions throws. -/
def Env.failing (cs : List Call) : Env :=
  { Env.counting with
    fault := fun c _ => if c ∈ cs then some (.storage "unavailable") else none }

/-- An administrator and the users of `sampleCalls`. -/
def sampleAdminCalls : List ServiceCall :=
  sampleCalls ++ [.registerUser (ascii "root") (ascii "r@x") (ascii "password") (ascii "admin")]

/-- The event with which a call reports that it is done. -/
def ServiceCall.doneAction : ServiceCall → Option AuditAction
  | .registerUser .. => some .REGISTER_OK
  | .login .. => some .LOGIN_OK
  | .logout .. => some .LOGOUT
  | .activate .. => some .ACTIVATE
  | .deactivate .. => some .DEACTIVATE
  | .activateById .. => some .ACTIVATE
  | .deactivateById .. => some .DEACTIVATE
  | .upload .. => some .UPLOAD
  | .savePubkey .. => none
  | .download .. => none

/-- The user whose sessions a call revokes. -/
def ServiceCall.deactivated : ServiceCall → Option UserId
  | .deactivate _ tgt => some tgt
  | .deactivateById _ tgt => some tgt
  | _ => none

/-- The user whose account a call activates. -/
def ServiceCall.activated : ServiceCall → Option UserId
  | .activate _ tgt => some tgt
  | .activateById _ tgt => some tgt
  | _ => none

/-- The call had its whole effect on the stores, and no other. -/
inductive Done (env : Env) (w w' : World b) : ServiceCall → Prop
  | registered {u email pw role n user users}
      (new : User.new (generateUserId (env.randomId w.ids)) u email role (ascii "active") 0 0 =
        .ok user)
      (write : b.users.save user (env.hash n pw) w.users = .ok users)
      (stores : w'.toStores = w.toStores.withUsers users) :
      Done env w w' (.registerUser u email pw role)
  | opened {u pw user users st} (admitted : MayLogin env u pw w user)
      (write : b.users.resetLoginFailures user.id w.users = .ok users)
      (create : w.sessions.createForUser (env.randomToken w.tokens) user.id
        (env.clock w.clockReads) = .ok st)
      (stores : w'.toStores = (w.toStores.withUsers users).withSessions st) :
      Done env w w' (.login u pw)
  | revoked {tok} (stores : w'.toStores = w.toStores.withSessions (w.sessions.invalidate tok)) :
      Done env w w' (.logout tok)
  | activated {c tgt u users} (target : c.activated = some tgt)
      (found : b.users.findById w.users tgt = .ok (some u))
      (write : b.users.update (u.setStatus (ascii "active")) w.users = .ok users)
      (stores : w'.toStores = w.toStores.withUsers users) : Done env w w' c
  | deactivated {c tgt u users} (target : c.deactivated = some tgt)
      (found : b.users.findById w.users tgt = .ok (some u))
      (write : b.users.update (u.setStatus (ascii "inactive")) w.users = .ok users)
      (stores : w'.toStores =
        (w.toStores.withUsers users).withSessions (w.sessions.invalidateAllForUser tgt)) :
      Done env w w' c
  /-- The record and its blob are stored, and the transfer unless its repository threw. -/
  | uploaded {a senderId recipientId now files ts}
      (admitted : Admitted env a w senderId recipientId)
      (write : b.files.save (uploadRecord env a w senderId recipientId now) w.files = .ok files)
      (transfer : TransferSaved env (uploadTransfer env w senderId recipientId) w w' ts)
      (stores : w'.toStores = ((w.toStores.withBlobs
        (w.blobs.insert (uploadStorageId env w) a.opaqueBytes)).withFiles files).withTransfers ts) :
      Done env w w' (.upload a)

/-- The failures that come too late to be undone. -/
inductive Late (env : Env) (c : ServiceCall) (w : World b) :
    Except Exn ServiceReply → World b → Prop
  /-- Everything was done, but could not be recorded. -/
  | audit {action e w'} (action_eq : c.doneAction = some action) (effect : Done env w w' c)
      (threw : Threw env (.record action) w w' e) : Late env c w (.error e) w'
  /-- The user is inactive, and only its sessions are still what they were. -/
  | revocation {tgt u users e w'} (target : c.deactivated = some tgt)
      (found : b.users.findById w.users tgt = .ok (some u))
      (write : b.users.update (u.setStatus (ascii "inactive")) w.users = .ok users)
      (stores : w'.toStores = w.toStores.withUsers users)
      (threw : Threw env .invalidateAllForUser w w' e) : Late env c w (.error e) w'
  /-- Only a blob without a record is left over. -/
  | removal {a e e' w'} (upload : c = .upload a)
      (stores : w'.toStores =
        w.toStores.withBlobs (w.blobs.insert (uploadStorageId env w) a.opaqueBytes))
      (threw : Threw env .removeStaged w w' e') : Late env c w (.error e) w'

/-- A call does everything or nothing, late failures and the record of the transfer apart. -/
structure AllOrNothingByDesign (env : Env) (c : ServiceCall) (w : World b)
    (r : Except Exn ServiceReply) (w' : World b) : Prop where
  nothing : Fails r → Unchanged c w w' ∨ Late env c w r w'
  all : ∀ a t, c = .upload a → r = .ok (.transfer (.success t)) →
    FileStored a t w' ∧ (w'.transfers.findById t.id = some t ∨
      w'.transfers = w.transfers ∧
        ((∃ e, Threw env .saveTransfer w w' e) ∨ ∃ e, w.transfers.save t = .error e))

/-! ## Each call -/

theorem AllOrNothingByDesign.of_unchanged {r : Except Exn ServiceReply} (hc : ∀ a, c ≠ .upload a)
    (h : w'.toStores = w.toStores) : AllOrNothingByDesign env c w r w' where
  nothing _ := .inl (.inl h)
  all a _ heq := absurd heq (hc a)

/-- The end of a call that did its work: it succeeds, or its audit record throws. -/
theorem AllOrNothingByDesign.of_done {r : Except Exn ServiceReply} {reply : ServiceReply}
    {action : AuditAction} (hc : ∀ a, c ≠ .upload a) (haction : c.doneAction = some action)
    (hreply : ¬ Fails (.ok reply)) (heffect : Done env w w' c)
    (h : r = .ok reply ∨ ∃ e, r = .error e ∧ Threw env (.record action) w w' e) :
    AllOrNothingByDesign env c w r w' where
  nothing hf := by
    rcases h with rfl | ⟨e, rfl, hthrew⟩
    · exact absurd hf hreply
    · exact .inr (.audit haction heffect hthrew)
  all a _ heq := absurd heq (hc a)

theorem map_done {α : Type} {r : Except Exn α} {v : α} {g : α → ServiceReply} {P : Exn → Prop}
    (h : r = .ok v ∨ ∃ e, r = .error e ∧ P e) : r.map g = .ok (g v) ∨ ∃ e, r.map g = .error e ∧ P e := by
  rcases h with rfl | ⟨e, rfl, he⟩
  · exact .inl rfl
  · exact .inr ⟨e, rfl, he⟩

theorem RegisterSaved.byDesign {u email pw role : Bytes} {r : Except Exn (Result UserId)}
    (h : RegisterSaved env u email pw role w r w') :
    AllOrNothingByDesign env (.registerUser u email pw role) w (r.map .user) w' := by
  cases h with
  | refused _ stores => exact .of_unchanged (by simp) stores
  | saved _ drawn new write stores result =>
      subst drawn
      exact .of_done (by simp) rfl (by simp [Fails]) (.registered new write stores)
        (map_done result)

theorem LoginOutcome.byDesign {u pw : Bytes} {r : Except Exn (Result SessionId)}
    (h : LoginOutcome env u pw w r w') :
    AllOrNothingByDesign env (.login u pw) w (r.map .session) w' := by
  cases h with
  | refused _ stores _ => exact .of_unchanged (by simp) stores
  | @counted user users _ _ found write stores _ =>
      have hlockout : b.users.EqualButLockout user.id w.users users :=
        write.elim b.users_lawful.recordLoginFailure_lockout b.users_lawful.resetLoginFailures_lockout
      exact ⟨fun _ => .inl (.inr ⟨u, pw, user, users, rfl, found, hlockout, stores⟩),
        fun a _ heq => by cases heq⟩
  | opened admitted write create stores _ _ _ result =>
      exact .of_done (by simp) rfl (by simp [Fails]) (.opened admitted write create stores)
        (map_done result)

theorem LogoutOutcome.byDesign {tok : SessionId} {r : Except Exn Bool}
    (h : LogoutOutcome env tok w r w') :
    AllOrNothingByDesign env (.logout tok) w (r.map .flag) w' := by
  cases h with
  | unknown _ stores _ => exact .of_unchanged (by simp) stores
  | revoked stores _ result =>
      exact .of_done (by simp) rfl (by simp [Fails]) (.revoked stores) (map_done result)

theorem ActivateOutcome.byDesign {tgt : UserId} {r : Except Exn (Result UserId)}
    (hc : ∀ a, c ≠ .upload a) (haction : c.doneAction = some .ACTIVATE)
    (htgt : c.activated = some tgt) (h : ActivateOutcome env tgt w r w') :
    AllOrNothingByDesign env c w (r.map .user) w' := by
  cases h with
  | refused _ stores _ => exact .of_unchanged hc stores
  | updated found write stores _ result =>
      exact .of_done hc haction (by simp [Fails]) (.activated htgt found write stores)
        (map_done result)

theorem DeactivateOutcome.byDesign {tgt : UserId} {r : Except Exn (Result UserId)}
    (hc : ∀ a, c ≠ .upload a) (haction : c.doneAction = some .DEACTIVATE)
    (htgt : c.deactivated = some tgt) (h : DeactivateOutcome env tgt w r w') :
    AllOrNothingByDesign env c w (r.map .user) w' := by
  cases h with
  | refused _ stores _ => exact .of_unchanged hc stores
  | halfway found write stores _ fault =>
      exact ⟨fun _ => .inr (.revocation htgt found write stores fault),
        fun a _ heq => absurd heq (hc a)⟩
  | updated found write stores _ result =>
      exact .of_done hc haction (by simp [Fails]) (.deactivated htgt found write stores)
        (map_done result)

/-- The record of an upload is found under the file id of its transfer. -/
theorem Stored.fileStored {a : UploadArgs} {senderId recipientId : UserId} {now : Int}
    (h : Stored env a w w' (b.fileView.stored (uploadRecord env a w senderId recipientId now))) :
    FileStored a (uploadTransfer env w senderId recipientId) w' := by
  refine ⟨_, b.fileView.findById_iff.2 ⟨(h.records _).2 (.inr rfl), b.fileView.stored_id _⟩, ?_⟩
  rw [h.blobs]
  exact AList.lookup_insert _

/-- The transfer of an upload reads back as it was saved. -/
theorem Sound.findById_uploadTransfer {a : UploadArgs} {senderId recipientId : UserId}
    {ts : SqliteTransferRepository} (hs : Sound env w) (hadm : Admitted env a w senderId recipientId)
    (hsave : w.transfers.save (uploadTransfer env w senderId recipientId) = .ok ts) :
    ts.findById (uploadTransfer env w senderId recipientId).id =
      some (uploadTransfer env w senderId recipientId) := by
  obtain ⟨s, hsess, -, rfl⟩ := hadm.session
  obtain ⟨u, hu, rfl⟩ := hadm.recipient
  rw [SqliteTransferRepository.findById_save hsave]
  exact congrArg some (TransferRow.toTransfer_ofTransfer (zero_not_mem_generateUserId _)
    (zero_not_mem_generateUserId _) (hs.userIds _ (hs.sessions _ s hsess))
    (hs.userIds _ (present_of_findByUsername hu)))

theorem UploadOutcome.byDesign {a : UploadArgs} {r : Except Exn (Result Transfer)}
    (hs : Sound env w) (hfresh : FreshIds env w'.ids) (h : UploadOutcome env a w r w') :
    AllOrNothingByDesign env (.upload a) w (r.map .transfer) w' := by
  cases h with
  | refused failed _ stores _ =>
      refine ⟨fun _ => .inl (.inl stores), fun a' t _ hr => ?_⟩
      cases r with
      | error e => cases hr
      | ok v =>
          cases hr
          exact absurd rfl (failed t)
  | withdrawn stores _ drawn =>
      rw [hs.withdrawn (hfresh.mono drawn)] at stores
      exact ⟨fun _ => .inl (.inl stores), fun a' t _ hr => by cases hr⟩
  | orphaned stores _ _ fault =>
      exact ⟨fun _ => .inr (.removal rfl stores fault), fun a' t _ hr => by cases hr⟩
  | @stored _ _ senderId recipientId now files ts admitted write transfer stores ids _ result =>
      refine ⟨fun hf => ?_, fun a' t heq hr => ?_⟩
      · rcases result with rfl | ⟨e, rfl, hthrew⟩
        · cases hf
        · exact .inr (.audit rfl (.uploaded admitted write transfer stores) hthrew)
      · obtain rfl : a = a' := by injection heq
        have ht : t = uploadTransfer env w senderId recipientId := by
          rcases result with rfl | ⟨e, rfl, -⟩
          · cases hr
            rfl
          · cases hr
        have hts : w'.transfers = ts := by rw [stores]; rfl
        subst ht
        refine ⟨(stored_of_outcome admitted write stores ids).fileStored, ?_⟩
        rw [hts]
        cases transfer with
        | saved hsave => exact .inl (hs.findById_uploadTransfer admitted hsave)
        | threw cause => exact .inr ⟨rfl, cause⟩

theorem perform_byDesign (hs : Sound env w) (c : ServiceCall) :
    wp (perform env c)
      (fun r w' => FreshIds env w'.ids → AllOrNothingByDesign env c w r w') w := by
  cases c with
  | registerUser u email pw role =>
      exact wp_map (wp_mono (registerUser_saves u email pw role) fun _ _ h _ => h.byDesign)
  | login u pw => exact wp_map (wp_mono (login_spec u pw) fun _ _ h _ => h.byDesign)
  | logout tok => exact wp_map (wp_mono (logout_spec tok) fun _ _ h _ => h.byDesign)
  | activate adminToken tgt =>
      exact wp_map (wp_mono (activate_spec adminToken tgt)
        fun _ _ h _ => h.1.byDesign (by simp) rfl rfl)
  | deactivate adminToken tgt =>
      exact wp_map (wp_mono (deactivate_spec adminToken tgt)
        fun _ _ h _ => h.1.byDesign (by simp) rfl rfl)
  | activateById admin tgt =>
      exact wp_map (wp_mono (activateById_spec admin tgt)
        fun _ _ h _ => h.byDesign (by simp) rfl rfl)
  | deactivateById admin tgt =>
      exact wp_map (wp_mono (deactivateById_spec admin tgt)
        fun _ _ h _ => h.byDesign (by simp) rfl rfl)
  | savePubkey uid pub =>
      refine wp_map (wp_mono (saveKey_spec uid pub) fun r w' h _ => ?_)
      rcases h.2 with rfl | hst
      · exact ⟨fun hf => (by cases hf), fun a _ heq => (by cases heq)⟩
      · exact .of_unchanged (by simp) hst
  | upload a => exact wp_map (wp_mono (upload_spec a) fun _ _ h hfresh => h.byDesign hs hfresh)
  | download requestSess fid =>
      exact wp_map (wp_mono (download_spec requestSess fid)
        fun _ _ h _ => .of_unchanged (by simp) h.quiet.stores)

/-! ## Every reachable state -/

theorem sound_of_run (env : Env) (calls : List ServiceCall) :
    Sound env (final (serviceStep env) (World.empty b) calls) := by
  refine trace_induction (P := fun _ w => Sound env w) (sound_empty env) ?_ calls
  intro is c hs
  rcases perform_spec env (final (serviceStep env) (World.empty b) is) c with
    hk | ⟨a, res, rfl, hup⟩
  · exact hs.kept hk
  · exact hs.upload hup

end SecureFileTransfer
