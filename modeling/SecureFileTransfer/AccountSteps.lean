import SecureFileTransfer.Accounts
import SecureFileTransfer.StoreConsistency

/-!
# AccountSteps — what a service call does to users and sessions

`AccountStep` lists, call by call, every way the user directory and the session store can change.
A call that is not listed, or that ends early, keeps both.
-/

namespace SecureFileTransfer

open Prog Service

variable {b : Backend} {env : Env} {w w₀ w' : World b}

/-- The user with this id, if the repository finds one. -/
def World.user? (w : World b) (id : UserId) : Option User :=
  (b.users.findById w.users id).toOption.join

theorem World.user?_eq_some {id : UserId} {u : User} :
    w.user? id = some u ↔ b.users.findById w.users id = .ok (some u) := by
  unfold World.user?
  rcases b.users.findById w.users id with e | (_ | v)
  · simp [Except.toOption]
  · simp [Except.toOption]
  · simp [Except.toOption]

/-! ## Who may administer -/

/-- The token is a valid session of an active administrator. -/
structure AdminSession (env : Env) (w : World b) (token : SessionId) : Prop where
  valid : w.sessions.isValid token (env.clock w.clockReads) = true
  admin : ∃ id u, w.sessions.userFor token = .ok id ∧ b.users.findById w.users id = .ok (some u) ∧
    u.isAdmin = true ∧ u.isActive = true

theorem isAdmin_admits (id : UserId) :
    wp (isAdmin env id) (fun r _ => r = .ok true →
      ∃ u, b.users.findById w.users id = .ok (some u) ∧ u.isAdmin = true ∧ u.isActive = true) w := by
  unfold isAdmin
  refine wp_query_bind rfl (fun e _ _ h => by cases h) fun found w₁ _ hfound => ?_
  cases found with
  | none => exact fun h => by cases h
  | some u =>
      refine fun h => ⟨u, hfound, ?_⟩
      have hboth : (u.isAdmin && u.isActive) = true := Except.ok.inj h
      simpa using hboth

/-- What `isAdminSession` found when it names an administrator. -/
theorem isAdminSession_admits (token : SessionId) :
    wp (isAdminSession env token) (fun r _ => ∀ id, r = .ok (some id) →
      AdminSession env w token ∧ w.sessions.userFor token = .ok id) w := by
  unfold isAdminSession
  refine wp_nowMs_bind fun w₁ h₁ _ => ?_
  refine wp_query_bind rfl (fun e _ _ _ h => by cases h) fun valid w₂ h₂ hvalid => ?_
  have h₁₂ := h₁.trans h₂
  refine wp_ite (fun _ _ h => by cases h) fun hv => ?_
  refine wp_query_bind rfl (fun e _ _ _ h => by cases h) fun sess w₃ h₃ hsess => ?_
  have h₁₃ := h₁₂.trans h₃
  cases sess with
  | none => exact fun _ h => by cases h
  | some s =>
      refine wp_query_bind rfl (fun e _ _ _ h => by cases h) fun user w₄ h₄ _ => ?_
      have h₁₄ := h₁₃.trans h₄
      cases user with
      | none => exact fun _ h => by cases h
      | some u =>
          refine wp_ite (fun _ _ h => by cases h) fun _ => ?_
          rw [wp_bind]
          refine wp_mono (isAdmin_admits s.userId) ?_
          rintro (e | ok) w₅ hadmin
          · exact fun _ h => by cases h
          rw [wpBind_ok]
          refine wp_ite (fun hok => ?_) fun _ _ h => by cases h
          intro id hid
          obtain rfl : s.userId = id := Option.some.inj (Except.ok.inj hid)
          subst hok
          -- all the reads are of one state: nothing was written in between
          obtain ⟨v, hv', hboth⟩ := hadmin rfl
          rw [show w₁.sessions = w.sessions from congrArg Stores.sessions h₁.stores] at hvalid
          rw [show w₂.sessions = w.sessions from congrArg Stores.sessions h₁₂.stores] at hsess
          rw [show w₄.users = w.users from congrArg Stores.users h₁₄.stores] at hv'
          have huser := MemorySessionStore.userFor_eq_ok (Except.ok.inj hsess)
          refine ⟨⟨?_, s.userId, v, huser, hv', hboth⟩, huser⟩
          rw [Except.ok.inj hvalid]
          simpa using hv

/-- The user is not the last active administrator. -/
def NotLastAdmin (w : World b) (u : User) : Prop :=
  (u.isAdmin && u.isActive) = true → ∃ us, b.users.listAll w.users = .ok us ∧
    2 ≤ us.countP fun v => v.isAdmin && v.isActive

theorem isLastAdmin_spec (u : User) :
    wp (isLastAdmin env u) (fun r w' => Quiet w w' ∧ (r = .ok false → NotLastAdmin w u)) w := by
  unfold isLastAdmin
  refine wp_ite (fun _ => ?_) fun hnot => ?_
  · rw [countActiveAdmins, wp_bind]
    refine wp_query_bind rfl (fun e w₁ h₁ => ⟨h₁, fun h => by cases h⟩) fun us w₁ h₁ hus => ?_
    refine ⟨h₁, fun h _ => ⟨us, hus, ?_⟩⟩
    have hcount := of_decide_eq_false (Except.ok.inj h)
    omega
  · exact ⟨Quiet.refl w, fun _ h => absurd h hnot⟩

/-! ## The change of one call -/

/-- How a call changes the users and the sessions. -/
inductive AccountStep (env : Env) (w w' : World b) : ServiceCall → Prop
  | kept {c} (users : w'.users = w.users) (sessions : w'.sessions = w.sessions) :
      AccountStep env w w' c
  | registered {u email pw role user encoded} (role_eq : user.role = role)
      (active : user.isActive = true) (adds : b.users.Adds b.text user encoded w.users w'.users)
      (sessions : w'.sessions = w.sessions) : AccountStep env w w' (.registerUser u email pw role)
  /-- A failure was counted, or the counter was reset and then no session opened. -/
  | counted {u pw user g} (found : b.users.findById w.users user.id = .ok (some user))
      (lockout : ∀ v, ∃ l n, g v = User.setLockout v l n)
      (rewrites : b.users.Rewrites user.id g w.users w'.users)
      (sessions : w'.sessions = w.sessions) : AccountStep env w w' (.login u pw)
  | opened {u pw user} (found : b.users.findById w.users user.id = .ok (some user))
      (active : user.isActive = true)
      (rewrites : b.users.Rewrites user.id (·.setLockout 0 0) w.users w'.users)
      (sessions : w.sessions.createForUser (env.randomToken w.tokens) user.id
        (env.clock w.clockReads) = .ok w'.sessions)
      (tokens : w'.tokens = w.tokens + 1) : AccountStep env w w' (.login u pw)
  | loggedOut {tok} (users : w'.users = w.users)
      (sessions : w'.sessions = w.sessions.invalidate tok) : AccountStep env w w' (.logout tok)
  | activated {c tgt user} (call : (∃ token, c = .activate token tgt ∧ AdminSession env w token) ∨
        ∃ admin, c = .activateById admin tgt)
      (found : b.users.findById w.users tgt = .ok (some user))
      (rewrites : b.users.Rewrites user.id (·.setStatus (ascii "active")) w.users w'.users)
      (sessions : w'.sessions = w.sessions) : AccountStep env w w' c
  /-- The sessions are those of the target, or the store threw when it was asked to revoke them. -/
  | deactivated {c tgt user}
      (call : (∃ token, c = .deactivate token tgt ∧ AdminSession env w token) ∨
        ∃ admin, c = .deactivateById admin tgt)
      (found : b.users.findById w.users tgt = .ok (some user)) (notLast : NotLastAdmin w user)
      (rewrites : b.users.Rewrites user.id (·.setStatus (ascii "inactive")) w.users w'.users)
      (sessions : w'.sessions = w.sessions.invalidateAllForUser tgt ∨
        (w'.sessions = w.sessions ∧ ∃ e, Threw env .invalidateAllForUser w w' e)) :
      AccountStep env w w' c

theorem AccountStep.of_stores {c : ServiceCall} (h : w'.toStores = w.toStores) :
    AccountStep env w w' c :=
  .kept (congrArg Stores.users h) (congrArg Stores.sessions h)

/-! ## AuthService -/

/-- How `registerUser` ends, with all it saves. -/
inductive RegisterSaved (env : Env) (u email pw role : Bytes) (w : World b) :
    Except Exn (Result UserId) → World b → Prop
  | refused {r w'} (failed : Failed r) (stores : w'.toStores = w.toStores) :
      RegisterSaved env u email pw role w r w'
  | saved {r w' id n user users} (zeroFree : (0 : UInt8) ∉ id.value)
      (drawn : id = generateUserId (env.randomId w.ids))
      (new : User.new id u email role (ascii "active") 0 0 = .ok user)
      (write : b.users.save user (env.hash n pw) w.users = .ok users)
      (stores : w'.toStores = w.toStores.withUsers users)
      (result : r = .ok (.success id) ∨ ∃ e, r = .error e ∧ Threw env (.record .REGISTER_OK) w w' e) :
      RegisterSaved env u email pw role w r w'

theorem registerUser_saves (u email pw role : Bytes) :
    wp (registerUser env u email pw role) (RegisterSaved env u email pw role w) w := by
  have refused : ∀ {r w'}, Failed r → w'.toStores = w.toStores →
      RegisterSaved env u email pw role w r w' := .refused
  unfold registerUser
  refine wp_ite (fun _ => refused (failed_failure _) rfl) fun _ => ?_
  have htaken : Steps Quiet (nameOrMailTaken (b := b) env u email) :=
    quiet_bind quiet_query fun _ =>
      Steps.ite (quiet_pure _) (quiet_bind quiet_query fun _ => quiet_pure _)
  refine wp_quiet_bind htaken (fun e _ hq => refused (failed_error e) hq.stores) fun taken w₁ h₁ => ?_
  refine wp_ite (fun _ => ?_) fun _ => ?_
  · exact wp_record_failure fun r w' hr hq => refused hr (h₁.trans hq).stores
  rw [wp_bind]
  refine wp_query (fun e _ => refused (failed_error e) h₁.tick.stores) ?_
  rw [wpBind_ok]
  refine wp_newId_bind fun w₃ hstores _ _ hcalls => ?_
  have hstores₃ : w₃.toStores = w.toStores := hstores.trans h₁.tick.stores
  rw [wp_bind, wp_outcome]
  cases hnew : User.new (generateUserId (env.randomId w₁.tick.ids)) u email role (ascii "active") 0 0 with
  -- a user without name or mail cannot be built
  | error e => exact refused (failed_error e) hstores₃
  | ok nu =>
      rw [wpBind_ok, wp_bind, wp_tryCatch]
      -- a `save` that throws is caught, and nothing was saved
      refine wp_writeUsers_bind (fun e w₄ h₄ => ?_) fun users w₄ hsave hst₄ hidle₄ => ?_
      · exact wp_record_failure fun r w' hr hq => refused hr ((h₄.trans hq).stores.trans hstores₃)
      · rw [wp_pure, wpCatch_ok, wpBind_ok]
        refine wp_record_success fun r w' hq hr => ?_
        rw [show w₃.users = w.users from congrArg Stores.users hstores₃] at hsave
        have hdrawn :
            generateUserId (env.randomId w₁.tick.ids) = generateUserId (env.randomId w.ids) := by
          rw [h₁.tick.ids]
        refine .saved (zero_not_mem_generateUserId _) hdrawn hnew hsave
          (by rw [hq.stores, hst₄, hstores₃]) ?_
        have hcalls₄ : w.calls ≤ w₄.calls := h₁.tick.calls.trans (hcalls.trans hidle₄.calls)
        exact hr.imp_right fun ⟨e, hr, hthrew⟩ => ⟨e, hr, hthrew.mono hcalls₄ le_rfl⟩

theorem registerUser_account (u email pw role : Bytes) :
    wp (registerUser env u email pw role)
      (fun _ w' => AccountStep env w w' (.registerUser u email pw role)) w := by
  refine wp_mono (registerUser_saves u email pw role) fun r w' h => ?_
  cases h with
  | refused _ stores => exact .of_stores stores
  | @saved id n user users _ _ new write stores _ =>
      obtain ⟨-, -, -, hrole, hstatus⟩ := User.fields_of_new new
      have husers : w'.users = users := congrArg Stores.users stores
      exact .registered hrole (by simp [User.isActive, hstatus])
        (husers ▸ b.users_accounts.save write) (congrArg Stores.sessions stores :)

theorem LoginOutcome.account {u pw : Bytes} {r : Except Exn (Result SessionId)}
    (h : LoginOutcome env u pw w r w') : AccountStep env w w' (.login u pw) := by
  cases h with
  | refused _ stores _ => exact .of_stores stores
  | @counted user users now _ found write stores _ =>
      have hfound := b.users_lawful.findById_of_findByUsername found
      have husers : w'.users = users := congrArg Stores.users stores
      -- a wrong password, or a right one whose session could not be created
      rcases write with hwrite | hwrite
      · obtain ⟨s', hs', hrw⟩ := b.users_accounts.recordLoginFailure now hfound
        obtain rfl : users = s' := Except.ok.inj (hwrite.symm.trans hs')
        exact .counted hfound (fun v => ⟨_, _, rfl⟩) (husers ▸ hrw) (congrArg Stores.sessions stores :)
      · obtain ⟨s', hs', hrw⟩ := b.users_accounts.resetLoginFailures hfound
        obtain rfl : users = s' := Except.ok.inj (hwrite.symm.trans hs')
        exact .counted hfound (fun v => ⟨_, _, rfl⟩) (husers ▸ hrw) (congrArg Stores.sessions stores :)
  | @opened user users st admitted write create stores _ tokens _ _ =>
      have hfound := b.users_lawful.findById_of_findByUsername admitted.found
      have hactive : user.isActive = true := by
        have hcan := admitted.canLogin
        simp only [User.canLogin, Bool.and_eq_true] at hcan
        exact hcan.1
      obtain ⟨s', hs', hrw⟩ := b.users_accounts.resetLoginFailures hfound
      obtain rfl : users = s' := Except.ok.inj (write.symm.trans hs')
      have husers : w'.users = users := congrArg Stores.users stores
      have hsessions : w'.sessions = st := (congrArg Stores.sessions stores :)
      exact .opened hfound hactive (husers ▸ hrw) (hsessions ▸ create) tokens

theorem LogoutOutcome.account {tok : SessionId} {r : Except Exn Bool}
    (h : LogoutOutcome env tok w r w') : AccountStep env w w' (.logout tok) := by
  cases h with
  | unknown _ stores _ => exact .of_stores stores
  | revoked stores _ _ => exact .loggedOut (congrArg Stores.users stores :) (congrArg Stores.sessions stores :)

/-! ## AdminService -/

/-- Rule for the session overloads: the action is taken for an active administrator only. -/
theorem wp_asAdminSession_admin {token : SessionId} {tgt : UserId}
    {action : UserId → Service b (Result UserId)} {P : Except Exn (Result UserId) → World b → Prop}
    (hdenied : ∀ r w', Quiet w w' → P r w')
    (haction : ∀ adminId w₁, Quiet w w₁ → AdminSession env w token → wp (action adminId) P w₁) :
    wp (asAdminSession env token tgt action) P w := by
  unfold asAdminSession
  rw [wp_bind]
  refine wp_mono (wp_and (isAdminSession_spec token) (isAdminSession_admits token)) ?_
  rintro (e | admin) w₁ ⟨⟨h₁, -⟩, hadmin⟩
  · exact hdenied _ _ h₁
  cases admin with
  | none => exact wp_record_failure fun r w' _ hq => hdenied r w' (h₁.trans hq)
  | some adminId => exact haction adminId w₁ h₁ (hadmin adminId rfl).1

theorem active_zero_free : (0 : UInt8) ∉ ascii "active" := by decide

theorem inactive_zero_free : (0 : UInt8) ∉ ascii "inactive" := by decide

theorem ActivateOutcome.account {c : ServiceCall} {tgt : UserId} {r : Except Exn (Result UserId)}
    (h : ActivateOutcome env tgt w r w')
    (call : (∃ token, c = .activate token tgt ∧ AdminSession env w token) ∨
      ∃ admin, c = .activateById admin tgt) : AccountStep env w w' c := by
  cases h with
  | refused _ stores _ => exact .of_stores stores
  | @updated u users found write stores _ _ =>
      obtain ⟨s', hs', hrw⟩ := b.users_accounts.update found active_zero_free
      obtain rfl : users = s' := Except.ok.inj (write.symm.trans hs')
      have husers : w'.users = users := congrArg Stores.users stores
      exact .activated call found (husers ▸ hrw) (congrArg Stores.sessions stores :)

theorem deactivateAs_guard (adminId tgt : UserId) :
    wp (deactivateAs env adminId tgt) (fun _ w' => w'.toStores = w.toStores ∨
      ∃ u, b.users.findById w.users tgt = .ok (some u) ∧ NotLastAdmin w u) w := by
  unfold deactivateAs
  refine wp_query_bind rfl (fun e _ hq => .inl hq.stores) fun found w₁ h₁ hfound => ?_
  cases found with
  | none => exact .inl h₁.stores
  | some u =>
      rw [wp_bind]
      refine wp_mono (isLastAdmin_spec u) ?_
      rintro (e | last) w₂ ⟨h₂, hlast⟩
      · exact .inl (h₁.trans h₂).stores
      rw [wpBind_ok]
      -- past the guard, whatever the rest of the call does
      refine wp_ite (fun _ => .inl (h₁.trans h₂).stores) fun hnot => wp_of_forall fun _ _ => ?_
      have hlast' := hlast (congrArg Except.ok (by simpa using hnot))
      rw [NotLastAdmin, show w₁.users = w.users from congrArg Stores.users h₁.stores] at hlast'
      exact .inr ⟨u, hfound, hlast'⟩

theorem DeactivateOutcome.account {c : ServiceCall} {tgt : UserId} {r : Except Exn (Result UserId)}
    (h : DeactivateOutcome env tgt w r w')
    (guard : w'.toStores = w.toStores ∨
      ∃ u, b.users.findById w.users tgt = .ok (some u) ∧ NotLastAdmin w u)
    (call : (∃ token, c = .deactivate token tgt ∧ AdminSession env w token) ∨
      ∃ admin, c = .deactivateById admin tgt) : AccountStep env w w' c := by
  rcases guard with hst | ⟨u₀, hfound₀, hlast⟩
  · exact .of_stores hst
  have rewritten : ∀ {u users}, b.users.findById w.users tgt = .ok (some u) →
      b.users.update (u.setStatus (ascii "inactive")) w.users = .ok users → w'.users = users →
      NotLastAdmin w u ∧ b.users.Rewrites u.id (·.setStatus (ascii "inactive")) w.users w'.users := by
    intro u users found write husers
    obtain ⟨s', hs', hrw⟩ := b.users_accounts.update found inactive_zero_free
    obtain rfl : users = s' := Except.ok.inj (write.symm.trans hs')
    obtain rfl : u₀ = u := Option.some.inj (Except.ok.inj (hfound₀.symm.trans found))
    exact ⟨hlast, husers ▸ hrw⟩
  cases h with
  | refused _ stores _ => exact .of_stores stores
  | halfway found write stores _ fault =>
      obtain ⟨hlast', hrw⟩ := rewritten found write (congrArg Stores.users stores :)
      exact .deactivated call found hlast' hrw (.inr ⟨(congrArg Stores.sessions stores :), _, fault⟩)
  | updated found write stores _ _ =>
      obtain ⟨hlast', hrw⟩ := rewritten found write (congrArg Stores.users stores :)
      exact .deactivated call found hlast' hrw (.inl (congrArg Stores.sessions stores :))

theorem activate_account (token : SessionId) (tgt : UserId) :
    wp (activate env token tgt) (fun _ w' => AccountStep env w w' (.activate token tgt)) w :=
  wp_asAdminSession_admin (fun _ _ hq => .of_stores hq.stores) fun adminId _ h₁ hadmin =>
    wp_mono (activateAs_spec h₁ adminId tgt) fun _ _ h => h.account (.inl ⟨token, rfl, hadmin⟩)

/-- The check of the last administrator looks at the state before the call. -/
theorem deactivateAs_account {c : ServiceCall} (h₀ : Quiet w₀ w) (adminId tgt : UserId)
    (call : (∃ token, c = .deactivate token tgt ∧ AdminSession env w₀ token) ∨
      ∃ admin, c = .deactivateById admin tgt) :
    wp (deactivateAs env adminId tgt) (fun _ w' => AccountStep env w₀ w' c) w := by
  refine wp_mono (wp_and (deactivateAs_spec h₀ adminId tgt) (deactivateAs_guard adminId tgt)) ?_
  rintro r w' ⟨h, guard⟩
  have husers : w.users = w₀.users := congrArg Stores.users h₀.stores
  refine h.account (guard.imp (fun hst => hst.trans h₀.stores) ?_) call
  rintro ⟨u, hfound, hlast⟩
  rw [husers] at hfound
  rw [NotLastAdmin, husers] at hlast
  exact ⟨u, hfound, hlast⟩

theorem deactivate_account (token : SessionId) (tgt : UserId) :
    wp (deactivate env token tgt) (fun _ w' => AccountStep env w w' (.deactivate token tgt)) w :=
  wp_asAdminSession_admin (fun _ _ hq => .of_stores hq.stores) fun adminId _ h₁ hadmin =>
    deactivateAs_account h₁ adminId tgt (.inl ⟨token, rfl, hadmin⟩)

theorem activateById_account (admin tgt : UserId) :
    wp (activateById env admin tgt) (fun _ w' => AccountStep env w w' (.activateById admin tgt)) w :=
  wp_mono (activateById_spec admin tgt) fun _ _ h => h.account (.inr ⟨admin, rfl⟩)

theorem deactivateById_account (admin tgt : UserId) :
    wp (deactivateById env admin tgt)
      (fun _ w' => AccountStep env w w' (.deactivateById admin tgt)) w :=
  wp_asAdmin (fun _ _ _ hq => .of_stores hq.stores) fun adminId _ h₁ =>
    deactivateAs_account h₁ adminId tgt (.inr ⟨admin, rfl⟩)

/-! ## Every call -/

/-- An upload touches neither users nor sessions. -/
theorem UploadOutcome.accounts_eq {a : UploadArgs} {r : Except Exn (Result Transfer)}
    (h : UploadOutcome env a w r w') : w'.users = w.users ∧ w'.sessions = w.sessions := by
  cases h with
  | refused _ _ stores _ | withdrawn stores _ _ | orphaned stores _ _ _ _ | stored _ _ _ stores _ _ _ =>
      exact ⟨(congrArg Stores.users stores :), (congrArg Stores.sessions stores :)⟩

/-- What a call does to the users and the sessions. -/
theorem perform_account (env : Env) (w : World b) (c : ServiceCall) :
    wp (perform env c) (fun _ w' => AccountStep env w w' c) w := by
  cases c with
  | registerUser u email pw role => exact wp_map (registerUser_account u email pw role)
  | login u pw => exact wp_map (wp_mono (login_spec u pw) fun _ _ h => h.account)
  | logout tok => exact wp_map (wp_mono (logout_spec tok) fun _ _ h => h.account)
  | activate adminToken tgt => exact wp_map (activate_account adminToken tgt)
  | deactivate adminToken tgt => exact wp_map (deactivate_account adminToken tgt)
  | activateById admin tgt => exact wp_map (activateById_account admin tgt)
  | deactivateById admin tgt => exact wp_map (deactivateById_account admin tgt)
  | savePubkey uid pub =>
      exact wp_map (wp_saveKey (fun _ => .of_stores rfl) fun _ => .kept rfl rfl)
  | upload a =>
      exact wp_map (wp_mono (upload_spec a) fun _ _ h => .kept h.accounts_eq.1 h.accounts_eq.2)
  | download requestSess fid =>
      exact wp_map (wp_mono (download_spec requestSess fid) fun _ _ h => .of_stores h.quiet.stores)

/-! ## The token generator never goes back -/

theorem RegisterOutcome.tokens_le {u : Bytes} {r : Except Exn (Result UserId)}
    (h : RegisterOutcome env u w r w') : w.tokens ≤ w'.tokens := by
  cases h with
  | refused _ _ later => exact later.tokens
  | saved _ _ _ _ later _ => exact later.tokens

theorem LoginOutcome.tokens_le {u pw : Bytes} {r : Except Exn (Result SessionId)}
    (h : LoginOutcome env u pw w r w') : w.tokens ≤ w'.tokens := by
  cases h with
  | refused _ _ later => exact later.tokens
  | counted _ _ _ _ later => exact later.tokens
  | opened _ _ _ _ _ tokens _ _ => exact tokens ▸ Nat.le_succ _

theorem LogoutOutcome.tokens_le {tok : SessionId} {r : Except Exn Bool}
    (h : LogoutOutcome env tok w r w') : w.tokens ≤ w'.tokens := by
  cases h with
  | unknown _ _ later => exact later.tokens
  | revoked _ later _ => exact later.tokens

theorem ActivateOutcome.tokens_le {tgt : UserId} {r : Except Exn (Result UserId)}
    (h : ActivateOutcome env tgt w r w') : w.tokens ≤ w'.tokens := by
  cases h with
  | refused _ _ later => exact later.tokens
  | updated _ _ _ later _ => exact later.tokens

theorem DeactivateOutcome.tokens_le {tgt : UserId} {r : Except Exn (Result UserId)}
    (h : DeactivateOutcome env tgt w r w') : w.tokens ≤ w'.tokens := by
  cases h with
  | refused _ _ later => exact later.tokens
  | halfway _ _ _ later _ => exact later.tokens
  | updated _ _ _ later _ => exact later.tokens

theorem UploadOutcome.tokens_le {a : UploadArgs} {r : Except Exn (Result Transfer)}
    (h : UploadOutcome env a w r w') : w.tokens ≤ w'.tokens := by
  cases h with
  | refused _ _ _ later => exact later.tokens
  | withdrawn _ later _ => exact later.tokens
  | orphaned _ later _ _ _ => exact later.tokens
  | stored _ _ _ _ _ tokens _ => exact tokens.ge

theorem perform_tokens (env : Env) (w : World b) (c : ServiceCall) :
    wp (perform env c) (fun _ w' => w.tokens ≤ w'.tokens) w := by
  cases c with
  | registerUser u email pw role =>
      exact wp_map (wp_mono (registerUser_spec u email pw role) fun _ _ h => h.tokens_le)
  | login u pw => exact wp_map (wp_mono (login_spec u pw) fun _ _ h => h.tokens_le)
  | logout tok => exact wp_map (wp_mono (logout_spec tok) fun _ _ h => h.tokens_le)
  | activate adminToken tgt =>
      exact wp_map (wp_mono (activate_spec adminToken tgt) fun _ _ h => h.1.tokens_le)
  | deactivate adminToken tgt =>
      exact wp_map (wp_mono (deactivate_spec adminToken tgt) fun _ _ h => h.1.tokens_le)
  | activateById admin tgt =>
      exact wp_map (wp_mono (activateById_spec admin tgt) fun _ _ h => h.tokens_le)
  | deactivateById admin tgt =>
      exact wp_map (wp_mono (deactivateById_spec admin tgt) fun _ _ h => h.tokens_le)
  | savePubkey uid pub => exact wp_map (wp_saveKey (fun _ => le_rfl) fun _ => le_rfl)
  | upload a => exact wp_map (wp_mono (upload_spec a) fun _ _ h => h.tokens_le)
  | download requestSess fid =>
      exact wp_map (wp_mono (download_spec requestSess fid) fun _ _ h => h.quiet.tokens.ge)

end SecureFileTransfer
