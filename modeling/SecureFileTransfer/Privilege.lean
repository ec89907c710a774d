import SecureFileTransfer.AccountSteps
import SecureFileTransfer.ServerRuns

/-!
# Privilege — administrators over the network

No frame makes or unmakes an administrator, one of them stays active, and a status changes only on
behalf of an active administrator.  The runs start in any state of the server that has an active
administrator; the process may be restarted on the way.
-/

namespace SecureFileTransfer

open Prog Service Handler Runs

/-! ## Administrators -/

section Users

variable {b : Backend} {env : Env} {w w' : World b}

/-- A user with this id exists and has the role of an administrator. -/
def AdminUser (w : World b) (id : UserId) : Prop :=
  ∃ u, b.users.findById w.users id = .ok (some u) ∧ u.id = id ∧ u.isAdmin = true

/-- Some administrator is active. -/
def ActiveAdmin (w : World b) : Prop :=
  ∃ id u, b.users.findById w.users id = .ok (some u) ∧ u.isAdmin = true ∧ u.isActive = true

/-- The user is found again with the same status. -/
def StatusKept (w' : World b) (id : UserId) (u : User) : Prop :=
  ∃ u', b.users.findById w'.users id = .ok (some u') ∧ u'.status = u.status

/-- A rewrite that leaves id and role alone makes and unmakes no administrator. -/
theorem adminUser_rewrites {id uid : UserId} {g : User → User}
    (hrw : b.users.Rewrites uid g w.users w'.users)
    (hg : ∀ v, (g v).id = v.id ∧ (g v).role = v.role) : AdminUser w' id ↔ AdminUser w id := by
  have hrewrite : ∀ v, (User.rewrite uid g v).id = v.id ∧
      (User.rewrite uid g v).isAdmin = v.isAdmin := by
    intro v
    unfold User.rewrite User.isAdmin
    split
    · exact ⟨(hg v).1, by rw [(hg v).2]⟩
    · exact ⟨rfl, rfl⟩
  constructor
  · rintro ⟨u', hu', hid, hadmin⟩
    obtain ⟨u, hu, rfl⟩ := hrw.exists_of_findById hu'
    exact ⟨u, hu, (hrewrite u).1 ▸ hid, (hrewrite u).2 ▸ hadmin⟩
  · rintro ⟨u, hu, hid, hadmin⟩
    exact ⟨_, hrw.findById_some hu, (hrewrite u).1.trans hid, (hrewrite u).2.trans hadmin⟩

/-- A new user with another role is no administrator. -/
theorem adminUser_adds {id : UserId} {user : User} {encoded : Bytes}
    (hadds : b.users.Adds b.text user encoded w.users w'.users)
    (hrole : b.text user.role ≠ ascii "admin") : AdminUser w' id ↔ AdminUser w id := by
  constructor
  · rintro ⟨u', hu', hid, hadmin⟩
    rw [hadds.findById] at hu'
    split at hu'
    · -- the row that is found is the new one, with the role it was saved with
      cases hnew : user.stored b.text with
      | error e =>
          rw [hnew] at hu'
          cases hu'
      | ok v =>
          rw [hnew] at hu'
          obtain rfl : v = u' := Option.some.inj (Except.ok.inj hu')
          have hv : v.role = b.text user.role := (User.fields_of_new hnew).2.2.2.1
          rw [User.isAdmin, hv] at hadmin
          exact absurd (eq_of_beq hadmin) hrole
    · exact ⟨u', hu', hid, hadmin⟩
  · rintro ⟨u, hu, hid, hadmin⟩
    exact ⟨u, hadds.findById_some hu, hid, hadmin⟩

/-- Of two counted users with distinct ids, one is not the given user. -/
theorem exists_other_of_countP {us : List User} {p : User → Bool} (id : UserId)
    (hnodup : (us.map User.id).Nodup) (hcount : 2 ≤ us.countP p) :
    ∃ v ∈ us, p v = true ∧ v.id ≠ id := by
  by_contra hnone
  -- then every counted user has the one id
  have hall : ∀ i ∈ (us.filter p).map User.id, i = id := by
    intro i hi
    obtain ⟨v, hv, rfl⟩ := List.mem_map.1 hi
    obtain ⟨hmem, hp⟩ := List.mem_filter.1 hv
    by_contra hne
    exact hnone ⟨v, hmem, hp, hne⟩
  have hreplicate := List.eq_replicate_of_mem hall
  have hsub : ((us.filter p).map User.id).Nodup := hnodup.sublist (List.filter_sublist.map _)
  rw [hreplicate, List.nodup_replicate, List.length_map, ← List.countP_eq_length_filter] at hsub
  omega

/-! ## One call -/

/-- A registration that does not ask for the role of an administrator. -/
def Unprivileged (b : Backend) : ServiceCall → Prop
  | .registerUser _ _ _ role => b.text role ≠ ascii "admin"
  | _ => True

theorem AccountStep.adminUser {c : ServiceCall} (h : AccountStep env w w' c)
    (hc : Unprivileged b c) (id : UserId) : AdminUser w' id ↔ AdminUser w id := by
  cases h with
  | kept users _ => rw [AdminUser, AdminUser, users]
  | registered role_eq _ adds _ => exact adminUser_adds adds (role_eq ▸ hc)
  | counted _ lockout rewrites _ =>
      refine adminUser_rewrites rewrites fun v => ?_
      obtain ⟨l, n, hg⟩ := lockout v
      rw [hg]
      exact ⟨rfl, rfl⟩
  | opened _ _ rewrites _ _ => exact adminUser_rewrites rewrites fun _ => ⟨rfl, rfl⟩
  | loggedOut users _ => rw [AdminUser, AdminUser, users]
  | activated _ _ rewrites _ => exact adminUser_rewrites rewrites fun _ => ⟨rfl, rfl⟩
  | deactivated _ _ _ rewrites _ => exact adminUser_rewrites rewrites fun _ => ⟨rfl, rfl⟩

/-- A rewrite that deactivates nobody keeps an active administrator. -/
theorem ActiveAdmin.rewrites {uid : UserId} {g : User → User} (h : ActiveAdmin w)
    (hrw : b.users.Rewrites uid g w.users w'.users)
    (hg : ∀ v, (g v).role = v.role ∧ (v.isActive = true → (g v).isActive = true)) :
    ActiveAdmin w' := by
  obtain ⟨id, u, hu, hadmin, hactive⟩ := h
  refine ⟨id, _, hrw.findById_some hu, ?_, ?_⟩
  · unfold User.rewrite User.isAdmin
    split
    · rw [(hg u).1]
      exact hadmin
    · exact hadmin
  · unfold User.rewrite
    split
    · exact (hg u).2 hactive
    · exact hactive

/-- The guard of `deactivate` leaves an active administrator. -/
theorem ActiveAdmin.deactivated {tgt : UserId} {user : User} {g : User → User} (h : ActiveAdmin w)
    (found : b.users.findById w.users tgt = .ok (some user)) (notLast : NotLastAdmin w user)
    (hrw : b.users.Rewrites user.id g w.users w'.users) : ActiveAdmin w' := by
  obtain ⟨id, u, hu, hadmin, hactive⟩ := h
  by_cases hid : u.id = user.id
  · -- the target is an active administrator itself: the guard has counted another one
    have huser := b.users_accounts.findById_text found
    have hu' := b.users_accounts.findById_text hu
    rw [hid, huser] at hu'
    obtain rfl : user = u := Option.some.inj (Except.ok.inj hu')
    obtain ⟨us, hus, hcount⟩ := notLast (by rw [hadmin, hactive]; rfl)
    obtain ⟨hmem, hnodup⟩ := b.users_accounts.listAll hus
    obtain ⟨v, hv, hboth, hne⟩ := exists_other_of_countP user.id hnodup hcount
    rw [Bool.and_eq_true] at hboth
    exact ⟨v.id, v, hrw.findById_of_ne (hmem v hv) hne, hboth⟩
  · exact ⟨id, u, hrw.findById_of_ne hu hid, hadmin, hactive⟩

theorem AccountStep.activeAdmin {c : ServiceCall} (h : AccountStep env w w' c)
    (hadmin : ActiveAdmin w) : ActiveAdmin w' := by
  cases h with
  | kept users _ =>
      rw [ActiveAdmin, users]
      exact hadmin
  | registered _ _ adds _ =>
      obtain ⟨id, u, hu, hboth⟩ := hadmin
      exact ⟨id, u, adds.findById_some hu, hboth⟩
  | counted _ lockout rewrites _ =>
      refine hadmin.rewrites rewrites fun v => ?_
      obtain ⟨l, n, hg⟩ := lockout v
      rw [hg]
      exact ⟨rfl, fun hv => hv⟩
  | opened _ _ rewrites _ _ => exact hadmin.rewrites rewrites fun _ => ⟨rfl, fun hv => hv⟩
  | loggedOut users _ =>
      rw [ActiveAdmin, users]
      exact hadmin
  | activated _ _ rewrites _ =>
      exact hadmin.rewrites rewrites fun _ =>
        ⟨rfl, fun _ => by simp [User.setStatus, User.isActive]⟩
  -- the only step that can take an administrator away is the guarded one
  | deactivated _ found notLast rewrites _ => exact hadmin.deactivated found notLast rewrites

/-- The call administers an account on behalf of an active administrator. -/
inductive Administers (env : Env) (w : World b) : ServiceCall → Prop
  | activate {token tgt} (admin : AdminSession env w token) : Administers env w (.activate token tgt)
  | deactivate {token tgt} (admin : AdminSession env w token) :
      Administers env w (.deactivate token tgt)
  | activateById {admin tgt} : Administers env w (.activateById admin tgt)
  | deactivateById {admin tgt} : Administers env w (.deactivateById admin tgt)

theorem statusKept_rewrites {id uid : UserId} {g : User → User} {u : User}
    (hrw : b.users.Rewrites uid g w.users w'.users) (hg : ∀ v, (g v).status = v.status)
    (hu : b.users.findById w.users id = .ok (some u)) : StatusKept w' id u := by
  refine ⟨_, hrw.findById_some hu, ?_⟩
  unfold User.rewrite
  split
  · exact hg u
  · rfl

theorem AccountStep.status {c : ServiceCall} (h : AccountStep env w w' c) {id : UserId} {u : User}
    (hu : b.users.findById w.users id = .ok (some u)) : StatusKept w' id u ∨ Administers env w c := by
  cases h with
  | kept users _ => exact .inl ⟨u, by rw [users]; exact hu, rfl⟩
  | registered _ _ adds _ => exact .inl ⟨u, adds.findById_some hu, rfl⟩
  | counted _ lockout rewrites _ =>
      refine .inl (statusKept_rewrites rewrites (fun v => ?_) hu)
      obtain ⟨l, n, hg⟩ := lockout v
      rw [hg]
      rfl
  | opened _ _ rewrites _ _ => exact .inl (statusKept_rewrites rewrites (fun _ => rfl) hu)
  | loggedOut users _ => exact .inl ⟨u, by rw [users]; exact hu, rfl⟩
  | activated call _ _ _ =>
      rcases call with ⟨token, rfl, hadmin⟩ | ⟨admin, rfl⟩
      · exact .inr (.activate hadmin)
      · exact .inr .activateById
  | deactivated call _ _ _ _ =>
      rcases call with ⟨token, rfl, hadmin⟩ | ⟨admin, rfl⟩
      · exact .inr (.deactivate hadmin)
      · exact .inr .deactivateById

end Users

/-! ## One event -/

variable {env : Env} {s s' : ServerState} {ev : ServerEvent} {out : Output}

/-- The calls a frame can make. -/
def FrameCall (f : Frame) : ServiceCall → Prop
  | .registerUser _ _ _ role => role = ascii "user"
  | .activate token tgt => f.type = .ADMIN_ACTIVATE ∧
      decodeAdmin f.body = .ok { token := token.value, targetId := tgt.value }
  | .deactivate token tgt => f.type = .ADMIN_DEACTIVATE ∧
      decodeAdmin f.body = .ok { token := token.value, targetId := tgt.value }
  | .activateById _ _ => False
  | .deactivateById _ _ => False
  | _ => True

theorem FrameCall.unprivileged {f : Frame} {c : ServiceCall} (h : FrameCall f c) :
    Unprivileged .sqlite c := by
  cases c with
  | registerUser u email pw role =>
      obtain rfl : role = ascii "user" := h
      show cstr (ascii "user") ≠ ascii "admin"
      decide
  | _ => trivial

theorem Handled.account {f : Frame} {w : World .sqlite} {c : Conn} {r : Except Exn Unit}
    {hd : Handling} (h : Handled env f w c r hd) :
    ∃ call, FrameCall f call ∧ AccountStep env w hd.world call := by
  -- any call without a say in the accounts stands for the frames that keep them
  have quiet : ∀ {w'}, Quiet w w' → ∃ call, FrameCall f call ∧ AccountStep env w w' call :=
    fun hq => ⟨.logout ⟨[]⟩, trivial, .of_stores hq.stores⟩
  cases h with
  | refused hq _ => exact quiet hq
  | listed => exact quiet (Quiet.refl w)
  | registered _ _ run =>
      exact ⟨.registerUser _ _ _ (ascii "user"), rfl, of_wp (registerUser_account _ _ _ _) run⟩
  | authenticated _ _ run =>
      exact ⟨.login _ _, trivial, (of_wp (login_spec _ _) run).account⟩
  | loggedOut _ run => exact ⟨.logout _, trivial, (of_wp (logout_spec _) run).account⟩
  | logoutThrew _ run => exact ⟨.logout _, trivial, (of_wp (logout_spec _) run).account⟩
  | administered type decoded run =>
      unfold adminAction at run
      rcases type with htype | htype
      · rw [if_pos htype] at run
        exact ⟨.activate _ _, ⟨htype, decoded⟩, of_wp (activate_account _ _) run⟩
      · rw [if_neg (by rw [htype]; decide)] at run
        exact ⟨.deactivate _ _, ⟨htype, decoded⟩, of_wp (deactivate_account _ _) run⟩
  | announced _ _ _ _ hq => exact quiet hq
  | appended _ _ _ _ => exact quiet (Quiet.refl w)
  | committed _ _ _ _ _ hq run =>
      obtain ⟨husers, hsessions⟩ := (of_wp (upload_spec _) run).accounts_eq
      exact ⟨.logout ⟨[]⟩, trivial, .kept (husers.trans (congrArg Stores.users hq.stores :))
        (hsessions.trans (congrArg Stores.sessions hq.stores :))⟩
  | downloaded _ _ run => exact quiet (of_wp (download_spec _ _) run).quiet

/-- A restart registers an administrator only where there is no user. -/
theorem boot_users {w : World .sqlite} (hadmin : ActiveAdmin w) (u e p : Bytes) :
    wp (boot env u e p) (fun _ w' => w'.users = w.users) w := by
  unfold boot
  rw [wp_bind, wp_modifyGet, wpBind_ok]
  refine wp_query_bind rfl (fun _ w₁ h₁ => (congrArg Stores.users h₁.stores :))
    fun users w₁ h₁ husers => ?_
  have h₁' : w₁.users = w.users := (congrArg Stores.users h₁.stores :)
  refine wp_ite (fun hnew => ?_) fun _ => h₁'
  -- there is a user, so the first-run prompt is skipped
  obtain ⟨id, v, hv, -⟩ := hadmin
  have hmem : v ∈ users := Backend.sqlite.users_accounts.mem_listAll husers hv
  rw [List.isEmpty_iff.1 hnew.1] at hmem
  cases hmem

/-- The event is a frame that administers an account, and its token is a valid session of an
active administrator. -/
def AdminFrame (env : Env) (w : World .sqlite) (ev : ServerEvent) : Prop :=
  ∃ f pl, ev = .frame f ∧ (f.type = .ADMIN_ACTIVATE ∨ f.type = .ADMIN_DEACTIVATE) ∧
    decodeAdmin f.body = .ok pl ∧ AdminSession env w ⟨pl.token⟩

/-- What an event leaves of the privileges. -/
structure PrivilegeKept (env : Env) (w w' : World .sqlite) (ev : ServerEvent) : Prop where
  admins : ∀ id, AdminUser w' id ↔ AdminUser w id
  active : ActiveAdmin w'
  status : ∀ id u, Backend.sqlite.users.findById w.users id = .ok (some u) →
    StatusKept w' id u ∨ AdminFrame env w ev

theorem PrivilegeKept.of_users {w w' : World .sqlite} (h : w'.users = w.users)
    (hadmin : ActiveAdmin w) : PrivilegeKept env w w' ev where
  admins id := by rw [AdminUser, AdminUser, h]
  active := by
    rw [ActiveAdmin, h]
    exact hadmin
  status id u hu := .inl ⟨u, by rw [h]; exact hu, rfl⟩

theorem Handled.privilege {f : Frame} {w : World .sqlite} {c : Conn} {r : Except Exn Unit}
    {hd : Handling} (h : Handled env f w c r hd) (hadmin : ActiveAdmin w) :
    PrivilegeKept env w hd.world (.frame f) := by
  obtain ⟨call, hcall, hstep⟩ := h.account
  refine ⟨hstep.adminUser hcall.unprivileged, hstep.activeAdmin hadmin, fun id u hu => ?_⟩
  refine (hstep.status hu).imp_right fun hadm => ?_
  cases hadm with
  | activate session => exact ⟨f, _, rfl, .inl hcall.1, hcall.2, session⟩
  | deactivate session => exact ⟨f, _, rfl, .inr hcall.1, hcall.2, session⟩
  | activateById => exact hcall.elim
  | deactivateById => exact hcall.elim

theorem Served.privilege (h : Served env s ev out s') (hadmin : ActiveAdmin s.world) :
    PrivilegeKept env s.world s'.world ev := by
  cases h with
  | booted run => exact .of_users (of_wp (boot_users hadmin _ _ _) run) hadmin
  | bootThrew run => exact .of_users (of_wp (boot_users hadmin _ _ _) run) hadmin
  | accepted _ => exact .of_users rfl hadmin
  | handled _ handled => exact handled.privilege hadmin
  | dropped _ handled => exact handled.privilege hadmin
  | hungup _ => exact .of_users rfl hadmin
  | keyed _ => exact .of_users rfl hadmin
  | ignored => exact .of_users rfl hadmin

/-! ## Every run -/

/-- The privileges along a run that starts in `s₀`. -/
structure PrivilegeInvariant (env : Env) (s₀ : ServerState) (evs : List ServerEvent) : Prop where
  admins : ∀ id, AdminUser (final (serverStep env) s₀ evs).world id ↔ AdminUser s₀.world id
  active : ActiveAdmin (final (serverStep env) s₀ evs).world
  status : ∀ t ∈ trace (serverStep env) s₀ evs, ∀ id u,
    Backend.sqlite.users.findById t.before.world.users id = .ok (some u) →
      StatusKept t.after.world id u ∨ AdminFrame env t.before.world t.input

theorem privilege_invariant_of_run (env : Env) (s₀ : ServerState) (hadmin : ActiveAdmin s₀.world)
    (evs : List ServerEvent) : PrivilegeInvariant env s₀ evs := by
  -- the step lemma needs an active administrator, which the induction carries along
  induction evs using List.reverseRecOn with
  | nil => exact ⟨fun _ => Iff.rfl, hadmin, fun t ht => by cases ht⟩
  | append_singleton evs ev ih =>
      have hstep := (serverStep_served env (final (serverStep env) s₀ evs) ev).privilege ih.active
      refine ⟨fun id => ?_, ?_, fun t ht => ?_⟩
      · rw [final_concat]
        exact (hstep.admins id).trans (ih.admins id)
      · rw [final_concat]
        exact hstep.active
      · rw [trace_concat] at ht
        rcases List.mem_append.1 ht with hold | hnew
        · exact ih.status t hold
        · obtain rfl := List.mem_singleton.1 hnew
          exact hstep.status

/-- A server whose first boot registered an administrator. -/
def rootBooted : ServerState :=
  (serverStep Env.counting ServerState.initial
    (.boot (ascii "root") (ascii "r@x") (ascii "password"))).2

/-- The administrator logs in and tries to deactivate its own, the only administrator's, account;
then it deactivates that of a new user. -/
def administration : List ServerEvent :=
  [ .accept,
    .frame { type := .AUTH, requestId := 1, body := encodeLogin ⟨ascii "root", ascii "password"⟩ },
    .frame
      { type := .ADMIN_DEACTIVATE
        requestId := 2
        body := encodeAdmin
          ⟨(sessionToken (Env.counting.randomToken 0)).value,
            (generateUserId (Env.counting.randomId 0)).value⟩ },
    .frame
      { type := .REGISTER
        requestId := 3
        body := encodeRegister ⟨ascii "alice", ascii "a@x", ascii "password"⟩ },
    .frame
      { type := .ADMIN_DEACTIVATE
        requestId := 4
        body := encodeAdmin
          ⟨(sessionToken (Env.counting.randomToken 0)).value,
            (generateUserId (Env.counting.randomId 1)).value⟩ } ]

set_option maxRecDepth 100000 in
theorem privilege_invariant_administration :
    ((final (serverStep Env.counting) rootBooted administration).world.user?
      (generateUserId (Env.counting.randomId 1))).map User.status = some (ascii "inactive") ∧
    PrivilegeInvariant Env.counting rootBooted administration := by
  refine ⟨by decide +kernel, privilege_invariant_of_run _ _ ?_ _⟩
  have hroot : (rootBooted.world.user? (generateUserId (Env.counting.randomId 0))).any
      (fun u => u.isAdmin && u.isActive) = true := by
    decide +kernel
  obtain ⟨u, hu, hboth⟩ := (Option.any_eq_true _ _).1 hroot
  rw [Bool.and_eq_true] at hboth
  exact ⟨generateUserId (Env.counting.randomId 0), u, World.user?_eq_some.1 hu, hboth⟩

end SecureFileTransfer
