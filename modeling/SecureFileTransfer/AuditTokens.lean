import SecureFileTransfer.LoginTrace

/-!
# AuditTokens — session tokens and the audit log

Every entry is made of the name of its action, arguments of the call and ids that were generated,
with one exception: an upload or a download that is refused for its session enters the session
argument itself.
-/

namespace SecureFileTransfer

open Prog Service Runs

variable {b : Backend} {env : Env} {w w₁ w₂ w' : World b} {tok : Bytes}

/-! ## Events -/

/-- The texts of an event. -/
def AuditEvent.texts (e : AuditEvent) : List Bytes :=
  [e.ts, e.actor, e.action, e.fileId, e.cipherHash, e.prevHash, e.msgHash]

/-- A field of the event equals or contains the string. -/
def AuditEvent.Mentions (e : AuditEvent) (s : Bytes) : Prop := ∃ text ∈ e.texts, s <:+: text

instance AuditEvent.decidableMentions (e : AuditEvent) (s : Bytes) : Decidable (e.Mentions s) :=
  inferInstanceAs (Decidable (∃ text ∈ e.texts, s <:+: text))

/-- The same environment with an audit logger that never throws. -/
def Env.recording (env : Env) : Env where
  clock := env.clock
  randomId := env.randomId
  randomToken := env.randomToken
  hash := env.hash
  verify := env.verify
  fault
    | .record _, _ => none
    | c, n => env.fault c n

/-- The events a call passes to the audit logger.  Recording is the last thing a call does, so a
logger that throws was passed what one that does not throw keeps. -/
def handed (env : Env) (w : World b) (c : ServiceCall) : List AuditEvent :=
  (perform env.recording c w).2.audit.drop w.audit.length

/-- The arguments of a call that it may record, other than a session. -/
def ServiceCall.recordedArgs : ServiceCall → List Bytes
  | .registerUser u _ _ _ => [u]
  | .login u _ => [u]
  | .activate _ tgt => [tgt.value]
  | .deactivate _ tgt => [tgt.value]
  | .activateById admin tgt => [admin.value, tgt.value]
  | .deactivateById admin tgt => [admin.value, tgt.value]
  | .download _ fid => [fid.value]
  | _ => []

/-- The session a transfer is asked for in. -/
def ServiceCall.transferSession? : ServiceCall → Option SessionId
  | .upload a => some a.senderSess
  | .download requestSess _ => some requestSess
  | _ => none

/-- The call is a transfer refused for its session, and its session argument contains the string. -/
def Refuses (env : Env) (tok : Bytes) (w : World b) (c : ServiceCall) : Prop :=
  ∃ sess ∈ c.transferSession?, tok <:+: sess.value ∧ env.fault .isValid w.calls = none ∧
    w.sessions.isValid sess (env.clock w.clockReads) = false

instance Refuses.decidable (env : Env) (tok : Bytes) (w : World b) (c : ServiceCall) :
    Decidable (Refuses env tok w c) :=
  inferInstanceAs (Decidable (∃ sess ∈ c.transferSession?, _))

/-! ## What a call adds to the log -/

/-- The log grew by events that do not mention the string. -/
def Logs (tok : Bytes) (w w' : World b) : Prop :=
  ∃ new, w'.audit = w.audit ++ new ∧ ∀ e ∈ new, ¬ e.Mentions tok

theorem Logs.of_audit (h : w'.audit = w.audit) : Logs tok w w' := ⟨[], by simp [h], by simp⟩

theorem Logs.refl (w : World b) : Logs tok w w := .of_audit rfl

theorem Logs.trans (h₁ : Logs tok w w₁) (h₂ : Logs tok w₁ w₂) : Logs tok w w₂ := by
  obtain ⟨new₁, haudit₁, hnew₁⟩ := h₁
  obtain ⟨new₂, haudit₂, hnew₂⟩ := h₂
  refine ⟨new₁ ++ new₂, by rw [haudit₂, haudit₁, List.append_assoc], fun e he => ?_⟩
  exact (List.mem_append.1 he).elim (hnew₁ e) (hnew₂ e)

/-- A token is longer than an id and than the name of an action. -/
theorem not_infix_of_length {s : Bytes} (htok : 36 < tok.length) (hs : s.length ≤ 36) :
    ¬ tok <:+: s := by
  intro h
  have hle := h.length_le
  omega

theorem length_action_le (action : AuditAction) : action.text.length ≤ 36 := by
  cases action <;> decide

theorem not_mentions_of {action : AuditAction} {actor fileId : Bytes} (htok : 36 < tok.length)
    (hactor : ¬ tok <:+: actor) (hfile : ¬ tok <:+: fileId) :
    ¬ ({ actor := actor, action := action.text, fileId := fileId } : AuditEvent).Mentions tok := by
  have hempty : ¬ tok <:+: [] := not_infix_of_length htok (by simp)
  have haction := not_infix_of_length htok (length_action_le action)
  simp only [AuditEvent.Mentions, AuditEvent.texts, List.mem_cons, List.not_mem_nil, or_false,
    exists_eq_or_imp, exists_eq_left, hempty, hactor, haction, hfile, or_self, not_false_eq_true]

section Rules

variable {α β : Type} {c : Call}

theorem logs_bind {x : Service b α} {k : α → Service b β} (hx : Steps (Logs tok) x)
    (hk : ∀ a, Steps (Logs tok) (k a)) : Steps (Logs tok) (x >>= k) :=
  Steps.bind (fun h₁ h₂ => h₁.trans h₂) hx hk

theorem logs_tryCatch {x : Service b α} {h : Exn → Service b α} (hx : Steps (Logs tok) x)
    (hh : ∀ e, Steps (Logs tok) (h e)) : Steps (Logs tok) (tryCatch x h) :=
  Steps.tryCatch (fun h₁ h₂ => h₁.trans h₂) hx hh

theorem logs_pure (a : α) : Steps (Logs tok) (pure a : Service b α) := Steps.pure Logs.refl a

theorem logs_query {f : World b → Except Exn α} : Steps (Logs tok) (query env c f) := by
  intro w
  exact wp_query (Q := fun _ w' => Logs tok w w') (fun _ _ => .of_audit rfl) (.of_audit rfl)

/-- A write of a store records nothing. -/
theorem logs_write {f : World b → Except Exn (World b)}
    (hf : ∀ w w', f w = .ok w' → w'.audit = w.audit) : Steps (Logs tok) (write env c f) := by
  intro w
  exact wp_write (Q := fun _ w' => Logs tok w w') (fun _ _ => .of_audit rfl)
    (fun _ _ => .of_audit rfl) fun w' h => .of_audit (hf w.tick w' h)

/-- A write of what a repository answers, if it answers. -/
theorem logs_write_map {γ : Type} {f : World b → Except Exn γ} {put : World b → γ → World b}
    (hput : ∀ w x, (put w x).audit = w.audit) :
    Steps (Logs tok) (write env c fun w => (f w).map (put w)) := by
  refine logs_write fun w w' h => ?_
  cases hf : f w with
  | error e =>
      rw [hf] at h
      cases h
  | ok x =>
      rw [hf] at h
      cases h
      exact hput w x

theorem logs_writeUsers {f : b.users.State → Except Exn b.users.State} :
    Steps (Logs tok) (writeUsers env c f) := logs_write_map fun _ _ => rfl

theorem logs_modifyGet {f : World b → α × World b} (hf : ∀ w, (f w).2.audit = w.audit) :
    Steps (Logs tok) (modifyGet f : Service b α) := fun w => .of_audit (hf w)

theorem logs_record {action : AuditAction} {actor fileId : Bytes} (htok : 36 < tok.length)
    (hactor : ¬ tok <:+: actor) (hfile : ¬ tok <:+: fileId) :
    Steps (Logs tok) (record (b := b) env action actor fileId) := by
  intro w
  refine wp_write (Q := fun _ w' => Logs tok w w') (fun _ _ => .of_audit rfl)
    (fun _ h => by cases h) fun w' h => ?_
  cases h
  refine ⟨_, rfl, fun e he => ?_⟩
  rw [List.mem_singleton.1 he]
  exact not_mentions_of htok hactor hfile

end Rules

/-! ## AuthService and AdminService -/

theorem not_infix_generateUserId (htok : 36 < tok.length) (random : RandomBytes 16) :
    ¬ tok <:+: (generateUserId random).value :=
  not_infix_of_length htok (length_generateUserId random).le

theorem logs_record_failure {α : Type} {action : AuditAction} {actor fileId t : Bytes}
    (htok : 36 < tok.length) (hactor : ¬ tok <:+: actor) (hfile : ¬ tok <:+: fileId) :
    Steps (Logs tok) (record env action actor fileId >>= fun _ =>
      (pure (.failure t) : Service b (Result α))) :=
  logs_bind (logs_record htok hactor hfile) fun _ => logs_pure _

section Calls

variable {α : Type} {u : Bytes} {token : SessionId} {tgt : UserId}

theorem logs_registerUser (htok : 36 < tok.length) (hu : ¬ tok <:+: u) (email pw role : Bytes) :
    Steps (Logs tok) (registerUser (b := b) env u email pw role) := by
  have hnil : ¬ tok <:+: [] := not_infix_of_length htok (by simp)
  have hsystem : ¬ tok <:+: ascii "system" := not_infix_of_length htok (by decide)
  have htaken : Steps (Logs tok) (nameOrMailTaken (b := b) env u email) :=
    logs_bind logs_query fun _ =>
      Steps.ite (logs_pure _) (logs_bind logs_query fun _ => logs_pure _)
  have hrefused : Steps (Logs tok) (record (b := b) env .REGISTER_FAIL (ascii "system") >>= fun _ =>
      (pure (.failure (ascii "Registration failed")) : Service b (Result UserId))) :=
    logs_record_failure htok hsystem hnil
  refine Steps.ite (logs_pure _) ?_
  refine logs_bind htaken fun _ => Steps.ite hrefused ?_
  refine logs_bind logs_query fun encoded => ?_
  refine logs_bind (logs_modifyGet fun _ => rfl) fun id => ?_
  refine logs_bind (Steps.outcome Logs.refl _) fun nu => ?_
  have hsave : Steps (Logs tok) (tryCatch (do saveUser (b := b) env nu encoded; return true)
      fun _ => return false) :=
    logs_tryCatch (logs_bind logs_writeUsers fun _ => logs_pure _) fun _ => logs_pure _
  refine logs_bind hsave fun _ => Steps.ite ?_ hrefused
  exact logs_bind (logs_record htok hu hnil) fun _ => logs_pure _

theorem logs_login (htok : 36 < tok.length) (hu : ¬ tok <:+: u) (pw : Bytes) :
    Steps (Logs tok) (login (b := b) env u pw) := by
  have hnil : ¬ tok <:+: [] := not_infix_of_length htok (by simp)
  have hfailed : Steps (Logs tok) (loginFailed (b := b) env u) := logs_record_failure htok hu hnil
  refine logs_bind (logs_modifyGet fun _ => rfl) fun now => logs_bind logs_query fun found => ?_
  cases found with
  | none => exact hfailed
  | some user =>
      refine Steps.ite hfailed (logs_bind logs_query fun _ => logs_bind logs_query fun _ => ?_)
      refine Steps.ite (logs_bind logs_writeUsers fun _ => hfailed) ?_
      refine logs_bind logs_writeUsers fun _ => ?_
      -- the new token is returned and stored under its hash; the entry has the name only
      have hcreate : Steps (Logs tok) (createForUser (b := b) env user.id now) :=
        (createForUser_frame user.id now).mono fun w w' ⟨_, _, _, h⟩ => .of_audit (by rw [h])
      exact logs_bind hcreate fun _ => logs_bind (logs_record htok hu hnil) fun _ => logs_pure _

theorem logs_logout (htok : 36 < tok.length) (token : SessionId) :
    Steps (Logs tok) (logout (b := b) env token) := by
  have hnil : ¬ tok <:+: [] := not_infix_of_length htok (by simp)
  have hinvalidate : Steps (Logs tok) (invalidate (b := b) env token) := by
    refine logs_bind (fun w => ?_) fun _ => logs_modifyGet fun _ => rfl
    exact wp_call (Q := fun _ w' => Logs tok w w') (fun _ _ => .of_audit rfl) fun _ => .of_audit rfl
  refine logs_bind hinvalidate fun _ => Steps.ite ?_ (logs_pure _)
  exact logs_bind (logs_record htok hnil hnil) fun _ => logs_pure _

theorem logs_isAdmin (id : UserId) : Steps (Logs tok) (isAdmin (b := b) env id) := by
  refine logs_bind logs_query fun found => ?_
  cases found with
  | none => exact logs_pure _
  | some u => exact logs_pure _

theorem logs_isAdminSession (token : SessionId) :
    Steps (Logs tok) (isAdminSession (b := b) env token) := by
  refine logs_bind (logs_modifyGet fun _ => rfl) fun now => logs_bind logs_query fun valid => ?_
  refine Steps.ite (logs_pure _) (logs_bind logs_query fun sess => ?_)
  cases sess with
  | none => exact logs_pure _
  | some s =>
      refine logs_bind logs_query fun user => ?_
      cases user with
      | none => exact logs_pure _
      | some u =>
          refine Steps.ite (logs_pure _) (logs_bind (logs_isAdmin _) fun ok => ?_)
          exact Steps.ite (logs_pure _) (logs_pure _)

theorem logs_activateAs (htok : 36 < tok.length) (htgt : ¬ tok <:+: tgt.value) {adminId : UserId}
    (hadmin : ¬ tok <:+: adminId.value) : Steps (Logs tok) (activateAs (b := b) env adminId tgt) := by
  refine logs_bind logs_query fun found => ?_
  cases found with
  | none => exact logs_pure _
  | some u =>
      refine logs_bind logs_writeUsers fun _ => ?_
      exact logs_bind (logs_record htok hadmin htgt) fun _ => logs_pure _

theorem logs_deactivateAs (htok : 36 < tok.length) (htgt : ¬ tok <:+: tgt.value) {adminId : UserId}
    (hadmin : ¬ tok <:+: adminId.value) :
    Steps (Logs tok) (deactivateAs (b := b) env adminId tgt) := by
  refine logs_bind logs_query fun found => ?_
  cases found with
  | none => exact logs_pure _
  | some u =>
      have hlast : Steps (Logs tok) (isLastAdmin (b := b) env u) :=
        Steps.ite (logs_bind (logs_bind logs_query fun _ => logs_pure _) fun _ => logs_pure _)
          (logs_pure _)
      refine logs_bind hlast fun _ => Steps.ite (logs_pure _) ?_
      refine logs_bind logs_writeUsers fun _ => logs_bind (logs_write ?_) fun _ => ?_
      · intro w w' h
        cases h
        rfl
      · exact logs_bind (logs_record htok hadmin htgt) fun _ => logs_pure _

/-- The deprecated overloads record the administrator they are given. -/
theorem logs_asAdmin (htok : 36 < tok.length) {admin : UserId} (hadmin : ¬ tok <:+: admin.value)
    {action : UserId → Service b (Result UserId)} (haction : Steps (Logs tok) (action admin)) :
    Steps (Logs tok) (asAdmin env admin action) :=
  logs_bind (logs_isAdmin _) fun _ => Steps.ite haction
    (logs_record_failure htok hadmin (not_infix_of_length htok (by simp)))

end Calls

/-! ## Ids -/

/-- Every id of a user, and of the user of a session, was generated. -/
structure GeneratedIds (w : World b) : Prop where
  users : ∀ id, b.users.Present w.users id → ∃ random, id = generateUserId random
  sessions : ∀ k s, w.sessions.byHash.lookup k = some s → ∃ random, s.userId = generateUserId random

theorem generatedIds_empty : GeneratedIds (World.empty b) where
  users id hp := absurd hp (not_present_empty id)
  sessions k s hs := by cases hs

theorem GeneratedIds.userFor (h : GeneratedIds w) {token : SessionId} {id : UserId}
    (huser : w.sessions.userFor token = .ok id) : ∃ random, id = generateUserId random := by
  unfold MemorySessionStore.userFor at huser
  cases hs : w.sessions.findByToken token with
  | none =>
      rw [hs] at huser
      cases huser
  | some s =>
      rw [hs] at huser
      cases huser
      exact h.sessions _ s hs

/-- Only a registration adds users. -/
theorem AccountStep.present {c : ServiceCall} (h : AccountStep env w w' c)
    (hc : ∀ u email pw role, c ≠ .registerUser u email pw role) {id : UserId}
    (hp : b.users.Present w'.users id) : b.users.Present w.users id := by
  have rewritten : ∀ {uid : UserId} {g : User → User}, b.users.Rewrites uid g w.users w'.users →
      (∀ v, (g v).id = v.id) → b.users.Present w.users id := by
    intro uid g hrw hg
    obtain ⟨u, hu, hid⟩ := hp
    obtain ⟨v, hv, rfl⟩ := hrw.exists_of_findById hu
    refine ⟨v, hv, ?_⟩
    rw [← hid, User.rewrite]
    split
    · exact (hg v).symm
    · rfl
  cases h with
  | kept users _ => exact users ▸ hp
  | registered => exact absurd rfl (hc _ _ _ _)
  | counted _ lockout rewrites _ =>
      refine rewritten rewrites fun v => ?_
      obtain ⟨l, n, hv⟩ := lockout v
      rw [hv]
      rfl
  | opened _ _ rewrites _ _ => exact rewritten rewrites fun _ => rfl
  | loggedOut users _ => exact users ▸ hp
  | activated _ _ rewrites _ => exact rewritten rewrites fun _ => rfl
  | deactivated _ _ _ rewrites _ => exact rewritten rewrites fun _ => rfl

theorem perform_present (env : Env) (w : World b) (c : ServiceCall) :
    wp (perform env c) (fun _ w' => ∀ id, b.users.Present w'.users id →
      b.users.Present w.users id ∨ ∃ random, id = generateUserId random) w := by
  have others : (∀ u email pw role, c ≠ .registerUser u email pw role) →
      wp (perform env c) (fun _ w' => ∀ id, b.users.Present w'.users id →
        b.users.Present w.users id ∨ ∃ random, id = generateUserId random) w :=
    fun hc => wp_mono (perform_account env w c) fun _ _ h _ hp => .inl (h.present hc hp)
  cases c with
  | registerUser u email pw role =>
      refine wp_map (wp_mono (registerUser_spec u email pw role) fun _ w' h id hp => ?_)
      cases h with
      | refused _ stores _ => exact .inl (congrArg Stores.users stores ▸ hp)
      | saved _ new write stores _ _ =>
          rw [show w'.users = _ from congrArg Stores.users stores] at hp
          refine (b.users_lawful.new_of_save write ?_ hp).imp_right fun hid => ⟨_, hid.trans new⟩
          rw [new]
          exact zero_not_mem_generateUserId _
  | _ => exact others (by simp)

theorem GeneratedIds.perform (h : GeneratedIds w) (env : Env) (c : ServiceCall) :
    wp (perform env c) (fun _ w' => GeneratedIds w') w := by
  refine wp_mono (wp_and (perform_present env w c) (perform_spec env w c)) ?_
  rintro r w' ⟨hpresent, hspec⟩
  have husers : ∀ id, b.users.Present w'.users id → ∃ random, id = generateUserId random :=
    fun id hp => (hpresent id hp).elim (h.users id) fun hid => hid
  refine ⟨husers, fun k s hs => ?_⟩
  rcases hspec with hk | ⟨a, res, rfl, hup⟩
  · -- a session is one of a user, or belongs to whom it belonged before
    rcases hk.sessions k s hs with hp | ⟨s₀, hs₀, hid⟩
    · exact husers s.userId hp
    · exact hid ▸ h.sessions k s₀ hs₀
  · rw [hup.accounts_eq.2] at hs
    exact h.sessions k s hs

/-! ## Calls in a session -/

section Sessions

variable {sess token : SessionId} {tgt : UserId}

/-- The session overloads record the administrator their session belongs to. -/
theorem logs_asAdminSession (htok : 36 < tok.length) (hgen : GeneratedIds w)
    (htgt : ¬ tok <:+: tgt.value) {action : UserId → Service b (Result UserId)}
    (haction : ∀ {adminId : UserId}, ¬ tok <:+: adminId.value → Steps (Logs tok) (action adminId)) :
    wp (asAdminSession env token tgt action) (fun _ w' => Logs tok w w') w := by
  have hcheck : Steps (Logs tok) (isAdminSession (b := b) env token) := logs_isAdminSession token
  unfold asAdminSession
  rw [wp_bind]
  refine wp_mono (wp_and (hcheck.wp w) (isAdminSession_admits token)) ?_
  rintro (e | admin) w₁ ⟨h₁, hadmin⟩
  · exact h₁
  cases admin with
  | none =>
      have hnil : ¬ tok <:+: [] := not_infix_of_length htok (by simp)
      have hdenied : Steps (Logs tok) (record env .ADMIN_DENIED [] tgt.value >>= fun _ =>
          (pure (.failure (ascii "Admin denied")) : Service b (Result UserId))) :=
        logs_record_failure htok hnil htgt
      exact wp_mono (hdenied.wp w₁) fun _ _ h => h₁.trans h
  | some adminId =>
      obtain ⟨random, rfl⟩ := hgen.userFor (hadmin adminId rfl).2
      have hrun := haction (not_infix_generateUserId htok random)
      exact wp_mono (hrun.wp w₁) fun _ _ h => h₁.trans h

/-- Rule for the check that opens a transfer: the clock is read, then the session is asked for. -/
theorem wp_transferGate {α : Type} {refusal rest : Service b α} {Q : Except Exn α → World b → Prop}
    (hfault : ∀ e w₁, w₁.audit = w.audit → env.fault .isValid w.calls = some e → Q (.error e) w₁)
    (hrefusal : ∀ w₁, w₁.audit = w.audit → env.fault .isValid w.calls = none →
      w.sessions.isValid sess (env.clock w.clockReads) = false → wp refusal Q w₁)
    (hrest : ∀ w₁, w₁.audit = w.audit → w₁.sessions = w.sessions →
      w.sessions.isValid sess (env.clock w.clockReads) = true → wp rest Q w₁) :
    wp (nowMs env >>= fun now => isValid env sess now >>= fun valid =>
      if (!valid) = true then refusal else rest) Q w := by
  rw [wp_bind, nowMs, wp_modifyGet, wpBind_ok, wp_bind, Service.isValid, query, wp_bind]
  refine wp_call (fun e h => hfault e _ rfl h) fun hanswers => ?_
  rw [wpBind_ok, wp_ask]
  show wpBind _ _ (.ok (w.sessions.isValid sess (env.clock w.clockReads))) _
  rw [wpBind_ok]
  refine wp_ite (fun hv => ?_) fun hv => ?_
  · exact hrefusal _ rfl hanswers (by simpa using hv)
  · exact hrest _ rfl rfl (by simpa using hv)

theorem wp_of_logs {α : Type} {x : Service b α} (haudit : w₁.audit = w.audit)
    (hx : Steps (Logs tok) x) : wp x (fun _ w' => Logs tok w w') w₁ :=
  wp_mono (hx.wp w₁) fun _ _ h => Logs.trans (.of_audit haudit) h

theorem logs_storeUpload (htok : 36 < tok.length) {a : UploadArgs} {senderId : UserId}
    (hsender : ¬ tok <:+: senderId.value) (recipientId : UserId) :
    Steps (Logs tok) (storeUpload (b := b) env a senderId recipientId) := by
  intro w
  show wp (storeUpload env a senderId recipientId) (fun _ w' => Logs tok w w') w
  unfold storeUpload
  -- the first id that is drawn is that of the file
  rw [wp_bind, newId, wp_modifyGet, wpBind_ok]
  have hfile := not_infix_generateUserId htok (env.randomId w.ids)
  refine wp_of_logs rfl ?_
  refine logs_bind (logs_modifyGet fun _ => rfl) fun storage => ?_
  refine logs_bind (logs_modifyGet fun _ => rfl) fun now => ?_
  refine logs_bind (logs_write fun w w' h => by cases h; rfl) fun _ => ?_
  have hsave : ∀ fr, Steps (Logs tok) (tryCatch (saveFile (b := b) env fr) fun e => do
      tryCatch (removeStaged env fr.storageId) fun _ => return ()
      throw e) := by
    intro fr
    refine logs_tryCatch (logs_write_map fun _ _ => rfl) fun e => ?_
    refine logs_bind (logs_tryCatch (logs_write fun w w' h => ?_) fun _ => logs_pure _) fun _ => ?_
    · cases h
      rfl
    · exact Steps.throw Logs.refl e
  refine logs_bind (hsave _) fun _ => ?_
  refine logs_bind (logs_modifyGet fun _ => rfl) fun transferId => ?_
  have htransfer : ∀ t, Steps (Logs tok) (tryCatch (saveTransfer (b := b) env t) fun _ => return ()) :=
    fun t => logs_tryCatch (logs_write_map fun _ _ => rfl) fun _ => logs_pure _
  refine logs_bind (htransfer _) fun _ => ?_
  exact logs_bind (logs_record htok hsender hfile) fun _ => logs_pure _

theorem logs_checkUpload (htok : 36 < tok.length) {a : UploadArgs}
    (hsess : ¬ Refuses env tok w (.upload a)) :
    wp (checkUpload env a) (fun _ w' => Logs tok w w') w := by
  refine wp_transferGate (fun e w₁ h₁ _ => .of_audit h₁) (fun w₁ h₁ hanswers hinvalid => ?_)
    fun w₁ h₁ _ _ => wp_of_logs h₁ ?_
  · have hactor : ¬ tok <:+: a.senderSess.value := fun hmem =>
      hsess ⟨a.senderSess, rfl, hmem, hanswers, hinvalid⟩
    refine wp_of_logs h₁ (logs_bind (logs_record htok hactor ?_) fun _ => Steps.throw Logs.refl _)
    exact not_infix_of_length htok (by simp)
  · -- the other refusals are not recorded
    refine logs_bind logs_query fun senderId => logs_bind logs_query fun found => ?_
    cases found with
    | none => exact Steps.throw Logs.refl _
    | some recipient =>
        refine logs_bind logs_query fun known => Steps.ite (Steps.throw Logs.refl _) ?_
        refine logs_bind (Steps.outcome Logs.refl _) fun _ => ?_
        exact Steps.ite (Steps.throw Logs.refl _) (logs_pure _)

theorem logs_upload (htok : 36 < tok.length) (hgen : GeneratedIds w) {a : UploadArgs}
    (hsess : ¬ Refuses env tok w (.upload a)) :
    wp (upload env a) (fun _ w' => Logs tok w w') w := by
  unfold upload
  rw [wp_bind]
  refine wp_mono (wp_and (logs_checkUpload htok hsess) (checkUpload_spec a)) ?_
  rintro (e | ⟨senderId, recipientId⟩) w₁ ⟨h₁, -, hadmitted⟩
  · exact h₁
  obtain ⟨s, hs, -, hid⟩ := (hadmitted _ rfl).session
  obtain ⟨random, hrandom⟩ := hgen.sessions _ s hs
  have hsender : ¬ tok <:+: senderId.value := by
    rw [show senderId = s.userId from hid.symm, hrandom]
    exact not_infix_generateUserId htok random
  have hstore : Steps (Logs tok) (existsUploadId (b := b) env a.uploadId >>= fun dup =>
      if dup then pure (.failure (ascii "duplicate upload_id"))
      else storeUpload env a senderId recipientId) :=
    logs_bind logs_query fun _ => Steps.ite (logs_pure _) (logs_storeUpload htok hsender _)
  exact wp_mono (hstore.wp w₁) fun _ _ h => h₁.trans h

theorem logs_download (htok : 36 < tok.length) (hgen : GeneratedIds w) {fid : FileId}
    (hfid : ¬ tok <:+: fid.value) (hsess : ¬ Refuses env tok w (.download sess fid)) :
    wp (download env sess fid) (fun _ w' => Logs tok w w') w := by
  refine wp_transferGate (fun e w₁ h₁ _ => .of_audit h₁) (fun w₁ h₁ hanswers hinvalid => ?_)
    fun w₁ h₁ hsess₁ _ => ?_
  · have hactor : ¬ tok <:+: sess.value := fun hmem =>
      hsess ⟨sess, rfl, hmem, hanswers, hinvalid⟩
    exact wp_of_logs h₁ (logs_bind (logs_record htok hactor hfid) fun _ => Steps.throw Logs.refl _)
  rw [wp_bind]
  refine wp_query (fun e _ => .of_audit h₁) ?_
  rw [show w₁.tick.sessions = w.sessions from hsess₁]
  cases huser : w.sessions.userFor sess with
  | error e => exact Logs.of_audit h₁
  | ok requestor =>
      obtain ⟨random, rfl⟩ := hgen.userFor huser
      have hrequestor := not_infix_generateUserId htok random
      rw [wpBind_ok]
      have haudit : w₁.tick.audit = w.audit := h₁
      refine wp_of_logs haudit (logs_bind logs_query fun found => ?_)
      cases found with
      | none => exact logs_pure _
      | some fr =>
          refine Steps.ite (logs_bind ?_ fun blob => ?_) ?_
          · exact logs_tryCatch (logs_bind logs_query fun _ => logs_pure _) fun _ => logs_pure _
          · cases blob with
            | error e => exact logs_pure _
            | ok o => exact logs_bind (logs_record htok hrequestor hfid) fun _ => logs_pure _
          · exact logs_record_failure htok hrequestor hfid

end Sessions

/-! ## Every call -/

/-- A call whose recorded arguments are free of the token records it only by refusing its session. -/
theorem perform_logs (htok : 36 < tok.length) (hgen : GeneratedIds w) {c : ServiceCall}
    (hargs : ∀ arg ∈ c.recordedArgs, ¬ tok <:+: arg) (hsess : ¬ Refuses env tok w c) :
    wp (perform env c) (fun _ w' => Logs tok w w') w := by
  cases c with
  | registerUser u email pw role =>
      exact wp_map ((logs_registerUser htok (hargs u (by simp [ServiceCall.recordedArgs])) _ _ _).wp w)
  | login u pw =>
      exact wp_map ((logs_login htok (hargs u (by simp [ServiceCall.recordedArgs])) _).wp w)
  | logout token => exact wp_map ((logs_logout htok token).wp w)
  | activate token tgt =>
      have htgt := hargs tgt.value (by simp [ServiceCall.recordedArgs])
      exact wp_map (logs_asAdminSession htok hgen htgt (logs_activateAs htok htgt))
  | deactivate token tgt =>
      have htgt := hargs tgt.value (by simp [ServiceCall.recordedArgs])
      exact wp_map (logs_asAdminSession htok hgen htgt (logs_deactivateAs htok htgt))
  | activateById admin tgt =>
      have hadmin := hargs admin.value (by simp [ServiceCall.recordedArgs])
      have htgt := hargs tgt.value (by simp [ServiceCall.recordedArgs])
      exact wp_map ((logs_asAdmin htok hadmin (logs_activateAs htok htgt hadmin)).wp w)
  | deactivateById admin tgt =>
      have hadmin := hargs admin.value (by simp [ServiceCall.recordedArgs])
      have htgt := hargs tgt.value (by simp [ServiceCall.recordedArgs])
      exact wp_map ((logs_asAdmin htok hadmin (logs_deactivateAs htok htgt hadmin)).wp w)
  | savePubkey uid pub =>
      exact wp_map (wp_saveKey (fun _ => .of_audit rfl) fun _ => .of_audit rfl)
  | upload a => exact wp_map (logs_upload htok hgen hsess)
  | download sess fid =>
      have hfid := hargs fid.value (by simp [ServiceCall.recordedArgs])
      exact wp_map (logs_download htok hgen hfid hsess)

theorem wp_record_recording {action : AuditAction} {actor fileId : Bytes}
    {Q : Except Exn Unit → World b → Prop}
    (hok : ∀ w', w'.audit =
      w.audit ++ [{ actor := actor, action := action.text, fileId := fileId }] → Q (.ok ()) w') :
    wp (record env.recording action actor fileId) Q w := by
  refine wp_write (fun e h => by cases h) (fun e h => by cases h) fun w' h => ?_
  cases h
  exact hok _ rfl

/-- A refused transfer passes its session argument to the logger, as the actor. -/
theorem handed_of_refuses {c : ServiceCall} (h : Refuses env tok w c) :
    ∃ e ∈ handed env w c, e.Mentions tok := by
  obtain ⟨sess, hsess, hmem, hanswers, hinvalid⟩ := h
  have refused : ∀ {α : Type} {refusal rest : Service b α} {Q : Except Exn α → World b → Prop},
      (∀ w₁, w₁.audit = w.audit → wp refusal Q w₁) →
      wp (nowMs env.recording >>= fun now => isValid env.recording sess now >>= fun valid =>
        if (!valid) = true then refusal else rest) Q w := by
    intro α refusal rest Q hrefusal
    refine wp_transferGate (fun e _ _ hthrows => ?_) (fun w₁ h₁ _ _ => hrefusal w₁ h₁)
      fun _ _ _ hvalid => ?_
    · cases (hanswers.symm.trans hthrows :)
    · cases (hinvalid.symm.trans hvalid :)
  have hlog : wp (perform env.recording c)
      (fun _ w' => ∃ e, e.Mentions tok ∧ w'.audit = w.audit ++ [e]) w := by
    have hentry : ∀ action fileId,
        ({ actor := sess.value, action := action, fileId := fileId } : AuditEvent).Mentions tok :=
      fun _ _ => ⟨sess.value, by simp [AuditEvent.texts], hmem⟩
    cases c with
    | upload a =>
        obtain rfl : a.senderSess = sess := Option.some.inj hsess
        refine wp_map ?_
        unfold upload
        rw [wp_bind]
        refine refused fun w₁ h₁ => ?_
        rw [wp_bind]
        exact wp_record_recording fun w' h' => ⟨_, hentry _ _, h₁ ▸ h'⟩
    | download requestSess fid =>
        obtain rfl : requestSess = sess := Option.some.inj hsess
        refine wp_map (refused fun w₁ h₁ => ?_)
        rw [wp_bind]
        exact wp_record_recording fun w' h' => ⟨_, hentry _ _, h₁ ▸ h'⟩
    | _ => cases hsess
  obtain ⟨e, hmentions, haudit⟩ := hlog
  exact ⟨e, by rw [handed, haudit]; simp, hmentions⟩

/-! ## Every run -/

/-- One of the tokens `createForUser` has drawn. -/
def IssuedToken (env : Env) (w : World b) (tok : Bytes) : Prop :=
  ∃ i < w.tokens, tok = (sessionToken (env.randomToken i)).value

/-- No event that is passed to the logger mentions the string, and none that the log holds. -/
structure Unlogged (env : Env) (tok : Bytes) (t : ServiceTransition b) : Prop where
  handed : ∀ e ∈ handed env t.before t.input, ¬ e.Mentions tok
  audit : ∀ e ∈ t.after.audit, ¬ e.Mentions tok

/-- The call is not given the string to record, and does not refuse a session that holds it. -/
structure Discreet (env : Env) (tok : Bytes) (w : World b) (c : ServiceCall) : Prop where
  args : ∀ arg ∈ c.recordedArgs, ¬ tok <:+: arg
  session : ¬ Refuses env tok w c

theorem Discreet.unlogged {c : ServiceCall} (h : Discreet env tok w c) (htok : 36 < tok.length)
    (hgen : GeneratedIds w) (haudit : ∀ e ∈ w.audit, ¬ e.Mentions tok) :
    Unlogged env tok (.of (serviceStep env) w c) where
  handed e he := by
    -- the same call with a logger that never throws
    have hrecording : ¬ Refuses env.recording tok w c := h.session
    obtain ⟨new, hnew, hclean⟩ := perform_logs htok hgen h.args hrecording
    refine hclean e ?_
    change e ∈ (perform env.recording c w).2.audit.drop w.audit.length at he
    rw [hnew, List.drop_left] at he
    exact he
  audit e he := by
    obtain ⟨new, hnew, hclean⟩ := perform_logs htok hgen h.args h.session
    change e ∈ (perform env c w).2.audit at he
    rw [hnew] at he
    exact (List.mem_append.1 he).elim (haudit e) (hclean e)

theorem generatedIds_of_run (env : Env) (calls : List ServiceCall) :
    GeneratedIds (final (serviceStep env) (World.empty b) calls) := by
  refine trace_induction (P := fun _ (w : World b) => GeneratedIds w) generatedIds_empty
    (fun is c hgen => ?_) calls
  exact hgen.perform env c

theorem unlogged_of_run (env : Env) (htok : 36 < tok.length) (calls : List ServiceCall)
    (hsafe : ∀ t ∈ trace (serviceStep env) (World.empty b) calls,
      Discreet env tok t.before t.input) :
    (∀ e ∈ (final (serviceStep env) (World.empty b) calls).audit, ¬ e.Mentions tok) ∧
      ∀ t ∈ trace (serviceStep env) (World.empty b) calls, Unlogged env tok t := by
  revert hsafe
  refine trace_induction (P := fun h (w : World b) => (∀ t ∈ h, Discreet env tok t.before t.input) →
    (∀ e ∈ w.audit, ¬ e.Mentions tok) ∧ ∀ t ∈ h, Unlogged env tok t) ?_ ?_ calls
  · exact fun _ => ⟨fun e he => (by cases he), fun t ht => (by cases ht)⟩
  · intro is c ih hsafe
    obtain ⟨haudit, hunlogged⟩ := ih fun t ht => hsafe t (List.mem_append_left _ ht)
    have hlast := (hsafe _ (List.mem_append_right _ List.mem_cons_self)).unlogged htok
      (generatedIds_of_run env is) haudit
    refine ⟨hlast.audit, fun t ht => ?_⟩
    rcases List.mem_append.1 ht with ht | ht
    · exact hunlogged t ht
    · rw [List.mem_singleton.1 ht]
      exact hlast

theorem issued_length {tok : Bytes} (h : IssuedToken env w tok) : 36 < tok.length := by
  obtain ⟨i, -, rfl⟩ := h
  rw [length_sessionToken]
  decide

/-- When no recorded argument holds an issued token, the log stays free of the tokens exactly in the
runs that refuse no transfer for a session argument that holds one. -/
theorem tokens_unlogged_iff (env : Env) (calls : List ServiceCall)
    (hargs : ∀ tok, IssuedToken env (final (serviceStep env) (World.empty b) calls) tok →
      ∀ c ∈ calls, ∀ arg ∈ c.recordedArgs, ¬ tok <:+: arg) :
    (∀ tok, IssuedToken env (final (serviceStep env) (World.empty b) calls) tok →
      ∀ t ∈ trace (serviceStep env) (World.empty b) calls, Unlogged env tok t) ↔
    ∀ tok, IssuedToken env (final (serviceStep env) (World.empty b) calls) tok →
      ∀ t ∈ trace (serviceStep env) (World.empty b) calls, ¬ Refuses env tok t.before t.input := by
  constructor
  · intro hunlogged tok htok t ht hrefuses
    obtain ⟨e, he, hmentions⟩ := handed_of_refuses hrefuses
    exact (hunlogged tok htok t ht).handed e he hmentions
  · intro hsess tok htok
    refine (unlogged_of_run env (issued_length htok) calls fun t ht => ?_).2
    exact ⟨hargs tok htok t.input (input_mem_of_mem_trace ht), hsess tok htok t ht⟩

theorem issuedToken_of_one (h : w.tokens = 1) (hi : IssuedToken env w tok) :
    tok = (sessionToken (env.randomToken 0)).value := by
  obtain ⟨i, hlt, rfl⟩ := hi
  rw [h] at hlt
  rw [Nat.lt_one_iff.1 hlt]

set_option maxRecDepth 100000 in
/-- A run with an upload in a valid session: one token is issued and it is not in the log. -/
theorem tokens_unlogged_of_sampleCalls :
    (final (serviceStep Env.counting) (World.empty .sqlite)
      (sampleCalls ++ [.upload sampleUpload])).tokens = 1 ∧
    ∀ tok,
      IssuedToken Env.counting (final (serviceStep Env.counting) (World.empty .sqlite)
        (sampleCalls ++ [.upload sampleUpload])) tok →
      ∀ t ∈ trace (serviceStep Env.counting) (World.empty .sqlite)
        (sampleCalls ++ [.upload sampleUpload]), Unlogged Env.counting tok t := by
  have htokens : (final (serviceStep Env.counting) (World.empty .sqlite)
      (sampleCalls ++ [.upload sampleUpload])).tokens = 1 := by
    decide +kernel
  refine ⟨htokens, (tokens_unlogged_iff Env.counting _ fun tok htok => ?_).2 fun tok htok => ?_⟩
  · obtain rfl := issuedToken_of_one htokens htok
    decide +kernel
  · obtain rfl := issuedToken_of_one htokens htok
    decide +kernel

/-- An hour passes between a login and what follows it. -/
def Env.slow : Env := { Env.counting with clock := fun n => 4000000 * n }

/-- Alice asks for a file when her session has expired. -/
def lateCalls : List ServiceCall :=
  [ .registerUser (ascii "alice") (ascii "a@x") (ascii "password") (ascii "user"),
    .login (ascii "alice") (ascii "password"),
    .download (sessionToken (Env.counting.randomToken 0)) ⟨ascii "f1"⟩ ]

set_option maxRecDepth 100000 in
/-- The refusal of an expired session stands in the log with the token as the actor. -/
theorem expired_token_logged :
    (∀ tok, IssuedToken Env.slow (final (serviceStep Env.slow) (World.empty .sqlite) lateCalls) tok →
      ∀ c ∈ lateCalls, ∀ arg ∈ c.recordedArgs, ¬ tok <:+: arg) ∧
    ¬ ∀ tok, IssuedToken Env.slow (final (serviceStep Env.slow) (World.empty .sqlite) lateCalls) tok →
      ∀ t ∈ trace (serviceStep Env.slow) (World.empty .sqlite) lateCalls, Unlogged Env.slow tok t := by
  have htokens : (final (serviceStep Env.slow) (World.empty .sqlite) lateCalls).tokens = 1 := by
    decide +kernel
  constructor
  · intro tok htok
    obtain rfl := issuedToken_of_one htokens htok
    decide +kernel
  · intro hunlogged
    have hissued : IssuedToken Env.slow (final (serviceStep Env.slow) (World.empty .sqlite) lateCalls)
        (sessionToken (Env.slow.randomToken 0)).value := ⟨0, by rw [htokens]; decide, rfl⟩
    have hlogged : ∃ t ∈ trace (serviceStep Env.slow) (World.empty .sqlite) lateCalls,
        ∃ e ∈ t.after.audit, e.Mentions (sessionToken (Env.slow.randomToken 0)).value := by
      decide +kernel
    obtain ⟨t, ht, e, he, hmentions⟩ := hlogged
    exact (hunlogged _ hissued t ht).audit e he hmentions

end SecureFileTransfer
