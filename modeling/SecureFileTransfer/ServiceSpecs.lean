import SecureFileTransfer.Services

/-!
# ServiceSpecs — what a service call can do

One outcome relation for each operation: every way the call can end, with the state it leaves.
The stores change in the last case or cases only; the others leave them as they were.
-/

namespace SecureFileTransfer

open Prog Service

variable {b : Backend} {env : Env} {w w₁ w₂ : World b}

/-! ## Rules for the collaborator calls -/

/-- No generator was used. -/
structure Idle (w w' : World b) : Prop where
  ids : w'.ids = w.ids
  tokens : w'.tokens = w.tokens
  calls : w.calls ≤ w'.calls

/-- No store and no generator was touched. -/
structure Quiet (w w' : World b) : Prop extends Idle w w' where
  stores : w'.toStores = w.toStores

/-- Generators and the count of calls only go forward. -/
structure Later (w w' : World b) : Prop where
  ids : w.ids ≤ w'.ids
  tokens : w.tokens ≤ w'.tokens
  calls : w.calls ≤ w'.calls

/-- A call of `c` that was made between the two states threw `e`. -/
def Threw (env : Env) (c : Call) (w w' : World b) (e : Exn) : Prop :=
  ∃ n, w.calls ≤ n ∧ n < w'.calls ∧ env.fault c n = some e

theorem Threw.tick {c : Call} {e : Exn} (h : env.fault c w.calls = some e) :
    Threw env c w w.tick e :=
  ⟨w.calls, le_rfl, Nat.lt_succ_self _, h⟩

theorem Threw.mono {c : Call} {e : Exn} {w₀ w₃ : World b} (h : Threw env c w₁ w₂ e)
    (h₁ : w₀.calls ≤ w₁.calls) (h₂ : w₂.calls ≤ w₃.calls) : Threw env c w₀ w₃ e := by
  obtain ⟨n, hn₁, hn₂, hfault⟩ := h
  exact ⟨n, h₁.trans hn₁, hn₂.trans_le h₂, hfault⟩

theorem Idle.trans (h₁ : Idle w w₁) (h₂ : Idle w₁ w₂) : Idle w w₂ :=
  ⟨h₂.ids.trans h₁.ids, h₂.tokens.trans h₁.tokens, h₁.calls.trans h₂.calls⟩

theorem Idle.later (h : Idle w w₁) : Later w w₁ := ⟨h.ids.ge, h.tokens.ge, h.calls⟩

theorem idle_tick (w : World b) : Idle w w.tick := ⟨rfl, rfl, Nat.le_succ _⟩

theorem Quiet.refl (w : World b) : Quiet w w := ⟨⟨rfl, rfl, le_rfl⟩, rfl⟩

theorem Quiet.trans (h₁ : Quiet w w₁) (h₂ : Quiet w₁ w₂) : Quiet w w₂ :=
  ⟨h₁.toIdle.trans h₂.toIdle, h₂.stores.trans h₁.stores⟩

theorem Quiet.tick (h : Quiet w w₁) : Quiet w w₁.tick :=
  ⟨h.toIdle.trans (idle_tick w₁), h.stores⟩

theorem Quiet.later (h : Quiet w w₁) : Later w w₁ := h.toIdle.later

theorem Later.trans (h₁ : Later w w₁) (h₂ : Later w₁ w₂) : Later w w₂ :=
  ⟨h₁.ids.trans h₂.ids, h₁.tokens.trans h₂.tokens, h₁.calls.trans h₂.calls⟩

section Rules

variable {α : Type} {c : Call}

theorem wp_call {Q : Except Exn Unit → World b → Prop}
    (herr : ∀ e, env.fault c w.calls = some e → Q (.error e) w.tick)
    (hok : env.fault c w.calls = none → Q (.ok ()) w.tick) : wp (call env c) Q w := by
  unfold wp call
  cases hfault : env.fault c w.calls with
  | none => exact hok hfault
  | some e => exact herr e hfault

/-- A query: it throws what it throws, or the collaborator answers. -/
theorem wp_query {f : World b → Except Exn α} {Q : Except Exn α → World b → Prop}
    (herr : ∀ e, env.fault c w.calls = some e → Q (.error e) w.tick)
    (hok : Q (f w.tick) w.tick) : wp (query env c f) Q w := by
  rw [query, wp_bind]
  exact wp_call herr fun _ => hok

theorem wp_write {f : World b → Except Exn (World b)} {Q : Except Exn Unit → World b → Prop}
    (hfault : ∀ e, env.fault c w.calls = some e → Q (.error e) w.tick)
    (herr : ∀ e, f w.tick = .error e → Q (.error e) w.tick)
    (hok : ∀ w', f w.tick = .ok w' → Q (.ok ()) w') : wp (write env c f) Q w := by
  rw [write, wp_bind]
  refine wp_call hfault fun _ => ?_
  rw [wpBind_ok, wp_update]
  exact ⟨hok, herr⟩

/-- A query that is answered, then the rest. -/
theorem wp_query_of_ok {β : Type} {f : World b → Except Exn α} {k : α → Service b β}
    {Q : Except Exn β → World b → Prop} {a : α} (hfault : ∀ c n, env.fault c n = none)
    (hf : f w.tick = .ok a) (hk : wp (k a) Q w.tick) : wp (query env c f >>= k) Q w := by
  rw [wp_bind]
  refine wp_query (fun e h => ?_) ?_
  · rw [hfault] at h
    cases h
  · rw [hf]
    exact hk

/-- A write that goes through, then the rest. -/
theorem wp_write_of_ok {f : World b → Except Exn (World b)}
    {Q : Except Exn Unit → World b → Prop} {w' : World b} (hfault : ∀ c n, env.fault c n = none)
    (hf : f w.tick = .ok w') (hk : Q (.ok ()) w') : wp (write env c f) Q w := by
  refine wp_write (fun e h => ?_) (fun e h => ?_) fun w'' h => ?_
  · rw [hfault] at h
    cases h
  · rw [hf] at h
    cases h
  · cases hf.symm.trans h
    exact hk

/-- A program that only reads, then the rest. -/
theorem wp_quiet_bind {β : Type} {x : Service b α} {k : α → Service b β}
    {Q : Except Exn β → World b → Prop} (hx : Steps Quiet x)
    (herr : ∀ e w', Quiet w w' → Q (.error e) w')
    (hok : ∀ a w', Quiet w w' → wp (k a) Q w') : wp (x >>= k) Q w := by
  rw [wp_bind]
  refine wp_mono (hx.wp w) ?_
  rintro (e | a) w' hq
  · exact herr e w' hq
  · exact hok a w' hq

/-- A query, then the rest with the answer the stores gave. -/
theorem wp_query_bind {β : Type} {f : World b → Except Exn α} {k : α → Service b β}
    {Q : Except Exn β → World b → Prop} (hf : f w.tick = f w)
    (herr : ∀ e w', Quiet w w' → Q (.error e) w')
    (hok : ∀ a w', Quiet w w' → f w = .ok a → wp (k a) Q w') :
    wp (query env c f >>= k) Q w := by
  rw [wp_bind]
  refine wp_query (fun e _ => herr e _ (Quiet.refl w).tick) ?_
  rw [hf]
  cases hans : f w with
  | error e => exact herr e _ (Quiet.refl w).tick
  | ok a => exact hok a _ (Quiet.refl w).tick hans

theorem wp_nowMs_bind {β : Type} {k : Int → Service b β} {Q : Except Exn β → World b → Prop}
    (hok : ∀ w', Quiet w w' → w'.clockReads = w.clockReads + 1 →
      wp (k (env.clock w.clockReads)) Q w') : wp (nowMs env >>= k) Q w := by
  rw [wp_bind]
  exact hok _ ⟨⟨rfl, rfl, le_rfl⟩, rfl⟩ rfl

theorem wp_record {action : AuditAction} {actor fileId : Bytes}
    {Q : Except Exn Unit → World b → Prop}
    (herr : ∀ e, env.fault (.record action) w.calls = some e → Q (.error e) w.tick)
    (hok : ∀ w', Quiet w w' → Q (.ok ()) w') :
    wp (record env action actor fileId) Q w := by
  refine wp_write herr (fun e h => by cases h) fun w' h => ?_
  cases h
  exact hok _ ⟨⟨rfl, rfl, Nat.le_succ _⟩, rfl⟩

theorem quiet_query {f : World b → Except Exn α} : Steps Quiet (query env c f) := by
  intro w
  exact wp_query (Q := fun _ w' => Quiet w w') (fun _ _ => (Quiet.refl w).tick) (Quiet.refl w).tick

theorem quiet_record {action : AuditAction} {actor fileId : Bytes} :
    Steps Quiet (record (b := b) env action actor fileId) := by
  intro w
  exact wp_record (Q := fun _ w' => Quiet w w') (fun _ _ => (Quiet.refl w).tick) fun _ h => h

theorem quiet_bind {β : Type} {x : Service b α} {k : α → Service b β} (hx : Steps Quiet x)
    (hk : ∀ a, Steps Quiet (k a)) : Steps Quiet (x >>= k) :=
  Steps.bind (fun h₁ h₂ => h₁.trans h₂) hx hk

theorem quiet_pure (a : α) : Steps Quiet (pure a : Service b α) := Steps.pure Quiet.refl a

/-- A session that cannot be opened costs the random bytes of its token. -/
theorem wp_createForUser {uid : UserId} {now : Int} {Q : Except Exn SessionId → World b → Prop}
    (hfault : ∀ e, env.fault .createForUser w.calls = some e → Q (.error e) w.tick)
    (herr : ∀ e, w.sessions.createForUser (env.randomToken w.tokens) uid now = .error e →
      Q (.error e) { w.tick with tokens := w.tokens + 1 })
    (hok : ∀ st, w.sessions.createForUser (env.randomToken w.tokens) uid now = .ok st →
      Q (.ok (sessionToken (env.randomToken w.tokens)))
        { w.tick with tokens := w.tokens + 1, sessions := st }) :
    wp (createForUser env uid now) Q w := by
  rw [createForUser, wp_bind]
  refine wp_call hfault fun _ => ?_
  rw [wpBind_ok, newToken, wp_bind, wp_modifyGet, wpBind_ok, wp_bind, wp_update]
  refine ⟨fun w' h => ?_, fun e h => herr e (eq_error_of_map_eq_error h)⟩
  obtain ⟨st, hcreate, rfl⟩ := exists_of_map_eq_ok h
  exact hok st hcreate

theorem wp_createForUser_bind {β : Type} {uid : UserId} {now : Int} {k : SessionId → Service b β}
    {Q : Except Exn β → World b → Prop}
    (herr : ∀ e w', w'.toStores = w.toStores → Later w w' → Q (.error e) w')
    (hok : ∀ st w', w.sessions.createForUser (env.randomToken w.tokens) uid now = .ok st →
      w'.toStores = w.toStores.withSessions st → w'.ids = w.ids → w'.tokens = w.tokens + 1 →
      w.calls ≤ w'.calls → wp (k (sessionToken (env.randomToken w.tokens))) Q w') :
    wp (createForUser env uid now >>= k) Q w := by
  rw [wp_bind]
  refine wp_createForUser (fun e _ => herr e _ rfl (Quiet.refl w).tick.later)
    (fun e _ => herr e _ rfl ⟨le_rfl, Nat.le_succ _, Nat.le_succ _⟩) fun st hcreate => ?_
  exact hok st _ hcreate rfl rfl rfl (Nat.le_succ _)

/-- Nothing but sessions, tokens and the count of calls was touched. -/
def SessionsOnly (w w' : World b) : Prop :=
  ∃ st tokens calls, w' = { w with sessions := st, tokens := tokens, calls := calls }

theorem createForUser_frame (uid : UserId) (now : Int) :
    Steps SessionsOnly (createForUser (b := b) env uid now) := by
  intro w
  show wp _ (fun _ w' => SessionsOnly w w') w
  exact wp_createForUser (fun _ _ => ⟨_, _, _, rfl⟩) (fun _ _ => ⟨_, _, _, rfl⟩)
    fun _ _ => ⟨_, _, _, rfl⟩

theorem wp_invalidate_bind {β : Type} {tok : SessionId} {k : Bool → Service b β}
    {Q : Except Exn β → World b → Prop} (herr : ∀ e w', Quiet w w' → Q (.error e) w')
    (hok : ∀ w', w'.toStores = w.toStores.withSessions (w.sessions.invalidate tok) →
      Later w w' → wp (k (w.sessions.findByToken tok).isSome) Q w') :
    wp (invalidate env tok >>= k) Q w := by
  rw [invalidate, wp_bind, wp_bind]
  refine wp_call (fun e _ => herr e _ (Quiet.refl w).tick) fun _ => ?_
  exact hok _ rfl ⟨le_rfl, le_rfl, Nat.le_succ _⟩

theorem wp_newId_bind {β : Type} {k : UserId → Service b β} {Q : Except Exn β → World b → Prop}
    (hok : ∀ w', w'.toStores = w.toStores → w'.ids = w.ids + 1 → w'.tokens = w.tokens →
      w.calls ≤ w'.calls → wp (k (generateUserId (env.randomId w.ids))) Q w') :
    wp (newId env >>= k) Q w := by
  rw [wp_bind]
  exact hok _ rfl rfl rfl le_rfl

/-- A write of the user repository, then the rest. -/
theorem wp_writeUsers_bind {β : Type} {f : b.users.State → Except Exn b.users.State}
    {k : Unit → Service b β} {Q : Except Exn β → World b → Prop}
    (herr : ∀ e w', Quiet w w' → Q (.error e) w')
    (hok : ∀ users w', f w.users = .ok users → w'.toStores = w.toStores.withUsers users →
      Idle w w' → wp (k ()) Q w') : wp (writeUsers env c f >>= k) Q w := by
  rw [wp_bind]
  refine wp_write (fun e _ => herr e _ (Quiet.refl w).tick)
    (fun e _ => herr e _ (Quiet.refl w).tick) fun w' h => ?_
  cases hf : f w.users with
  | error e =>
      rw [show w.tick.users = w.users from rfl, hf] at h
      cases h
  | ok users =>
      rw [show w.tick.users = w.users from rfl, hf] at h
      cases h
      exact hok users _ hf rfl ⟨rfl, rfl, Nat.le_succ _⟩

end Rules

/-! ## AuthService -/

/-- The call threw or returned a failure. -/
def Failed {α : Type} (r : Except Exn (Result α)) : Prop := ∀ v, r ≠ .ok (.success v)

theorem failed_error {α : Type} (e : Exn) : Failed (.error e : Except Exn (Result α)) := by
  intro v h
  cases h

theorem failed_failure {α : Type} (t : Bytes) : Failed (.ok (.failure t) : Except Exn (Result α)) := by
  intro v h
  cases h

/-- Recording a refusal and reporting it. -/
theorem wp_record_failure {α : Type} {action : AuditAction} {actor fileId t : Bytes}
    {Q : Except Exn (Result α) → World b → Prop}
    (h : ∀ r w', Failed r → Quiet w w' → Q r w') :
    wp (record env action actor fileId >>= fun _ => pure (.failure t)) Q w :=
  wp_quiet_bind quiet_record (fun e w' hq => h _ w' (failed_error e) hq)
    fun _ w' hq => h _ w' (failed_failure t) hq

/-- Recording a success and reporting it; only the record can still fail. -/
theorem wp_record_success {α : Type} {action : AuditAction} {actor fileId : Bytes} {v : α}
    {Q : Except Exn α → World b → Prop}
    (h : ∀ r w', Quiet w w' → (r = .ok v ∨
      ∃ e, r = .error e ∧ Threw env (.record action) w w' e) → Q r w') :
    wp (record env action actor fileId >>= fun _ => pure v) Q w := by
  rw [wp_bind]
  refine wp_record (fun e hfault => ?_) fun w' hq => ?_
  · exact h _ _ (Quiet.refl w).tick (.inr ⟨e, rfl, .tick hfault⟩)
  · exact h _ _ hq (.inl rfl)

/-- How `registerUser` ends. -/
inductive RegisterOutcome (env : Env) (u : Bytes) (w : World b) :
    Except Exn (Result UserId) → World b → Prop
  | refused {r w'} (failed : Failed r) (stores : w'.toStores = w.toStores) (later : Later w w') :
      RegisterOutcome env u w r w'
  | saved {r w' user encoded users} (name : user.username = u)
      (id : user.id = generateUserId (env.randomId w.ids))
      (write : b.users.save user encoded w.users = .ok users)
      (stores : w'.toStores = w.toStores.withUsers users) (later : Later w w')
      (result : r = .ok (.success user.id) ∨
        ∃ e, r = .error e ∧ Threw env (.record .REGISTER_OK) w w' e) :
      RegisterOutcome env u w r w'

theorem registerUser_spec (u email pw role : Bytes) :
    wp (registerUser env u email pw role) (RegisterOutcome env u w) w := by
  have refused : ∀ {r w'}, Failed r → Quiet w w' → RegisterOutcome env u w r w' :=
    fun hr hq => .refused hr hq.stores hq.later
  unfold registerUser
  refine wp_ite (fun _ => refused (failed_failure _) (Quiet.refl w)) fun _ => ?_
  have htaken : Steps Quiet (nameOrMailTaken (b := b) env u email) :=
    quiet_bind quiet_query fun _ =>
      Steps.ite (quiet_pure _) (quiet_bind quiet_query fun _ => quiet_pure _)
  refine wp_quiet_bind htaken (fun e _ hq => refused (failed_error e) hq) fun taken w₁ h₁ => ?_
  refine wp_ite (fun _ => ?_) fun _ => ?_
  · exact wp_record_failure fun r w' hr hq => refused hr (h₁.trans hq)
  refine wp_quiet_bind quiet_query (fun e _ hq => refused (failed_error e) (h₁.trans hq))
    fun encoded w₂ h₂ => ?_
  have h₁₂ := h₁.trans h₂
  refine wp_newId_bind fun w₃ hstores hids htokens hcalls => ?_
  have hstores₃ : w₃.toStores = w.toStores := hstores.trans h₁₂.stores
  have hlater₃ : Later w w₃ :=
    ⟨by rw [hids, h₁₂.ids]; exact Nat.le_succ _, by rw [htokens, h₁₂.tokens], h₁₂.calls.trans hcalls⟩
  have refused₃ : ∀ {r w'}, Failed r → Quiet w₃ w' → RegisterOutcome env u w r w' :=
    fun hr hq => .refused hr (hq.stores.trans hstores₃) (hlater₃.trans hq.later)
  rw [wp_bind, wp_outcome]
  cases hnew : User.new (generateUserId (env.randomId w₂.ids)) u email role (ascii "active") 0 0 with
  | error e => exact refused₃ (failed_error e) (Quiet.refl w₃)
  | ok nu =>
      obtain ⟨hid, hname, -⟩ := User.fields_of_new hnew
      rw [h₁₂.ids] at hid
      rw [wpBind_ok, wp_bind, wp_tryCatch]
      refine wp_writeUsers_bind (fun e w₄ h₄ => ?_) fun users w₄ hsave hst₄ hidle₄ => ?_
      · -- the handler turns any exception of `save` into a refusal
        exact wp_record_failure fun r w' hr hq => refused₃ hr (h₄.trans hq)
      · have husers : w₃.users = w.users := congrArg Stores.users hstores₃
        rw [wp_pure, wpCatch_ok, wpBind_ok]
        refine wp_record_success fun r w' hq hr => ?_
        have hlater₄ := hlater₃.trans hidle₄.later
        have hwrite : b.users.save nu encoded w.users = .ok users := husers ▸ hsave
        refine .saved hname hid hwrite ?_ (hlater₄.trans hq.later) ?_
        · rw [hq.stores, hst₄, hstores₃]
        · rcases hr with hr | ⟨e, hr, hthrew⟩
          · rw [hid, ← h₁₂.ids]
            exact .inl hr
          · exact .inr ⟨e, hr, hthrew.mono hlater₄.calls le_rfl⟩

/-- The name, the state of the account and the password let the user in. -/
structure MayLogin (env : Env) (u pw : Bytes) (w : World b) (user : User) : Prop where
  found : b.users.findByUsername w.users u = .ok (some user)
  canLogin : user.canLogin (env.clock w.clockReads) = true
  verified : ∃ enc, b.users.getEncodedHash w.users user.id = .ok enc ∧ env.verify enc pw = true

/-- How `login` ends. -/
inductive LoginOutcome (env : Env) (u pw : Bytes) (w : World b) :
    Except Exn (Result SessionId) → World b → Prop
  | refused {r w'} (failed : Failed r) (stores : w'.toStores = w.toStores) (later : Later w w') :
      LoginOutcome env u pw w r w'
  /-- A wrong password, or a session that could not be opened. -/
  | counted {r w' user users now} (failed : Failed r)
      (found : b.users.findByUsername w.users u = .ok (some user))
      (write : b.users.recordLoginFailure user.id now w.users = .ok users ∨
        b.users.resetLoginFailures user.id w.users = .ok users)
      (stores : w'.toStores = w.toStores.withUsers users) (later : Later w w') :
      LoginOutcome env u pw w r w'
  | opened {r w' user users st} (admitted : MayLogin env u pw w user)
      (write : b.users.resetLoginFailures user.id w.users = .ok users)
      (create : w.sessions.createForUser (env.randomToken w.tokens) user.id
        (env.clock w.clockReads) = .ok st)
      (stores : w'.toStores = (w.toStores.withUsers users).withSessions st)
      (ids : w'.ids = w.ids) (tokens : w'.tokens = w.tokens + 1) (calls : w.calls ≤ w'.calls)
      (result : r = .ok (.success (sessionToken (env.randomToken w.tokens))) ∨
        ∃ e, r = .error e ∧ Threw env (.record .LOGIN_OK) w w' e) :
      LoginOutcome env u pw w r w'

theorem login_spec (u pw : Bytes) : wp (login env u pw) (LoginOutcome env u pw w) w := by
  have refused : ∀ {r w'}, Failed r → Quiet w w' → LoginOutcome env u pw w r w' :=
    fun hr hq => .refused hr hq.stores hq.later
  unfold login
  refine wp_nowMs_bind fun w₁ h₁ _ => ?_
  refine wp_query_bind rfl (fun e _ hq => refused (failed_error e) (h₁.trans hq))
    fun found w₂ h₂ hfound => ?_
  have h₁₂ := h₁.trans h₂
  rw [show w₁.users = w.users from congrArg Stores.users h₁.stores] at hfound
  cases found with
  | none => exact wp_record_failure fun r w' hr hq => refused hr (h₁₂.trans hq)
  | some user =>
      refine wp_ite (fun _ => ?_) fun hcan => ?_
      · exact wp_record_failure fun r w' hr hq => refused hr (h₁₂.trans hq)
      refine wp_query_bind rfl (fun e _ hq => refused (failed_error e) (h₁₂.trans hq))
        fun enc w₃ h₃ henc => ?_
      have h₁₃ := h₁₂.trans h₃
      refine wp_query_bind rfl (fun e _ hq => refused (failed_error e) (h₁₃.trans hq))
        fun ok w₄ h₄ hok => ?_
      have h₁₄ := h₁₃.trans h₄
      have husers : w₄.users = w.users := congrArg Stores.users h₁₄.stores
      rw [show w₂.users = w.users from congrArg Stores.users h₁₂.stores] at henc
      refine wp_ite (fun _ => ?_) fun hverified => ?_
      · refine wp_writeUsers_bind (fun e _ hq => refused (failed_error e) (h₁₄.trans hq))
          fun users w₅ hwrite hst hidle => ?_
        refine wp_record_failure fun r w' hr hq => ?_
        exact .counted hr hfound (.inl (husers ▸ hwrite)) (by rw [hq.stores, hst, h₁₄.stores])
          ((h₁₄.toIdle.trans hidle).trans hq.toIdle).later
      · refine wp_writeUsers_bind (fun e _ hq => refused (failed_error e) (h₁₄.trans hq))
          fun users w₅ hwrite hst hidle => ?_
        have admitted : MayLogin env u pw w user :=
          ⟨hfound, by simpa using hcan, enc, henc, by rw [Except.ok.inj hok]; simpa using hverified⟩
        have hst₅ : w₅.toStores = w.toStores.withUsers users := by rw [hst, h₁₄.stores]
        have hidle₅ : Idle w w₅ := h₁₄.toIdle.trans hidle
        refine wp_createForUser_bind (fun e w₆ hst₆ hlater₆ => ?_)
          fun st w₆ hcreate hst₆ hids₆ htok₆ hcalls₆ => ?_
        · have hreset : b.users.recordLoginFailure user.id 0 w.users = .ok users ∨
              b.users.resetLoginFailures user.id w.users = .ok users := .inr (husers ▸ hwrite)
          exact .counted (failed_error e) hfound hreset
            (hst₆.trans hst₅) (hidle₅.later.trans hlater₆)
        refine wp_record_success fun r w' hq hr => ?_
        have hcalls : w.calls ≤ w₆.calls := hidle₅.calls.trans hcalls₆
        have hsessions : w₅.sessions = w.sessions := (congrArg Stores.sessions hst₅ :)
        rw [hsessions, hidle₅.tokens] at hcreate
        refine .opened admitted (husers ▸ hwrite) hcreate ?_
          (hq.ids.trans (hids₆.trans hidle₅.ids)) ?_ (hcalls.trans hq.calls) ?_
        · rw [hq.stores, hst₆, hst₅]
        · rw [hq.tokens, htok₆, hidle₅.tokens]
        · rcases hr with hr | ⟨e, hr, hthrew⟩
          · rw [← hidle₅.tokens]
            exact .inl hr
          · exact .inr ⟨e, hr, hthrew.mono hcalls le_rfl⟩

/-- How `logout` ends. -/
inductive LogoutOutcome (env : Env) (tok : SessionId) (w : World b) :
    Except Exn Bool → World b → Prop
  | unknown {r w'} (result : r ≠ .ok true) (stores : w'.toStores = w.toStores)
      (later : Later w w') : LogoutOutcome env tok w r w'
  | revoked {r w'} (stores : w'.toStores = w.toStores.withSessions (w.sessions.invalidate tok))
      (later : Later w w')
      (result : r = .ok true ∨ ∃ e, r = .error e ∧ Threw env (.record .LOGOUT) w w' e) :
      LogoutOutcome env tok w r w'

theorem invalidate_of_none {st : MemorySessionStore} {tok : SessionId}
    (h : st.findByToken tok = none) : st.invalidate tok = st := by
  simp [MemorySessionStore.invalidate, h]

theorem logout_spec (tok : SessionId) : wp (logout env tok) (LogoutOutcome env tok w) w := by
  unfold logout
  refine wp_invalidate_bind (fun e w₁ h₁ => ?_) fun w₁ hst₁ hlater₁ => ?_
  · exact .unknown (by simp) h₁.stores h₁.later
  refine wp_ite (fun _ => ?_) fun hnone => ?_
  · refine wp_record_success fun r w' hq hr => ?_
    refine .revoked (hq.stores.trans hst₁) (hlater₁.trans hq.later) ?_
    exact hr.imp_right fun ⟨e, hr, hthrew⟩ => ⟨e, hr, hthrew.mono hlater₁.calls le_rfl⟩
  · -- an unknown token leaves the store as it is
    have hfind : w.sessions.findByToken tok = none := by simpa using hnone
    refine wp_return (.unknown (by simp) ?_ hlater₁)
    rw [hst₁, invalidate_of_none hfind]
    rfl

/-! ## AdminService -/

/-- How `activate` ends, once and for all overloads. -/
inductive ActivateOutcome (env : Env) (tgt : UserId) (w : World b) :
    Except Exn (Result UserId) → World b → Prop
  | refused {r w'} (failed : Failed r) (stores : w'.toStores = w.toStores) (later : Later w w') :
      ActivateOutcome env tgt w r w'
  | updated {r w' u users} (found : b.users.findById w.users tgt = .ok (some u))
      (write : b.users.update (u.setStatus (ascii "active")) w.users = .ok users)
      (stores : w'.toStores = w.toStores.withUsers users) (later : Later w w')
      (result : r = .ok (.success tgt) ∨
        ∃ e, r = .error e ∧ Threw env (.record .ACTIVATE) w w' e) :
      ActivateOutcome env tgt w r w'

/-- How `deactivate` ends; `halfway` is the user update without the revocation of its sessions. -/
inductive DeactivateOutcome (env : Env) (tgt : UserId) (w : World b) :
    Except Exn (Result UserId) → World b → Prop
  | refused {r w'} (failed : Failed r) (stores : w'.toStores = w.toStores) (later : Later w w') :
      DeactivateOutcome env tgt w r w'
  | halfway {e w' u users} (found : b.users.findById w.users tgt = .ok (some u))
      (write : b.users.update (u.setStatus (ascii "inactive")) w.users = .ok users)
      (stores : w'.toStores = w.toStores.withUsers users) (later : Later w w')
      (fault : Threw env .invalidateAllForUser w w' e) :
      DeactivateOutcome env tgt w (.error e) w'
  | updated {r w' u users} (found : b.users.findById w.users tgt = .ok (some u))
      (write : b.users.update (u.setStatus (ascii "inactive")) w.users = .ok users)
      (stores : w'.toStores =
        (w.toStores.withUsers users).withSessions (w.sessions.invalidateAllForUser tgt))
      (later : Later w w')
      (result : r = .ok (.success tgt) ∨
        ∃ e, r = .error e ∧ Threw env (.record .DEACTIVATE) w w' e) :
      DeactivateOutcome env tgt w r w'

theorem quiet_isAdmin (id : UserId) : Steps Quiet (isAdmin (b := b) env id) := by
  refine quiet_bind quiet_query fun found => ?_
  cases found with
  | none => exact quiet_pure _
  | some u => exact quiet_pure _

/-- The session check admits only tokens that are valid when the call starts. -/
theorem isAdminSession_spec (token : SessionId) :
    wp (isAdminSession env token) (fun r w' => Quiet w w' ∧ (∀ id, r = .ok (some id) →
      w.sessions.isValid token (env.clock w.clockReads) = true)) w := by
  have denied : ∀ {r : Except Exn (Option UserId)} {w'}, (∀ id, r ≠ .ok (some id)) → Quiet w w' →
      Quiet w w' ∧ ∀ id, r = .ok (some id) →
        w.sessions.isValid token (env.clock w.clockReads) = true :=
    fun hr hq => ⟨hq, fun id h => absurd h (hr id)⟩
  unfold isAdminSession
  refine wp_nowMs_bind fun w₁ h₁ _ => ?_
  refine wp_query_bind rfl (fun e _ hq => denied (by simp) (h₁.trans hq))
    fun valid w₂ h₂ hvalid => ?_
  have h₁₂ := h₁.trans h₂
  rw [show w₁.sessions = w.sessions from congrArg Stores.sessions h₁.stores] at hvalid
  refine wp_ite (fun _ => wp_return (denied (by simp) h₁₂)) fun hv => ?_
  have hvalid' : w.sessions.isValid token (env.clock w.clockReads) = true := by
    rw [Except.ok.inj hvalid]
    simpa using hv
  have admitted : ∀ {r : Except Exn (Option UserId)} {w'}, Quiet w₂ w' →
      Quiet w w' ∧ ∀ id, r = .ok (some id) →
        w.sessions.isValid token (env.clock w.clockReads) = true :=
    fun hq => ⟨h₁₂.trans hq, fun _ _ => hvalid'⟩
  refine wp_quiet_bind quiet_query (fun e _ hq => admitted hq) fun sess w₃ h₃ => ?_
  cases sess with
  | none => exact admitted h₃
  | some s =>
      refine wp_quiet_bind quiet_query (fun e _ hq => admitted (h₃.trans hq)) fun user w₄ h₄ => ?_
      have h₃₄ := h₃.trans h₄
      cases user with
      | none => exact admitted h₃₄
      | some u =>
          refine wp_ite (fun _ => admitted h₃₄) fun _ => ?_
          refine wp_quiet_bind (quiet_isAdmin _) (fun e _ hq => admitted (h₃₄.trans hq))
            fun ok w₅ h₅ => ?_
          refine wp_ite (fun _ => admitted (h₃₄.trans h₅)) fun _ => admitted (h₃₄.trans h₅)

/-- Rule for the session overloads: a refusal, or the action on behalf of a valid session. -/
theorem wp_asAdminSession {token : SessionId} {tgt : UserId}
    {action : UserId → Service b (Result UserId)} {P : Except Exn (Result UserId) → World b → Prop}
    (hdenied : ∀ r w', Failed r → Quiet w w' → P r w')
    (haction : ∀ adminId w₁, Quiet w w₁ →
      w.sessions.isValid token (env.clock w.clockReads) = true → wp (action adminId) P w₁) :
    wp (asAdminSession env token tgt action) P w := by
  unfold asAdminSession
  rw [wp_bind]
  refine wp_mono (isAdminSession_spec token) ?_
  rintro (e | admin) w₁ ⟨h₁, hvalid⟩
  · exact hdenied _ _ (failed_error e) h₁
  cases admin with
  | none => exact wp_record_failure fun r w' hr hq => hdenied r w' hr (h₁.trans hq)
  | some adminId => exact haction adminId w₁ h₁ (hvalid adminId rfl)

/-- Rule for the deprecated overloads. -/
theorem wp_asAdmin {admin : UserId} {action : UserId → Service b (Result UserId)}
    {P : Except Exn (Result UserId) → World b → Prop}
    (hdenied : ∀ r w', Failed r → Quiet w w' → P r w')
    (haction : ∀ adminId w₁, Quiet w w₁ → wp (action adminId) P w₁) :
    wp (asAdmin env admin action) P w := by
  unfold asAdmin
  refine wp_quiet_bind (quiet_isAdmin admin) (fun e w₁ h₁ => hdenied _ _ (failed_error e) h₁)
    fun ok w₁ h₁ => ?_
  refine wp_ite (fun _ => haction admin w₁ h₁) fun _ => ?_
  exact wp_record_failure fun r w' hr hq => hdenied r w' hr (h₁.trans hq)

theorem activateAs_spec {w₀ : World b} (h₀ : Quiet w₀ w) (adminId tgt : UserId) :
    wp (activateAs env adminId tgt) (ActivateOutcome env tgt w₀) w := by
  have refused : ∀ {r w'}, Failed r → Quiet w w' → ActivateOutcome env tgt w₀ r w' :=
    fun hr hq => .refused hr (h₀.trans hq).stores (h₀.trans hq).later
  unfold activateAs
  refine wp_query_bind rfl (fun e _ hq => refused (failed_error e) hq) fun found w₁ h₁ hfound => ?_
  cases found with
  | none => exact refused (failed_failure _) h₁
  | some u =>
      have h₀₁ := h₀.trans h₁
      refine wp_writeUsers_bind (fun e _ hq => refused (failed_error e) (h₁.trans hq))
        fun users w₂ hwrite hst hidle => ?_
      refine wp_record_success fun r w' hq hr => ?_
      rw [show w.users = w₀.users from congrArg Stores.users h₀.stores] at hfound
      rw [show w₁.users = w₀.users from congrArg Stores.users h₀₁.stores] at hwrite
      have hidle₂ : Idle w₀ w₂ := h₀₁.toIdle.trans hidle
      refine .updated hfound hwrite ?_ (hidle₂.trans hq.toIdle).later ?_
      · rw [hq.stores, hst, h₀₁.stores]
      · exact hr.imp_right fun ⟨e, hr, hthrew⟩ => ⟨e, hr, hthrew.mono hidle₂.calls le_rfl⟩

theorem deactivateAs_spec {w₀ : World b} (h₀ : Quiet w₀ w) (adminId tgt : UserId) :
    wp (deactivateAs env adminId tgt) (DeactivateOutcome env tgt w₀) w := by
  have refused : ∀ {r w'}, Failed r → Quiet w w' → DeactivateOutcome env tgt w₀ r w' :=
    fun hr hq => .refused hr (h₀.trans hq).stores (h₀.trans hq).later
  unfold deactivateAs
  refine wp_query_bind rfl (fun e _ hq => refused (failed_error e) hq) fun found w₁ h₁ hfound => ?_
  cases found with
  | none => exact refused (failed_failure _) h₁
  | some u =>
      have hlast : Steps Quiet (isLastAdmin (b := b) env u) :=
        Steps.ite (quiet_bind (quiet_bind quiet_query fun _ => quiet_pure _) fun _ => quiet_pure _)
          (quiet_pure _)
      refine wp_quiet_bind hlast (fun e _ hq => refused (failed_error e) (h₁.trans hq))
        fun last w₂ h₂ => ?_
      have h₁₂ := h₁.trans h₂
      have h₀₂ := h₀.trans h₁₂
      refine wp_ite (fun _ => refused (failed_failure _) h₁₂) fun _ => ?_
      refine wp_writeUsers_bind (fun e _ hq => refused (failed_error e) (h₁₂.trans hq))
        fun users w₃ hwrite hst hidle => ?_
      rw [show w.users = w₀.users from congrArg Stores.users h₀.stores] at hfound
      rw [show w₂.users = w₀.users from congrArg Stores.users h₀₂.stores] at hwrite
      have hst₃ : w₃.toStores = w₀.toStores.withUsers users := by rw [hst, h₀₂.stores]
      have hidle₃ : Idle w₀ w₃ := h₀₂.toIdle.trans hidle
      rw [wp_bind]
      refine wp_write (fun e hfault => ?_) (fun e h => by cases h) fun w₄ h₄ => ?_
      · exact .halfway hfound hwrite hst₃ (hidle₃.trans (idle_tick w₃)).later
          ((Threw.tick hfault).mono hidle₃.calls le_rfl)
      · cases h₄
        refine wp_record_success fun r w' hq hr => ?_
        have hidle₄ : Idle w₀ { w₃.tick with sessions := w₃.sessions.invalidateAllForUser tgt } :=
          hidle₃.trans ⟨rfl, rfl, Nat.le_succ _⟩
        refine .updated hfound hwrite ?_ (hidle₄.trans hq.toIdle).later ?_
        · rw [hq.stores]
          show w₃.toStores.withSessions (w₃.sessions.invalidateAllForUser tgt) = _
          rw [hst₃]
          rfl
        · exact hr.imp_right fun ⟨e, hr, hthrew⟩ => ⟨e, hr, hthrew.mono hidle₄.calls le_rfl⟩

/-- `activate` on a session: only a valid one gets past the refusal. -/
theorem activate_spec (token : SessionId) (tgt : UserId) :
    wp (activate env token tgt) (fun r w' => ActivateOutcome env tgt w r w' ∧
      (¬ Failed r → w.sessions.isValid token (env.clock w.clockReads) = true)) w :=
  wp_asAdminSession
    (fun _ _ hr hq => ⟨.refused hr hq.stores hq.later, fun h => absurd hr h⟩)
    fun adminId _ h₁ hvalid =>
      wp_mono (activateAs_spec h₁ adminId tgt) fun _ _ h => ⟨h, fun _ => hvalid⟩

theorem deactivate_spec (token : SessionId) (tgt : UserId) :
    wp (deactivate env token tgt) (fun r w' => DeactivateOutcome env tgt w r w' ∧
      (¬ Failed r → w.sessions.isValid token (env.clock w.clockReads) = true)) w :=
  wp_asAdminSession
    (fun _ _ hr hq => ⟨.refused hr hq.stores hq.later, fun h => absurd hr h⟩)
    fun adminId _ h₁ hvalid =>
      wp_mono (deactivateAs_spec h₁ adminId tgt) fun _ _ h => ⟨h, fun _ => hvalid⟩

theorem activateById_spec (admin tgt : UserId) :
    wp (activateById env admin tgt) (ActivateOutcome env tgt w) w :=
  wp_asAdmin (fun _ _ hr hq => .refused hr hq.stores hq.later)
    fun adminId _ h₁ => activateAs_spec h₁ adminId tgt

theorem deactivateById_spec (admin tgt : UserId) :
    wp (deactivateById env admin tgt) (DeactivateOutcome env tgt w) w :=
  wp_asAdmin (fun _ _ hr hq => .refused hr hq.stores hq.later)
    fun adminId _ h₁ => deactivateAs_spec h₁ adminId tgt

end SecureFileTransfer
