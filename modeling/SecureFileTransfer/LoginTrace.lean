import SecureFileTransfer.LiveSessions

/-!
# LoginTrace — login and lockout as a function of the history

`ledger u h` reads an account out of the history `h` of a run: the password of its registration
and the times of its counted failures since the last success.  Every login of the run is decided by
that ledger and by the current status of the account, and by nothing else.
-/

namespace SecureFileTransfer

open Prog Service Runs

variable {b : Backend} {env : Env} {w w' : World b}

/-! ## The ledger of an account -/

/-- What the history says about an account; the latest failure stands first. -/
structure Ledger where
  password : Bytes
  failures : List Int
  deriving DecidableEq, Repr

namespace Ledger

/-- Five failures, the latest of them later than `t - 900000`. -/
def locked (e : Ledger) (t : Int) : Bool :=
  decide (5 ≤ e.failures.length) && e.failures.head?.any fun latest => decide (t - 900000 < latest)

/-- What a login attempt leaves: a success starts over, a wrong password is counted while the
account is active and not locked. -/
def attempt (e : Ledger) (active : Bool) (pw : Bytes) (t : Int) (success : Bool) : Ledger :=
  if success then
    { e with failures := [] }
  else if active && !e.locked t && pw != e.password then
    { e with failures := t :: e.failures }
  else
    e

end Ledger

/-- The account of this name is active. -/
def activeName (w : World b) (u : Bytes) : Bool :=
  (b.users.findByUsername w.users u).toOption.join.any User.isActive

abbrev ServiceTransition (b : Backend) := Transition (World b) ServiceCall (Except Exn ServiceReply)

/-- The call returned a success. -/
def ServiceReply.isSuccess : Except Exn ServiceReply → Bool
  | .ok (.user (.success _)) => true
  | .ok (.session (.success _)) => true
  | _ => false

/-- What one transition adds to the ledger of the account `u`. -/
def Ledger.observe (env : Env) (u : Bytes) (e : Option Ledger) (t : ServiceTransition b) :
    Option Ledger :=
  match t.input with
  | .registerUser n _ pw _ => if n = u ∧ ServiceReply.isSuccess t.output then some ⟨pw, []⟩ else e
  | .login n pw =>
      if n = u then
        e.map fun e => e.attempt (activeName t.before u) pw (env.clock t.before.clockReads)
          (ServiceReply.isSuccess t.output)
      else
        e
  | _ => e

/-- The ledger of the account `u` after the history. -/
def ledger (env : Env) (u : Bytes) (h : List (ServiceTransition b)) : Option Ledger :=
  h.foldl (Ledger.observe env u) none

theorem ledger_concat (env : Env) (u : Bytes) (h : List (ServiceTransition b))
    (t : ServiceTransition b) :
    ledger env u (h ++ [t]) = Ledger.observe env u (ledger env u h) t := by
  simp [ledger]

/-! ## One login -/

/-- How `login` ends when no collaborator throws. -/
inductive LoginExact (env : Env) (u pw : Bytes) (w : World b) :
    Except Exn (Result SessionId) → World b → Prop
  | unknown {r w'} (found : b.users.findByUsername w.users u = .ok none) (failed : Failed r)
      (stores : w'.toStores = w.toStores) : LoginExact env u pw w r w'
  | barred {r w' user} (found : b.users.findByUsername w.users u = .ok (some user))
      (cannot : user.canLogin (env.clock w.clockReads) = false) (failed : Failed r)
      (stores : w'.toStores = w.toStores) : LoginExact env u pw w r w'
  | wrong {r w' user enc} (found : b.users.findByUsername w.users u = .ok (some user))
      (can : user.canLogin (env.clock w.clockReads) = true)
      (encoded : b.users.getEncodedHash w.users user.id = .ok enc)
      (differs : env.verify enc pw = false) (failed : Failed r)
      (indexed : b.Indexed w.users → b.Indexed w'.users)
      (rewrites : b.users.Rewrites user.id (User.countFailure (env.clock w.clockReads)) w.users
        w'.users)
      (sessions : w'.sessions = w.sessions) : LoginExact env u pw w r w'
  | opened {w' user enc} (found : b.users.findByUsername w.users u = .ok (some user))
      (can : user.canLogin (env.clock w.clockReads) = true)
      (encoded : b.users.getEncodedHash w.users user.id = .ok enc)
      (verified : env.verify enc pw = true)
      (indexed : b.Indexed w.users → b.Indexed w'.users)
      (rewrites : b.users.Rewrites user.id (·.setLockout 0 0) w.users w'.users)
      (sessions : w.sessions.createForUser (env.randomToken w.tokens) user.id
        (env.clock w.clockReads) = .ok w'.sessions) :
      LoginExact env u pw w (.ok (.success (sessionToken (env.randomToken w.tokens)))) w'

/-- A write of the user repository that goes through, then the rest. -/
theorem wp_writeUsers_of_ok {β : Type} {c : Call} {f : b.users.State → Except Exn b.users.State}
    {k : Unit → Service b β} {Q : Except Exn β → World b → Prop} {users : b.users.State}
    (hfault : ∀ c n, env.fault c n = none) (hf : f w.users = .ok users)
    (hk : ∀ w', w'.toStores = w.toStores.withUsers users → Idle w w' → wp (k ()) Q w') :
    wp (writeUsers env c f >>= k) Q w := by
  rw [wp_bind]
  have hwrite : (f w.tick.users).map (fun users => ({ w.tick with users := users } : World b)) =
      .ok { w.tick with users := users } := by
    rw [show f w.tick.users = .ok users from hf]
    rfl
  exact wp_write_of_ok hfault hwrite (hk _ rfl ⟨rfl, rfl, Nat.le_succ _⟩)

/-- A session that can be opened, then the rest. -/
theorem wp_createForUser_of_ok {β : Type} {uid : UserId} {now : Int} {k : SessionId → Service b β}
    {Q : Except Exn β → World b → Prop} {st : MemorySessionStore}
    (hfault : ∀ c n, env.fault c n = none)
    (hcreate : w.sessions.createForUser (env.randomToken w.tokens) uid now = .ok st)
    (hk : ∀ w', w'.toStores = w.toStores.withSessions st →
      wp (k (sessionToken (env.randomToken w.tokens))) Q w') :
    wp (createForUser env uid now >>= k) Q w := by
  rw [wp_bind]
  refine wp_createForUser (fun e h => ?_) (fun e h => ?_) fun st' h => ?_
  · rw [hfault] at h
    cases h
  · cases hcreate.symm.trans h
  · obtain rfl : st = st' := Except.ok.inj (hcreate.symm.trans h)
    exact hk _ rfl

theorem login_exact (hfault : ∀ c n, env.fault c n = none) {u pw : Bytes} {found : Option User}
    (hclock : 0 ≤ env.clock w.clockReads) (hhour : env.clock w.clockReads + 3600 * 1000 < 2 ^ 63)
    (hfound : b.users.findByUsername w.users u = .ok found)
    (hhash : ∀ user, found = some user → ∃ enc, b.users.getEncodedHash w.users user.id = .ok enc) :
    wp (login env u pw) (LoginExact env u pw w) w := by
  unfold login
  refine wp_nowMs_bind fun w₁ h₁ _ => ?_
  have husers₁ : w₁.users = w.users := congrArg Stores.users h₁.stores
  refine wp_query_of_ok (a := found) hfault (husers₁ ▸ hfound) ?_
  have h₂ := h₁.tick
  cases found with
  | none => exact wp_record_failure fun r w' hr hq => .unknown hfound hr (h₂.trans hq).stores
  | some user =>
      refine wp_ite (fun hcannot => ?_) fun hcan => ?_
      · exact wp_record_failure fun r w' hr hq =>
          .barred hfound (by simpa using hcannot) hr (h₂.trans hq).stores
      obtain ⟨enc, henc⟩ := hhash user rfl
      have husers₂ : w₁.tick.users = w.users := congrArg Stores.users h₂.stores
      refine wp_query_of_ok (a := enc) hfault (husers₂ ▸ henc) ?_
      refine wp_query_of_ok (a := env.verify enc pw) hfault rfl ?_
      have h₄ := h₂.tick.tick
      have husers₄ : w₁.tick.tick.tick.users = w.users := congrArg Stores.users h₄.stores
      have hbyId : b.users.findById w.users user.id = .ok (some user) :=
        b.users_lawful.findById_of_findByUsername hfound
      refine wp_ite (fun hdiff => ?_) fun hsame => ?_
      · obtain ⟨users, hwrite, hrw⟩ := b.users_accounts.recordLoginFailure
          (env.clock w.clockReads) hbyId
        refine wp_writeUsers_of_ok hfault (husers₄ ▸ hwrite) fun w₅ hst _ => ?_
        refine wp_record_failure fun r w' hr hq => ?_
        have hst' : w'.toStores = w.toStores.withUsers users := by rw [hq.stores, hst, h₄.stores]
        have husers' : w'.users = users := congrArg Stores.users hst'
        exact .wrong hfound (by simpa using hcan) henc (by simpa using hdiff) hr
          (fun hi => husers' ▸ b.users_named.recordLoginFailure hi hwrite) (husers' ▸ hrw)
          (congrArg Stores.sessions hst' :)
      · obtain ⟨users, hwrite, hrw⟩ := b.users_accounts.resetLoginFailures hbyId
        refine wp_writeUsers_of_ok hfault (husers₄ ▸ hwrite) fun w₅ hst hidle => ?_
        have hidle₅ : Idle w w₅ := h₄.toIdle.trans hidle
        have hst₅ : w₅.toStores = w.toStores.withUsers users := by rw [hst, h₄.stores]
        have hsess₅ : w₅.sessions = w.sessions := (congrArg Stores.sessions hst₅ :)
        -- the hour fits, so the session can be opened
        obtain ⟨st, hcreate⟩ := MemorySessionStore.createForUser_of_fits (env.randomToken w.tokens)
          user.id (by omega) hhour w.sessions
        refine wp_createForUser_of_ok hfault (hsess₅ ▸ hidle₅.tokens ▸ hcreate) fun w₆ hst₆ => ?_
        refine wp_record_success fun r w' hq hr => ?_
        have hst' : w'.toStores = (w.toStores.withUsers users).withSessions st := by
          rw [hq.stores, hst₆, hst₅]
        have husers' : w'.users = users := congrArg Stores.users hst'
        have hsessions' : w'.sessions = st := congrArg Stores.sessions hst'
        rcases hr with hr | ⟨e, -, n, -, -, hthrew⟩
        · rw [hr, hidle₅.tokens]
          exact .opened hfound (by simpa using hcan) henc (by simpa using hsame)
            (fun hi => husers' ▸ b.users_named.resetLoginFailures hi hwrite) (husers' ▸ hrw)
            (hsessions' ▸ hcreate)
        · rw [hfault] at hthrew
          cases hthrew

/-! ## What the stored user keeps of the ledger -/

/-- The lockout that the failures imply. -/
def Ledger.lockoutUntil (e : Ledger) : Int :=
  if 5 ≤ e.failures.length then (e.failures.head?.getD 0) + lockoutMs else 0

theorem Ledger.locked_iff (e : Ledger) {t : Int} (ht : 0 ≤ t) :
    e.locked t = false ↔ e.lockoutUntil ≤ t := by
  unfold Ledger.locked Ledger.lockoutUntil lockoutMs
  cases hf : e.failures with
  | nil => simp [ht]
  | cons latest rest =>
      by_cases hlen : 5 ≤ (latest :: rest).length
      · rw [if_pos hlen]
        simp only [decide_eq_true hlen, Bool.true_and, List.head?_cons, Option.any_some,
          decide_eq_false_iff_not, Option.getD_some]
        omega
      · rw [if_neg hlen, decide_eq_false hlen]
        simp [ht]

/-- The stored user carries the ledger of its name. -/
structure Carries (env : Env) (w : World b) (u : Bytes) (e : Ledger) (user : User) : Prop where
  found : b.users.findByUsername w.users u = .ok (some user)
  name : user.username = u
  encoded : ∃ n, b.users.getEncodedHash w.users user.id = .ok (env.hash n e.password)
  fails : user.failedAttempts = e.failures.length
  lockout : user.lockoutUntil = e.lockoutUntil

/-- The users of a run are those of the ledgers. -/
structure Bookkeeping (env : Env) (h : List (ServiceTransition b)) (w : World b) : Prop where
  indexed : b.Indexed w.users
  total : ∀ n, ∃ o, b.users.findByUsername w.users n = .ok o
  unknown : ∀ u, ledger env u h = none → ∀ user,
    b.users.findByUsername w.users u = .ok (some user) → user.username ≠ u
  known : ∀ u e, ledger env u h = some e → ∃ user, Carries env w u e user

theorem bookkeeping_empty (env : Env) : Bookkeeping env [] (World.empty b) where
  indexed := b.users_named.empty.1
  total n := ⟨none, b.users_named.empty.2 n⟩
  unknown u _ user h := by
    have hnone : b.users.findByUsername (World.empty b).users u = .ok none := b.users_named.empty.2 u
    rw [hnone] at h
    cases h
  known u e h := by cases h

/-- The users are the same but for their status. -/
structure SameCounters (w w' : World b) : Prop where
  indexed : b.Indexed w.users → b.Indexed w'.users
  users : ∃ f : User → User, (∀ v, (f v).id = v.id ∧ (f v).username = v.username ∧
      (f v).failedAttempts = v.failedAttempts ∧ (f v).lockoutUntil = v.lockoutUntil) ∧
    ∀ n, b.users.findByUsername w'.users n = (b.users.findByUsername w.users n).map (Option.map f)
  hashes : ∀ i, b.users.getEncodedHash w'.users i = b.users.getEncodedHash w.users i

theorem SameCounters.of_users (h : w'.users = w.users) : SameCounters w w' where
  indexed := by
    rw [h]
    exact fun hi => hi
  users := by
    refine ⟨fun v => v, fun v => ⟨rfl, rfl, rfl, rfl⟩, fun n => ?_⟩
    rw [h]
    rcases b.users.findByUsername w.users n with e | (_ | v)
    · rfl
    · rfl
    · rfl
  hashes i := by rw [h]

theorem SameCounters.of_status {id : UserId} {status : Bytes}
    (hindexed : b.Indexed w.users → b.Indexed w'.users)
    (h : b.users.Rewrites id (·.setStatus status) w.users w'.users) : SameCounters w w' where
  indexed := hindexed
  users := by
    refine ⟨User.rewrite id (·.setStatus status), fun v => ?_, h.findByUsername⟩
    unfold User.rewrite
    split
    · exact ⟨rfl, rfl, rfl, rfl⟩
    · exact ⟨rfl, rfl, rfl, rfl⟩
  hashes := h.getEncodedHash

/-- The counters of the account, if it exists. -/
def counters (w : World b) (u : Bytes) : Option (Int × Int) :=
  (b.users.findByUsername w.users u).toOption.join.map fun v => (v.failedAttempts, v.lockoutUntil)

theorem SameCounters.counters_eq (h : SameCounters w w') (u : Bytes) :
    counters w' u = counters w u := by
  obtain ⟨f, hf, husers⟩ := h.users
  rw [counters, counters, husers]
  rcases b.users.findByUsername w.users u with e | (_ | v)
  · rfl
  · rfl
  · simp [Except.map, Except.toOption, hf]

/-- A transition that says nothing about any account keeps the books. -/
theorem Bookkeeping.sameCounters {h : List (ServiceTransition b)} {t : ServiceTransition b}
    (hb : Bookkeeping env h w) (hs : SameCounters w w')
    (hledger : ∀ u, ledger env u (h ++ [t]) = ledger env u h) : Bookkeeping env (h ++ [t]) w' := by
  obtain ⟨f, hf, husers⟩ := hs.users
  refine ⟨hs.indexed hb.indexed, fun n => ?_, fun u hu user hfound => ?_, fun u e hu => ?_⟩
  · obtain ⟨o, ho⟩ := hb.total n
    exact ⟨o.map f, by rw [husers, ho]; rfl⟩
  · rw [hledger] at hu
    obtain ⟨o, ho⟩ := hb.total u
    rw [husers, ho] at hfound
    cases o with
    | none => cases hfound
    | some v =>
        obtain rfl : f v = user := Option.some.inj (Except.ok.inj hfound)
        rw [(hf v).2.1]
        exact hb.unknown u hu v ho
  · rw [hledger] at hu
    obtain ⟨v, hv⟩ := hb.known u e hu
    obtain ⟨hid, hname, hfails, hlock⟩ := hf v
    refine ⟨f v, by rw [husers, hv.found]; rfl, hname.trans hv.name, ?_, hfails.trans hv.fails,
      hlock.trans hv.lockout⟩
    rw [hid, hs.hashes]
    exact hv.encoded

/-! ## The steps of a run -/

/-- The account a call is about, for registrations and logins. -/
def ServiceCall.concerns : ServiceCall → Bytes → Prop
  | .registerUser n _ _ _, u => n = u
  | .login n _, u => n = u
  | _, _ => False

/-- Names go into the repository as they are, and a login finds an account only under its name. -/
def NamesAccount (w : World b) : ServiceCall → Prop
  | .registerUser u email _ _ => b.text u = u ∧ (b.text email = [] → email = [])
  | .login u _ => ∀ user, b.users.findByUsername w.users u = .ok (some user) → user.username = u
  | _ => True

/-- An hour after the login is a time, and the counter of the account can count one more failure. -/
def CountsWithoutOverflow (env : Env) (w : World b) : ServiceCall → Prop
  | .login u _ => env.clock w.clockReads + 3600 * 1000 < 2 ^ 63 ∧
      ∀ p ∈ counters w u, p.1 + 1 < 2 ^ 31
  | _ => True

instance (env : Env) (w : World b) : (c : ServiceCall) → Decidable (CountsWithoutOverflow env w c)
  | .login .. => inferInstanceAs (Decidable (_ ∧ _))
  | .registerUser .. | .logout .. | .activate .. | .deactivate .. | .activateById ..
  | .deactivateById .. | .savePubkey .. | .upload .. | .download .. => .isTrue trivial

/-- The transition obeys the ledgers of the history before it. -/
structure FollowsLedger (env : Env) (h : List (ServiceTransition b)) (t : ServiceTransition b) :
    Prop where
  success : ∀ u pw, t.input = .login u pw →
    ((∃ token, t.output = .ok (.session (.success token))) ↔
      ∃ e, ledger env u h = some e ∧ activeName t.before u = true ∧ pw = e.password ∧
        e.locked (env.clock t.before.clockReads) = false)
  /-- A success opens one session, of the user of that name. -/
  opens : ∀ u pw token, t.input = .login u pw → t.output = .ok (.session (.success token)) →
    token = sessionToken (env.randomToken t.before.tokens) ∧
    ∃ user, b.users.findByUsername t.before.users u = .ok (some user) ∧
      t.before.sessions.createForUser (env.randomToken t.before.tokens) user.id
        (env.clock t.before.clockReads) = .ok t.after.sessions
  keeps : ∀ u pw, t.input = .login u pw → (∀ token, t.output ≠ .ok (.session (.success token))) →
    t.after.sessions = t.before.sessions
  others : ∀ u, ledger env u h ≠ none → ¬ t.input.concerns u → counters t.after u = counters t.before u

/-- A call that is neither a registration nor a login obeys the ledgers if it keeps the counters. -/
theorem followsLedger_of_sameCounters {h : List (ServiceTransition b)} {t : ServiceTransition b}
    (hc : ∀ u pw, t.input ≠ .login u pw) (hs : SameCounters t.before t.after) :
    FollowsLedger env h t where
  success u pw heq := absurd heq (hc u pw)
  opens u pw _ heq := absurd heq (hc u pw)
  keeps u pw heq := absurd heq (hc u pw)
  others u _ _ := hs.counters_eq u

/-- The password hasher: a hash verifies its password and no other, and is a C string. -/
structure HasherLaw (env : Env) : Prop where
  verify_hash : ∀ n p q, env.verify (env.hash n p) q = true ↔ p = q
  zero_free : ∀ n p, (0 : UInt8) ∉ env.hash n p

theorem perform_login (u pw : Bytes) : perform env (.login u pw) w =
    ((login env u pw w).1.map ServiceReply.session, (login env u pw w).2) := by
  show (login env u pw >>= fun r => pure (ServiceReply.session r)) w = _
  simp only [Bind.bind, Pure.pure]
  rcases login env u pw w with ⟨e | r, w'⟩
  · rfl
  · rfl

/-- Two accounts of different names have different ids. -/
theorem Carries.id_ne {u n : Bytes} {e₁ e₂ : Ledger} {v user : User} (hv : Carries env w u e₁ v)
    (huser : Carries env w n e₂ user) (hne : u ≠ n) : v.id ≠ user.id := by
  intro heq
  have hv' := b.users_lawful.findById_of_findByUsername hv.found
  have huser' := b.users_lawful.findById_of_findByUsername huser.found
  rw [heq, huser'] at hv'
  obtain rfl : user = v := Option.some.inj (Except.ok.inj hv')
  exact hne (hv.name.symm.trans huser.name)

/-- One account is written together with its ledger; the others keep theirs. -/
theorem Bookkeeping.write {h : List (ServiceTransition b)} {t : ServiceTransition b} {n : Bytes}
    {e' : Ledger} (hb : Bookkeeping env h w) (hindexed : b.Indexed w'.users)
    (htotal : ∀ u, ∃ o, b.users.findByUsername w'.users u = .ok o)
    (hnames : ∀ u x, b.users.findByUsername w'.users u = .ok (some x) → x.username = n ∨
      ∃ y, b.users.findByUsername w.users u = .ok (some y) ∧ x.username = y.username)
    (hledger : ∀ u, ledger env u (h ++ [t]) = if n = u then some e' else ledger env u h)
    (hwritten : ∃ user, Carries env w' n e' user)
    (hothers : ∀ u e v, n ≠ u → Carries env w u e v → Carries env w' u e v) :
    Bookkeeping env (h ++ [t]) w' ∧
      ∀ u, ledger env u h ≠ none → n ≠ u → counters w' u = counters w u := by
  refine ⟨⟨hindexed, htotal, fun u hu x hx => ?_, fun u e hu => ?_⟩, fun u hu hne => ?_⟩
  · -- a name without a ledger is not that of the account that was written
    rw [hledger] at hu
    split at hu
    · cases hu
    · rename_i hne
      rcases hnames u x hx with hn | ⟨y, hy, hxy⟩
      · rw [hn]
        exact hne
      · rw [hxy]
        exact hb.unknown u hu y hy
  · rw [hledger] at hu
    split at hu
    · subst n
      obtain rfl : e' = e := Option.some.inj hu
      exact hwritten
    · rename_i hne
      obtain ⟨v, hv⟩ := hb.known u e hu
      exact ⟨v, hothers u e v hne hv⟩
  · obtain ⟨e, he⟩ := Option.ne_none_iff_exists'.1 hu
    obtain ⟨v, hv⟩ := hb.known u e he
    rw [counters, counters, (hothers u e v hne hv).found, hv.found]

theorem User.rewrite_username {id : UserId} {g : User → User}
    (hg : ∀ v, (g v).id = v.id ∧ (g v).username = v.username) (v : User) :
    (User.rewrite id g v).username = v.username := by
  unfold User.rewrite
  split
  · exact (hg v).2
  · rfl

/-- The books after the counters of one account are rewritten. -/
theorem Bookkeeping.rewrite {h : List (ServiceTransition b)} {t : ServiceTransition b} {n : Bytes}
    {e e' : Ledger} {user : User} {g : User → User} (hb : Bookkeeping env h w)
    (hc : Carries env w n e user) (hindexed : b.Indexed w.users → b.Indexed w'.users)
    (hrw : b.users.Rewrites user.id g w.users w'.users)
    (hg : ∀ v, (g v).id = v.id ∧ (g v).username = v.username)
    (hledger : ∀ u, ledger env u (h ++ [t]) = if n = u then some e' else ledger env u h)
    (hpw : e'.password = e.password) (hfails : (g user).failedAttempts = e'.failures.length)
    (hlock : (g user).lockoutUntil = e'.lockoutUntil) :
    Bookkeeping env (h ++ [t]) w' ∧
      ∀ u, ledger env u h ≠ none → n ≠ u → counters w' u = counters w u := by
  refine hb.write (hindexed hb.indexed) (fun u => ?_) (fun u x hx => ?_) hledger
    ⟨g user, ?_, (hg user).2.trans hc.name, ?_, hfails, hlock⟩ fun u e₁ v hne hv => ?_
  · obtain ⟨o, ho⟩ := hb.total u
    exact ⟨_, by rw [hrw.findByUsername, ho]; rfl⟩
  · obtain ⟨o, ho⟩ := hb.total u
    rw [hrw.findByUsername, ho] at hx
    cases o with
    | none => cases hx
    | some y =>
        obtain rfl : User.rewrite user.id g y = x := Option.some.inj (Except.ok.inj hx)
        exact .inr ⟨y, ho, User.rewrite_username hg y⟩
  · rw [hrw.findByUsername, hc.found]
    simp [Except.map, User.rewrite]
  · rw [(hg user).1, hrw.getEncodedHash, hpw]
    exact hc.encoded
  · -- an account of another name has another id, so the rewriting passes it by
    refine ⟨?_, hv.name, ?_, hv.fails, hv.lockout⟩
    · rw [hrw.findByUsername, hv.found]
      simp [Except.map, User.rewrite, hv.id_ne hc hne.symm]
    · rw [hrw.getEncodedHash]
      exact hv.encoded

theorem activeName_of_found {u : Bytes} {user : User}
    (h : b.users.findByUsername w.users u = .ok (some user)) : activeName w u = user.isActive := by
  rw [activeName, h]
  rfl

/-- The transition of a login that ended in `r`. -/
def loginTransition (u pw : Bytes) (w : World b) (r : Except Exn (Result SessionId))
    (w' : World b) : ServiceTransition b where
  before := w
  input := .login u pw
  output := r.map ServiceReply.session
  after := w'

theorem session_success_iff {r : Except Exn (Result SessionId)} {token : SessionId} :
    r.map ServiceReply.session = .ok (.session (.success token)) ↔ r = .ok (.success token) := by
  rcases r with e | (token' | text)
  · simp [Except.map]
  · simp [Except.map]
  · simp [Except.map]

theorem isSuccess_of_failed {r : Except Exn (Result SessionId)} (h : Failed r) :
    ServiceReply.isSuccess (r.map ServiceReply.session) = false := by
  rcases r with e | (token | text)
  · rfl
  · exact absurd rfl (h token)
  · rfl

theorem ledger_login {h : List (ServiceTransition b)} {n pw u : Bytes}
    {r : Except Exn (Result SessionId)} :
    ledger env u (h ++ [loginTransition n pw w r w']) =
      if n = u then
        (ledger env u h).map fun e => e.attempt (activeName w u) pw (env.clock w.clockReads)
          (ServiceReply.isSuccess (r.map ServiceReply.session))
      else
        ledger env u h := by
  rw [ledger_concat]
  rfl

/-- A login that fails as the ledger says. -/
theorem followsLedger_of_failed {h : List (ServiceTransition b)} {n pw : Bytes}
    {r : Except Exn (Result SessionId)} (hfailed : Failed r)
    (hledger : ¬ ∃ e, ledger env n h = some e ∧ activeName w n = true ∧ pw = e.password ∧
      e.locked (env.clock w.clockReads) = false)
    (hsessions : w'.sessions = w.sessions)
    (hothers : ∀ u, ledger env u h ≠ none → n ≠ u → counters w' u = counters w u) :
    FollowsLedger env h (loginTransition n pw w r w') where
  success := by
    rintro u pw' heq
    cases heq
    refine ⟨?_, fun hadmitted => absurd hadmitted hledger⟩
    rintro ⟨token, htoken⟩
    exact absurd (session_success_iff.1 htoken) (hfailed token)
  opens u pw' token _ htoken := absurd (session_success_iff.1 htoken) (hfailed token)
  keeps _ _ _ _ := hsessions
  others u hu hne := hothers u hu hne

/-- A user with an account can log in unless it is inactive or its ledger is locked. -/
theorem Carries.canLogin_iff {u : Bytes} {e : Ledger} {user : User} (hc : Carries env w u e user)
    {t : Int} (ht : 0 ≤ t) :
    user.canLogin t = true ↔ activeName w u = true ∧ e.locked t = false := by
  rw [activeName_of_found hc.found, e.locked_iff ht, User.canLogin, hc.lockout, Bool.and_eq_true,
    decide_eq_true_iff]

section Login

variable {h : List (ServiceTransition b)} {n pw : Bytes} {r : Except Exn (Result SessionId)}

/-- Whoever is found under the name of a login carries its ledger. -/
theorem Bookkeeping.carried (hb : Bookkeeping env h w) (hnames : NamesAccount w (.login n pw))
    {user : User} (hfound : b.users.findByUsername w.users n = .ok (some user)) :
    ∃ e, ledger env n h = some e ∧ Carries env w n e user := by
  cases hl : ledger env n h with
  | none => exact absurd (hnames user hfound) (hb.unknown n hl user hfound)
  | some e =>
      obtain ⟨v, hv⟩ := hb.known n e hl
      obtain rfl : user = v := Option.some.inj (Except.ok.inj (hfound.symm.trans hv.found))
      exact ⟨e, rfl, hv⟩

theorem Bookkeeping.ledger_eq_none (hb : Bookkeeping env h w)
    (hfound : b.users.findByUsername w.users n = .ok none) : ledger env n h = none := by
  cases hl : ledger env n h with
  | none => rfl
  | some e =>
      obtain ⟨v, hv⟩ := hb.known n e hl
      rw [hv.found] at hfound
      cases hfound

/-- The hash on record is that of the last password registered. -/
theorem Carries.verify_iff {u enc : Bytes} {e : Ledger} {user : User} (hc : Carries env w u e user)
    (hhasher : HasherLaw env) (hencoded : b.users.getEncodedHash w.users user.id = .ok enc) :
    env.verify enc pw = true ↔ pw = e.password := by
  obtain ⟨k, hk⟩ := hc.encoded
  obtain rfl : enc = env.hash k e.password := Except.ok.inj (hencoded.symm.trans hk)
  rw [hhasher.verify_hash, eq_comm]

theorem Carries.counters_eq {u : Bytes} {e : Ledger} {user : User} (hc : Carries env w u e user) :
    counters w u = some (user.failedAttempts, user.lockoutUntil) := by
  rw [counters, hc.found]
  rfl

/-- `recordLoginFailure` writes the counters of the ledger with one more failure. -/
theorem Carries.countFailure {u : Bytes} {e : Ledger} {user : User} (hc : Carries env w u e user)
    {t : Int} (ht : 0 ≤ t) (hhour : t + 3600 * 1000 < 2 ^ 63)
    (hcount : user.failedAttempts + 1 < 2 ^ 31) :
    (User.countFailure t user).failedAttempts = ((t :: e.failures).length : Int) ∧
      (User.countFailure t user).lockoutUntil =
        ({ e with failures := t :: e.failures } : Ledger).lockoutUntil := by
  have hnext : nextFailure user.failedAttempts = ((t :: e.failures).length : Int) := by
    rw [hc.fails] at hcount ⊢
    exact int32_of_fits (by omega) hcount
  have hlen : nextFailure user.failedAttempts ≥ 5 ↔ 5 ≤ e.failures.length + 1 := by
    rw [hnext, List.length_cons]
    omega
  refine ⟨hnext, ?_⟩
  simp only [User.countFailure, User.setLockout, lockoutAfter, Ledger.lockoutUntil,
    List.length_cons, List.head?_cons, Option.getD_some, hlen, lockoutMs]
  rw [int64_of_fits (by omega) (by omega)]
  split
  · rfl
  · -- below five failures the lockout stays what it was, which is none
    rw [hc.lockout, Ledger.lockoutUntil, if_neg (by omega)]

/-- A login writes into the ledger of its own name only. -/
theorem ledger_login_of_attempt {e e' : Ledger} (he : ledger env n h = some e)
    (hattempt : e.attempt (activeName w n) pw (env.clock w.clockReads)
      (ServiceReply.isSuccess (r.map ServiceReply.session)) = e') (u : Bytes) :
    ledger env u (h ++ [loginTransition n pw w r w']) =
      if n = u then some e' else ledger env u h := by
  rw [ledger_login]
  split
  · subst n
    rw [he, Option.map_some, hattempt]
  · rfl

/-- A failed login that leaves the stores and adds nothing to the ledger. -/
theorem step_of_refused_login (hb : Bookkeeping env h w) (hfailed : Failed r)
    (hstores : w'.toStores = w.toStores)
    (hledger : ∀ u, ledger env u (h ++ [loginTransition n pw w r w']) = ledger env u h)
    (hclosed : ¬ ∃ e, ledger env n h = some e ∧ activeName w n = true ∧ pw = e.password ∧
      e.locked (env.clock w.clockReads) = false) :
    Bookkeeping env (h ++ [loginTransition n pw w r w']) w' ∧
      FollowsLedger env h (loginTransition n pw w r w') := by
  have hsame : SameCounters w w' := .of_users (congrArg Stores.users hstores)
  exact ⟨hb.sameCounters hsame hledger, followsLedger_of_failed hfailed hclosed
    (congrArg Stores.sessions hstores) fun u _ _ => hsame.counters_eq u⟩

theorem step_of_unknown_login (hb : Bookkeeping env h w)
    (hfound : b.users.findByUsername w.users n = .ok none) (hfailed : Failed r)
    (hstores : w'.toStores = w.toStores) :
    Bookkeeping env (h ++ [loginTransition n pw w r w']) w' ∧
      FollowsLedger env h (loginTransition n pw w r w') := by
  have hnone := hb.ledger_eq_none hfound
  refine step_of_refused_login hb hfailed hstores (fun u => ?_) ?_
  · rw [ledger_login]
    split
    · subst n
      rw [hnone]
      rfl
    · rfl
  · rintro ⟨e, he, -⟩
    rw [hnone] at he
    cases he

theorem step_of_barred_login {user : User} {e : Ledger} (hb : Bookkeeping env h w)
    (hclock : 0 ≤ env.clock w.clockReads) (he : ledger env n h = some e)
    (hc : Carries env w n e user) (hcannot : user.canLogin (env.clock w.clockReads) = false)
    (hfailed : Failed r) (hstores : w'.toStores = w.toStores) :
    Bookkeeping env (h ++ [loginTransition n pw w r w']) w' ∧
      FollowsLedger env h (loginTransition n pw w r w') := by
  have hnot : ¬ (activeName w n = true ∧ e.locked (env.clock w.clockReads) = false) := by
    rw [← hc.canLogin_iff hclock, hcannot]
    exact Bool.false_ne_true
  -- the attempt is not counted, whatever the password
  have hattempt : e.attempt (activeName w n) pw (env.clock w.clockReads)
      (ServiceReply.isSuccess (r.map ServiceReply.session)) = e := by
    have hgate : (activeName w n && !e.locked (env.clock w.clockReads)) = false := by
      simpa using hnot
    rw [isSuccess_of_failed hfailed, Ledger.attempt, hgate]
    rfl
  refine step_of_refused_login hb hfailed hstores (fun u => ?_) ?_
  · rw [ledger_login_of_attempt he hattempt]
    split
    · subst n
      exact he.symm
    · rfl
  · rintro ⟨e', he', hactive, -, hopen⟩
    obtain rfl : e = e' := Option.some.inj (he.symm.trans he')
    exact hnot ⟨hactive, hopen⟩

theorem step_of_wrong_login {user : User} {e : Ledger} (hb : Bookkeeping env h w)
    (hclock : 0 ≤ env.clock w.clockReads) (hfits : CountsWithoutOverflow env w (.login n pw))
    (he : ledger env n h = some e) (hc : Carries env w n e user)
    (hactive : activeName w n = true) (hopen : e.locked (env.clock w.clockReads) = false)
    (hwrong : pw ≠ e.password) (hfailed : Failed r)
    (hindexed : b.Indexed w.users → b.Indexed w'.users)
    (hrewrites : b.users.Rewrites user.id (User.countFailure (env.clock w.clockReads)) w.users
      w'.users)
    (hsessions : w'.sessions = w.sessions) :
    Bookkeeping env (h ++ [loginTransition n pw w r w']) w' ∧
      FollowsLedger env h (loginTransition n pw w r w') := by
  have hattempt : e.attempt (activeName w n) pw (env.clock w.clockReads)
      (ServiceReply.isSuccess (r.map ServiceReply.session)) =
        { e with failures := env.clock w.clockReads :: e.failures } := by
    rw [isSuccess_of_failed hfailed, Ledger.attempt, hactive, hopen]
    simp [hwrong]
  obtain ⟨hfails, hlock⟩ := hc.countFailure hclock hfits.1 (hfits.2 _ hc.counters_eq)
  obtain ⟨hbooks, hothers⟩ := hb.rewrite hc hindexed hrewrites (fun _ => ⟨rfl, rfl⟩)
    (ledger_login_of_attempt he hattempt) rfl hfails hlock
  refine ⟨hbooks, followsLedger_of_failed hfailed ?_ hsessions hothers⟩
  rintro ⟨e', he', -, hpw, -⟩
  obtain rfl : e = e' := Option.some.inj (he.symm.trans he')
  exact hwrong hpw

theorem step_of_opened_login {user : User} {e : Ledger} (hb : Bookkeeping env h w)
    (hfound : b.users.findByUsername w.users n = .ok (some user)) (he : ledger env n h = some e)
    (hc : Carries env w n e user) (hactive : activeName w n = true)
    (hopen : e.locked (env.clock w.clockReads) = false) (hright : pw = e.password)
    (hindexed : b.Indexed w.users → b.Indexed w'.users)
    (hrewrites : b.users.Rewrites user.id (·.setLockout 0 0) w.users w'.users)
    (hsessions : w.sessions.createForUser (env.randomToken w.tokens) user.id
      (env.clock w.clockReads) = .ok w'.sessions) :
    Bookkeeping env (h ++ [loginTransition n pw w
        (.ok (.success (sessionToken (env.randomToken w.tokens)))) w']) w' ∧
      FollowsLedger env h (loginTransition n pw w
        (.ok (.success (sessionToken (env.randomToken w.tokens)))) w') := by
  -- a success clears the failures, so the next lockout needs five new ones
  have hattempt : e.attempt (activeName w n) pw (env.clock w.clockReads)
      (ServiceReply.isSuccess ((Except.ok (.success (sessionToken (env.randomToken w.tokens)))).map
        ServiceReply.session)) = { e with failures := [] } := rfl
  obtain ⟨hbooks, hothers⟩ := hb.rewrite hc hindexed hrewrites (fun _ => ⟨rfl, rfl⟩)
    (ledger_login_of_attempt he hattempt) rfl rfl rfl
  refine ⟨hbooks, fun u pw' heq => ?_, fun u pw' token heq htoken => ?_,
    fun u pw' _ hnone => ?_, hothers⟩
  · cases heq
    exact ⟨fun _ => ⟨e, he, hactive, hright, hopen⟩, fun _ => ⟨_, rfl⟩⟩
  · cases heq
    cases htoken
    exact ⟨rfl, user, hfound, hsessions⟩
  · exact absurd rfl (hnone _)

/-- Every way a login ends keeps the books and obeys the ledger. -/
theorem LoginExact.step (hexact : LoginExact env n pw w r w') (hhasher : HasherLaw env)
    (hclock : 0 ≤ env.clock w.clockReads) (hb : Bookkeeping env h w)
    (hnames : NamesAccount w (.login n pw)) (hfits : CountsWithoutOverflow env w (.login n pw)) :
    Bookkeeping env (h ++ [loginTransition n pw w r w']) w' ∧
      FollowsLedger env h (loginTransition n pw w r w') := by
  cases hexact with
  | unknown found failed stores => exact step_of_unknown_login hb found failed stores
  | barred found cannot failed stores =>
      obtain ⟨e, he, hc⟩ := hb.carried hnames found
      exact step_of_barred_login hb hclock he hc cannot failed stores
  | wrong found can encoded differs failed indexed rewrites sessions =>
      obtain ⟨e, he, hc⟩ := hb.carried hnames found
      obtain ⟨hactive, hopen⟩ := (hc.canLogin_iff hclock).1 can
      have hwrong : pw ≠ e.password := by
        intro hpw
        rw [(hc.verify_iff hhasher encoded).2 hpw] at differs
        cases differs
      exact step_of_wrong_login hb hclock hfits he hc hactive hopen hwrong failed indexed rewrites
        sessions
  | opened found can encoded verified indexed rewrites sessions =>
      obtain ⟨e, he, hc⟩ := hb.carried hnames found
      obtain ⟨hactive, hopen⟩ := (hc.canLogin_iff hclock).1 can
      exact step_of_opened_login hb found he hc hactive hopen
        ((hc.verify_iff hhasher encoded).1 verified) indexed rewrites sessions

end Login

/-- The transition of a registration that ended in `r`. -/
def registerTransition (n email pw role : Bytes) (w : World b) (r : Except Exn (Result UserId))
    (w' : World b) : ServiceTransition b where
  before := w
  input := .registerUser n email pw role
  output := r.map ServiceReply.user
  after := w'

theorem perform_registerUser (n email pw role : Bytes) : perform env (.registerUser n email pw role) w =
    ((registerUser env n email pw role w).1.map ServiceReply.user,
      (registerUser env n email pw role w).2) := by
  show (registerUser env n email pw role >>= fun r => pure (ServiceReply.user r)) w = _
  simp only [Bind.bind, Pure.pure]
  rcases registerUser env n email pw role w with ⟨e | r, w'⟩
  · rfl
  · rfl

theorem ledger_register {h : List (ServiceTransition b)} {n email pw role u : Bytes}
    {r : Except Exn (Result UserId)} :
    ledger env u (h ++ [registerTransition n email pw role w r w']) =
      if n = u ∧ ServiceReply.isSuccess (r.map ServiceReply.user) = true then some ⟨pw, []⟩
      else ledger env u h := by
  rw [ledger_concat]
  rfl

/-- A user that is saved under a proper name is read back with that name and clear counters. -/
theorem stored_of_new {id : UserId} {n email role : Bytes} {user : User}
    (hnew : User.new id n email role (ascii "active") 0 0 = .ok user)
    (hzero : (0 : UInt8) ∉ id.value) (hname : b.text n = n) (hmail : b.text email = [] → email = []) :
    ∃ v, user.stored b.text = .ok v ∧ v.id = id ∧ v.username = n ∧ v.failedAttempts = 0 ∧
      v.lockoutUntil = 0 ∧ user.id = id ∧ user.username = n := by
  unfold User.new at hnew
  split at hnew
  · rename_i hne
    cases hnew
    have hid : b.text id.value = id.value := Backend.text_of_zero_free hzero
    have hne' : b.text id.value ≠ [] ∧ b.text n ≠ [] ∧ b.text email ≠ [] :=
      ⟨by rw [hid]; exact hne.1, by rw [hname]; exact hne.2.1, fun h => hne.2.2 (hmail h)⟩
    exact ⟨_, dif_pos hne', congrArg UserId.mk hid, hname, rfl, rfl, rfl, rfl⟩
  · cases hnew

section Register

variable {h : List (ServiceTransition b)} {n email pw role : Bytes}

theorem register_ne_login {r : Except Exn (Result UserId)} (u pw' : Bytes) :
    (registerTransition n email pw role w r w').input ≠ .login u pw' := by
  intro heq
  cases heq

theorem step_of_refused_register {r : Except Exn (Result UserId)} (hb : Bookkeeping env h w)
    (hfailed : Failed r) (hstores : w'.toStores = w.toStores) :
    Bookkeeping env (h ++ [registerTransition n email pw role w r w']) w' ∧
      FollowsLedger env h (registerTransition n email pw role w r w') := by
  have hsame : SameCounters w w' := .of_users (congrArg Stores.users hstores)
  refine ⟨hb.sameCounters hsame fun u => ?_, followsLedger_of_sameCounters register_ne_login hsame⟩
  rw [ledger_register, if_neg]
  rintro ⟨-, hsuccess⟩
  rcases r with e | (id | text)
  · cases hsuccess
  · exact hfailed id rfl
  · cases hsuccess

theorem step_of_saved_register {id : UserId} {k : Nat} {user : User} {users : b.users.State}
    (hhasher : HasherLaw env) (hb : Bookkeeping env h w)
    (hnames : NamesAccount w (.registerUser n email pw role)) (hzero : (0 : UInt8) ∉ id.value)
    (hnew : User.new id n email role (ascii "active") 0 0 = .ok user)
    (hwrite : b.users.save user (env.hash k pw) w.users = .ok users) (husers : w'.users = users) :
    Bookkeeping env (h ++ [registerTransition n email pw role w (.ok (.success id)) w']) w' ∧
      FollowsLedger env h (registerTransition n email pw role w (.ok (.success id)) w') := by
  obtain ⟨v, hv, hid, hname, hfails, hlock, hid', hname'⟩ :=
    stored_of_new (b := b) hnew hzero hnames.1 hnames.2
  obtain ⟨hindexed, hfind⟩ := b.users_named.save hb.indexed hwrite
  have hadds := b.users_accounts.save hwrite
  rw [← husers] at hindexed hfind hadds
  rw [hv, hname', hnames.1] at hfind
  have hledger : ∀ u, ledger env u (h ++ [registerTransition n email pw role w
      (.ok (.success id)) w']) = if n = u then some ⟨pw, []⟩ else ledger env u h := by
    intro u
    rw [ledger_register]
    simp [ServiceReply.isSuccess, Except.map]
  -- the row is found under its own name, every other name is looked up as before
  have hwritten : Carries env w' n ⟨pw, []⟩ v := by
    refine ⟨by rw [hfind, if_pos hnames.1]; rfl, hname, ⟨k, ?_⟩, hfails, hlock⟩
    rw [hadds.getEncodedHash, if_pos (by rw [hid, hid'])]
    exact congrArg Except.ok (Backend.text_of_zero_free (hhasher.zero_free k pw))
  have hothers : ∀ u e x, n ≠ u → Carries env w u e x → Carries env w' u e x := by
    intro u e x hne hx
    have htext : b.text u = u := (b.users_named.username hb.indexed hx.found).symm.trans hx.name
    refine ⟨?_, hx.name, ?_, hx.fails, hx.lockout⟩
    · rw [hfind, htext, if_neg (Ne.symm hne)]
      exact hx.found
    · -- `save` refuses an id that is taken, so the new row has another
      rw [hadds.getEncodedHash, if_neg]
      · exact hx.encoded
      · intro htext
        have hxid := b.users_lawful.findById_of_findByUsername hx.found
        rw [hadds.absent x.id htext] at hxid
        cases hxid
  have htotal : ∀ u, ∃ o, b.users.findByUsername w'.users u = .ok o := by
    intro u
    rw [hfind]
    split
    · exact ⟨some v, rfl⟩
    · exact hb.total u
  have hnamed : ∀ u x, b.users.findByUsername w'.users u = .ok (some x) → x.username = n ∨
      ∃ y, b.users.findByUsername w.users u = .ok (some y) ∧ x.username = y.username := by
    intro u x hx
    rw [hfind] at hx
    split at hx
    · obtain rfl : v = x := Option.some.inj (Except.ok.inj hx)
      exact .inl hname
    · exact .inr ⟨x, hx, rfl⟩
  obtain ⟨hbooks, hcounters⟩ := hb.write hindexed htotal hnamed hledger ⟨v, hwritten⟩ hothers
  exact ⟨hbooks, fun u pw' heq => absurd heq (register_ne_login u pw'),
    fun u pw' _ heq => absurd heq (register_ne_login u pw'),
    fun u pw' heq => absurd heq (register_ne_login u pw'), hcounters⟩

/-- Every way a registration ends keeps the books. -/
theorem RegisterSaved.step {r : Except Exn (Result UserId)}
    (hsaved : RegisterSaved env n email pw role w r w')
    (hfault : ∀ c n, env.fault c n = none) (hhasher : HasherLaw env) (hb : Bookkeeping env h w)
    (hnames : NamesAccount w (.registerUser n email pw role)) :
    Bookkeeping env (h ++ [registerTransition n email pw role w r w']) w' ∧
      FollowsLedger env h (registerTransition n email pw role w r w') := by
  cases hsaved with
  | refused failed stores => exact step_of_refused_register hb failed stores
  | saved zeroFree _ new write stores result =>
      -- a saved account is reported as one: the audit entry after it cannot throw here
      rcases result with hr | ⟨e, -, m, -, -, hthrew⟩
      · subst hr
        exact step_of_saved_register hhasher hb hnames zeroFree new write
          (congrArg Stores.users stores)
      · rw [hfault] at hthrew
        cases hthrew

end Register

theorem sameCounters_of_update {tgt : UserId} {u : User} {users : b.users.State} {status : Bytes}
    (hzero : (0 : UInt8) ∉ status) (found : b.users.findById w.users tgt = .ok (some u))
    (write : b.users.update (u.setStatus status) w.users = .ok users) (husers : w'.users = users) :
    SameCounters w w' := by
  obtain ⟨s', hs', hrw⟩ := b.users_accounts.update found hzero
  obtain rfl : users = s' := Except.ok.inj (write.symm.trans hs')
  subst husers
  exact .of_status (fun hi => b.users_named.update hi write) hrw

theorem ActivateOutcome.sameCounters {tgt : UserId} {r : Except Exn (Result UserId)}
    (h : ActivateOutcome env tgt w r w') : SameCounters w w' := by
  cases h with
  | refused _ stores _ => exact .of_users (congrArg Stores.users stores :)
  | updated found write stores _ _ =>
      exact sameCounters_of_update active_zero_free found write (congrArg Stores.users stores :)

theorem DeactivateOutcome.sameCounters {tgt : UserId} {r : Except Exn (Result UserId)}
    (h : DeactivateOutcome env tgt w r w') : SameCounters w w' := by
  cases h with
  | refused _ stores _ => exact .of_users (congrArg Stores.users stores :)
  | halfway found write stores _ _ =>
      exact sameCounters_of_update inactive_zero_free found write (congrArg Stores.users stores :)
  | updated found write stores _ _ =>
      exact sameCounters_of_update inactive_zero_free found write (congrArg Stores.users stores :)

/-- A call about no account, the administration of accounts included, leaves every counter. -/
theorem perform_sameCounters (env : Env) (w : World b) {c : ServiceCall}
    (hc : ∀ u, ¬ c.concerns u) : wp (perform env c) (fun _ w' => SameCounters w w') w := by
  cases c with
  | registerUser u email pw role => exact absurd rfl (hc u)
  | login u pw => exact absurd rfl (hc u)
  | logout tok =>
      refine wp_map (wp_mono (logout_spec tok) fun _ _ h => ?_)
      cases h with
      | unknown _ stores _ => exact .of_users (congrArg Stores.users stores :)
      | revoked stores _ _ => exact .of_users (congrArg Stores.users stores :)
  | activate adminToken tgt =>
      exact wp_map (wp_mono (activate_spec adminToken tgt) fun _ _ h => h.1.sameCounters)
  | deactivate adminToken tgt =>
      exact wp_map (wp_mono (deactivate_spec adminToken tgt) fun _ _ h => h.1.sameCounters)
  | activateById admin tgt =>
      exact wp_map (wp_mono (activateById_spec admin tgt) fun _ _ h => h.sameCounters)
  | deactivateById admin tgt =>
      exact wp_map (wp_mono (deactivateById_spec admin tgt) fun _ _ h => h.sameCounters)
  | savePubkey uid pub =>
      exact wp_map (wp_saveKey (fun _ => .of_users rfl) fun _ => .of_users rfl)
  | upload a => exact wp_map (wp_mono (upload_spec a) fun _ _ h => .of_users h.accounts_eq.1)
  | download requestSess fid =>
      exact wp_map (wp_mono (download_spec requestSess fid) fun _ _ h =>
        .of_users (congrArg Stores.users h.quiet.stores :))

/-! ## Every run -/

/-- What the environment of such a run is assumed to do. -/
structure LoginEnv (env : Env) : Prop where
  clock : ∀ n, 0 ≤ env.clock n
  fault : ∀ c n, env.fault c n = none
  hasher : HasherLaw env

theorem ledger_of_unconcerned {h : List (ServiceTransition b)} {c : ServiceCall} {w : World b}
    (hc : ∀ u, ¬ c.concerns u) (u : Bytes) :
    ledger env u (h ++ [.of (serviceStep env) w c]) = ledger env u h := by
  rw [ledger_concat]
  cases c with
  | registerUser n email pw role => exact absurd rfl (hc n)
  | login n pw => exact absurd rfl (hc n)
  | _ => rfl

/-- One call of a run. -/
theorem Bookkeeping.step {h : List (ServiceTransition b)} {c : ServiceCall} (henv : LoginEnv env)
    (hb : Bookkeeping env h w) (hnames : NamesAccount w c) (hfits : CountsWithoutOverflow env w c) :
    Bookkeeping env (h ++ [.of (serviceStep env) w c]) (serviceStep env w c).2 ∧
      FollowsLedger env h (.of (serviceStep env) w c) := by
  -- the eight calls that neither register nor log in
  have unconcerned : (∀ u, ¬ c.concerns u) →
      Bookkeeping env (h ++ [.of (serviceStep env) w c]) (serviceStep env w c).2 ∧
        FollowsLedger env h (.of (serviceStep env) w c) := by
    intro hc
    have hs : SameCounters w (serviceStep env w c).2 := perform_sameCounters env w hc
    refine ⟨hb.sameCounters hs (ledger_of_unconcerned hc), followsLedger_of_sameCounters ?_ hs⟩
    rintro u pw heq
    obtain rfl : c = .login u pw := heq
    exact hc u rfl
  cases c with
  | registerUser n email pw role =>
      have hstep : Transition.of (serviceStep env) w (.registerUser n email pw role) =
          registerTransition n email pw role w (registerUser env n email pw role w).1
            (registerUser env n email pw role w).2 := by
        simp only [Transition.of, serviceStep, perform_registerUser]
        rfl
      rw [hstep]
      show Bookkeeping env _ (perform env (.registerUser n email pw role) w).2 ∧ _
      rw [perform_registerUser]
      exact RegisterSaved.step (registerUser_saves n email pw role) henv.fault henv.hasher hb hnames
  | login n pw =>
      have hstep : Transition.of (serviceStep env) w (.login n pw) =
          loginTransition n pw w (login env n pw w).1 (login env n pw w).2 := by
        simp only [Transition.of, serviceStep, perform_login]
        rfl
      rw [hstep]
      show Bookkeeping env _ (perform env (.login n pw) w).2 ∧ _
      rw [perform_login]
      obtain ⟨found, hfound⟩ := hb.total n
      refine LoginExact.step (login_exact henv.fault (henv.clock _) hfits.1 hfound
        fun user huser => ?_) henv.hasher (henv.clock _) hb hnames hfits
      subst huser
      obtain ⟨e, -, hc⟩ := hb.carried hnames hfound
      obtain ⟨k, hk⟩ := hc.encoded
      exact ⟨_, hk⟩
  | _ => exact unconcerned fun u hu => hu

theorem logins_follow_ledger (env : Env) (henv : LoginEnv env) (calls : List ServiceCall)
    (hnames : ∀ t ∈ trace (serviceStep env) (World.empty b) calls, NamesAccount t.before t.input)
    (hfits : ∀ t ∈ trace (serviceStep env) (World.empty b) calls,
      CountsWithoutOverflow env t.before t.input) :
    Throughout (FollowsLedger env) (trace (serviceStep env) (World.empty b) calls) := by
  have run : Bookkeeping env (trace (serviceStep env) (World.empty b) calls)
      (final (serviceStep env) (World.empty b) calls) ∧
      Throughout (FollowsLedger env) (trace (serviceStep env) (World.empty b) calls) := by
    -- both parts together: the ledger of the next call needs the books of this one
    induction calls using List.reverseRecOn with
    | nil => exact ⟨bookkeeping_empty env, throughout_nil⟩
    | append_singleton calls c ih =>
        rw [trace_concat] at hnames hfits ⊢
        obtain ⟨hb, hall⟩ := ih (fun t ht => hnames t (List.mem_append_left _ ht))
          fun t ht => hfits t (List.mem_append_left _ ht)
        have hlast := List.mem_append_right (trace (serviceStep env) (World.empty b) calls)
          (List.mem_singleton.2 (rfl : Transition.of (serviceStep env)
            (final (serviceStep env) (World.empty b) calls) c = _))
        obtain ⟨hb', hnow⟩ := hb.step henv (hnames _ hlast) (hfits _ hlast)
        rw [final_concat]
        exact ⟨hb', throughout_concat.2 ⟨hall, hnow⟩⟩
  exact run.2

/-! ## Two runs -/

/-- Every reading of the clock is a second later, and a hash is the password in hexadecimal. -/
def Env.hexHasher : Env :=
  { Env.counting with
    clock := fun n => 1000 * n
    hash := fun _ pw => StdString.hexBytes pw
    verify := fun encodedHash pw => encodedHash == StdString.hexBytes pw }

theorem loginEnv_hexHasher : LoginEnv Env.hexHasher where
  clock n := by
    show (0 : Int) ≤ 1000 * n
    omega
  fault _ _ := rfl
  hasher :=
    { verify_hash := fun n p q => by
        show (StdString.hexBytes p == StdString.hexBytes q) = true ↔ p = q
        rw [beq_iff_eq]
        exact StdString.hexBytes_injective.eq_iff
      zero_free := fun n p h => absurd (StdString.isHexDigit_of_mem_hexBytes h) (by decide) }

theorem namesAccount_login {w : World .sqlite} {u pw : Bytes} (h : (0 : UInt8) ∉ u) :
    NamesAccount w (.login u pw) := fun _ hfound =>
  (SqliteUserRepository.named.username trivial hfound).trans (cstr_of_not_mem h)

/-- Five wrong passwords, then the right one while the account is locked. -/
def lockoutCalls : List ServiceCall :=
  .registerUser (ascii "alice") (ascii "a@x") (ascii "password") (ascii "user") ::
    (List.replicate 5 (.login (ascii "alice") (ascii "wrong")) ++
      [.login (ascii "alice") (ascii "password")])

set_option maxRecDepth 100000 in
theorem logins_follow_ledger_lockout :
    (trace (serviceStep Env.hexHasher) (World.empty .sqlite) lockoutCalls).map
      (fun t => ServiceReply.isSuccess t.output) = true :: List.replicate 6 false ∧
    Throughout (FollowsLedger Env.hexHasher)
      (trace (serviceStep Env.hexHasher) (World.empty .sqlite) lockoutCalls) := by
  refine ⟨by decide +kernel, logins_follow_ledger _ loginEnv_hexHasher _ (fun t ht => ?_)
    (by decide +kernel)⟩
  have hc := input_mem_of_mem_trace ht
  simp only [lockoutCalls, List.mem_cons, List.mem_append, List.mem_replicate,
    List.not_mem_nil, or_false] at hc
  rcases hc with hc | ⟨-, hc⟩ | hc
  · rw [hc]
    exact ⟨by decide, by decide⟩
  · rw [hc]
    exact namesAccount_login (by decide)
  · rw [hc]
    exact namesAccount_login (by decide)

theorem eq_ok_of_toOption {α : Type} {r : Except Exn α} {v : α} (h : r.toOption = some v) :
    r = .ok v := by
  cases r with
  | error e => cases h
  | ok v' => exact congrArg Except.ok (Option.some.inj h)

/-- Alice registers. -/
def aliceRegisters : List ServiceCall :=
  [.registerUser (ascii "alice") (ascii "a@x") (ascii "password") (ascii "user")]

set_option maxRecDepth 100000 in
theorem login_under_unregistered_name :
    LoginEnv Env.hexHasher ∧ ¬ Throughout (FollowsLedger Env.hexHasher)
      (trace (serviceStep Env.hexHasher) (World.empty .sqlite)
        (aliceRegisters ++ [.login (ascii "alice" ++ [0]) (ascii "password")])) := by
  refine ⟨loginEnv_hexHasher, fun hall => ?_⟩
  rw [trace_concat] at hall
  have hfollows := (throughout_concat.1 hall).2
  have hsuccess : (serviceStep Env.hexHasher
      (final (serviceStep Env.hexHasher) (World.empty .sqlite) aliceRegisters)
      (.login (ascii "alice" ++ [0]) (ascii "password"))).1.toOption =
        some (.session (.success (sessionToken (Env.counting.randomToken 0)))) := by
    decide +kernel
  have hledger : ledger Env.hexHasher (ascii "alice" ++ [0])
      (trace (serviceStep Env.hexHasher) (World.empty .sqlite) aliceRegisters) = none := by
    decide +kernel
  have hout := eq_ok_of_toOption hsuccess
  obtain ⟨e, he, -⟩ := (hfollows.success _ _ rfl).1 ⟨_, hout⟩
  rw [hledger] at he
  cases he

end SecureFileTransfer
