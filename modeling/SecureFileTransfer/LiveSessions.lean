import SecureFileTransfer.AccountSteps

/-!
# LiveSessions — a session that is not revoked belongs to an active user

User status and sessions live in two stores.  `deactivate` updates the user first and then revokes
the sessions of its target; the transfer service looks at the sessions only.  The stores agree as
long as the target is spelled as the repository spells it: a SQLite query stops at the first zero
byte, the comparison of session owners does not.
-/

namespace SecureFileTransfer

open Prog Service Runs

variable {b : Backend} {env : Env} {w w' : World b}

/-! ## Users -/

/-- A user with this id exists and is active. -/
def ActiveUser (w : World b) (id : UserId) : Prop :=
  ∃ u, b.users.findById w.users id = .ok (some u) ∧ u.id = id ∧ u.isActive = true

/-- An active user stays active if it is not rewritten, or rewritten without harm. -/
theorem ActiveUser.rewrites {id uid : UserId} {g : User → User} (h : ActiveUser w id)
    (hrw : b.users.Rewrites uid g w.users w'.users) (hid : ∀ v, (g v).id = v.id)
    (hactive : id = uid → ∀ v, v.isActive = true → (g v).isActive = true) : ActiveUser w' id := by
  obtain ⟨u, hfound, rfl, hu⟩ := h
  refine ⟨User.rewrite uid g u, hrw.findById_some hfound, ?_, ?_⟩
  · unfold User.rewrite
    split
    · exact hid u
    · rfl
  · unfold User.rewrite
    split
    · exact hactive ‹_› u hu
    · exact hu

theorem ActiveUser.adds {id : UserId} {user : User} {encoded : Bytes} (h : ActiveUser w id)
    (hadds : b.users.Adds b.text user encoded w.users w'.users) : ActiveUser w' id := by
  obtain ⟨u, hfound, hid, hu⟩ := h
  exact ⟨u, hadds.findById_some hfound, hid, hu⟩

/-! ## Sessions -/

/-- Every session that is not revoked belongs to an active user. -/
def LiveSessionsActive (w : World b) : Prop :=
  ∀ k s, w.sessions.byHash.lookup k = some s → s.revoked = false → ActiveUser w s.userId

/-- The account a call deactivates. -/
def ServiceCall.deactivates : ServiceCall → Option UserId
  | .deactivate _ tgt => some tgt
  | .deactivateById _ tgt => some tgt
  | _ => none

/-- The user that is found for the target of a deactivation has exactly that id. -/
def NamesTarget (w : World b) (c : ServiceCall) : Prop :=
  ∀ tgt u, c.deactivates = some tgt → b.users.findById w.users tgt = .ok (some u) → u.id = tgt

/-- A target that a text column keeps as it is names its user exactly. -/
theorem namesTarget_of_text {c : ServiceCall}
    (h : ∀ tgt, c.deactivates = some tgt → b.text tgt.value = tgt.value) : NamesTarget w c := by
  intro tgt u hc hfound
  have hval := b.users_accounts.id_of_findById hfound
  rw [h tgt hc] at hval
  cases tgt
  exact congrArg UserId.mk hval

namespace MemorySessionStore

/-- After the revocation of a user's sessions the live ones are the other users'. -/
theorem live_invalidateAllForUser {u : UserId} {st : MemorySessionStore} {k : Bytes} {s : Session}
    (h : (st.invalidateAllForUser u).byHash.lookup k = some s) (hlive : s.revoked = false) :
    st.byHash.lookup k = some s ∧ s.userId ≠ u := by
  rw [invalidateAllForUser, Table.lookup_mapValues, Option.map_eq_some_iff] at h
  obtain ⟨s₀, hs₀, rfl⟩ := h
  unfold revokeFor at hlive ⊢
  split at hlive
  · -- the session was revoked just now
    cases hlive
  · rename_i hnot
    rw [if_neg hnot]
    exact ⟨hs₀, fun hu => hnot ⟨hu, by simp [hlive]⟩⟩

theorem live_invalidate {token : SessionId} {st : MemorySessionStore} {k : Bytes} {s : Session}
    (h : (st.invalidate token).byHash.lookup k = some s) (hlive : s.revoked = false) :
    st.byHash.lookup k = some s := by
  unfold invalidate at h
  split at h
  · exact h
  · simp only [Table.lookup_insert_eq] at h
    split at h
    · cases h
      cases hlive
    · exact h

/-- A revoked session stays where it is when others are revoked. -/
theorem revoked_invalidateAllForUser {u : UserId} {st : MemorySessionStore} {k : Bytes} {s : Session}
    (h : st.byHash.lookup k = some s) (hrev : s.revoked = true) :
    (st.invalidateAllForUser u).byHash.lookup k = some s := by
  rw [invalidateAllForUser, Table.lookup_mapValues, h, Option.map_some, revokeFor, if_neg]
  simp [hrev]

theorem revoked_invalidate {token : SessionId} {st : MemorySessionStore} {k : Bytes} {s : Session}
    (h : st.byHash.lookup k = some s) (hrev : s.revoked = true) :
    (st.invalidate token).byHash.lookup k = some s := by
  unfold invalidate
  split
  · exact h
  · rename_i s' hs'
    simp only [Table.lookup_insert_eq]
    split
    · subst k
      obtain rfl : s' = s := Option.some.inj (hs'.symm.trans h)
      cases s'
      simp_all
    · exact h

end MemorySessionStore

/-! ## One call -/

/-- A call keeps live sessions with active users. -/
theorem AccountStep.live {c : ServiceCall} (h : AccountStep env w w' c)
    (hstore : ∀ n, env.fault .invalidateAllForUser n = none) (hnames : NamesTarget w c)
    (hlive : LiveSessionsActive w) : LiveSessionsActive w' := by
  intro k s hs hrev
  cases h with
  | kept users sessions =>
      rw [sessions] at hs
      obtain ⟨u, hu⟩ := hlive k s hs hrev
      exact ⟨u, users ▸ hu⟩
  | registered _ _ adds sessions =>
      rw [sessions] at hs
      exact (hlive k s hs hrev).adds adds
  | counted _ lockout rewrites sessions =>
      rw [sessions] at hs
      refine (hlive k s hs hrev).rewrites rewrites (fun v => ?_) fun _ v hv => ?_
      · obtain ⟨l, n, hg⟩ := lockout v
        rw [hg]
        rfl
      · obtain ⟨l, n, hg⟩ := lockout v
        rw [hg]
        exact hv
  | @opened u pw user found active rewrites sessions _ =>
      have keeps : ∀ id, ActiveUser w id → ActiveUser w' id := fun id hid =>
        hid.rewrites rewrites (fun _ => rfl) fun _ _ hv => hv
      -- the new session is that of the user who logged in, the others are old
      rcases MemorySessionStore.lookup_createForUser sessions hs with heq | hold
      · rw [heq]
        exact keeps user.id ⟨user, found, rfl, active⟩
      · exact keeps _ (hlive k s hold hrev)
  | loggedOut users sessions =>
      rw [sessions] at hs
      obtain ⟨u, hu⟩ := hlive k s (MemorySessionStore.live_invalidate hs hrev) hrev
      exact ⟨u, users ▸ hu⟩
  | activated _ _ rewrites sessions =>
      rw [sessions] at hs
      exact (hlive k s hs hrev).rewrites rewrites (fun _ => rfl) fun _ v _ => by
        simp [User.setStatus, User.isActive]
  | @deactivated c tgt user call found _ rewrites sessions =>
      -- the user that was found and the owner that is revoked are one
      have htarget : user.id = tgt := by
        rcases call with ⟨token, rfl, -⟩ | ⟨admin, rfl⟩
        · exact hnames tgt user rfl found
        · exact hnames tgt user rfl found
      rcases sessions with sessions | ⟨-, e, n, -, -, hfault⟩
      · rw [sessions] at hs
        obtain ⟨hold, hne⟩ := MemorySessionStore.live_invalidateAllForUser hs hrev
        refine (hlive k s hold hrev).rewrites rewrites (fun _ => rfl) fun heq => ?_
        exact absurd (heq.trans htarget) hne
      · -- the half-done deactivation needs a session store that throws
        rw [hstore] at hfault
        cases hfault

/-- The key under which the n-th token is stored. -/
def tokenKey (env : Env) (n : Nat) : Bytes :=
  MemorySessionStore.hashToken (sessionToken (env.randomToken n)).value

/-- The first `n` tokens differ, and so do their hashes. -/
def FreshTokens (env : Env) (n : Nat) : Prop :=
  ∀ i, i < n → ∀ j, j < n → tokenKey env i = tokenKey env j → i = j

theorem FreshTokens.mono {m n : Nat} (h : FreshTokens env n) (hle : m ≤ n) : FreshTokens env m :=
  fun i hi j hj heq => h i (hi.trans_le hle) j (hj.trans_le hle) heq

/-- Every session is stored under one of the tokens drawn so far. -/
def Issued (env : Env) (w : World b) : Prop :=
  ∀ k s, w.sessions.byHash.lookup k = some s → ∃ n, n < w.tokens ∧ k = tokenKey env n

theorem issued_of_empty (h : w.sessions = MemorySessionStore.empty) : Issued env w := by
  intro k s hs
  rw [h] at hs
  cases hs

theorem AccountStep.issued {c : ServiceCall} (h : AccountStep env w w' c)
    (htokens : w.tokens ≤ w'.tokens) (hissued : Issued env w) : Issued env w' := by
  have old : ∀ k s, w.sessions.byHash.lookup k = some s → ∃ n, n < w'.tokens ∧ k = tokenKey env n := by
    intro k s hs
    obtain ⟨n, hn, hk⟩ := hissued k s hs
    exact ⟨n, hn.trans_le htokens, hk⟩
  intro k s hs
  cases h with
  | kept _ sessions | registered _ _ _ sessions | counted _ _ _ sessions | activated _ _ _ sessions =>
      exact old k s (sessions ▸ hs)
  | opened _ _ _ sessions tokens =>
      obtain ⟨_, -, hlookup⟩ := MemorySessionStore.lookup_of_createForUser sessions
      rw [hlookup] at hs
      -- the new key is that of the last token drawn
      split at hs
      · exact ⟨w.tokens, by omega, ‹_›⟩
      · exact old k s hs
  | loggedOut _ sessions =>
      rw [sessions] at hs
      obtain ⟨s₀, hs₀, -⟩ := MemorySessionStore.lookup_invalidate hs
      exact old k s₀ hs₀
  | deactivated _ _ _ _ sessions =>
      rcases sessions with sessions | ⟨sessions, -⟩
      · rw [sessions] at hs
        obtain ⟨s₀, hs₀, -⟩ := MemorySessionStore.lookup_invalidateAllForUser hs
        exact old k s₀ hs₀
      · exact old k s (sessions ▸ hs)

/-- A new session replaces none: its key is not that of an older token. -/
theorem lookup_createForUser_of_fresh {st : MemorySessionStore} {u : UserId} {now : Int}
    (hcreate : w.sessions.createForUser (env.randomToken w.tokens) u now = .ok st)
    (hissued : Issued env w) (hfresh : FreshTokens env (w.tokens + 1)) {k : Bytes} {s : Session}
    (hs : w.sessions.byHash.lookup k = some s) : st.byHash.lookup k = some s := by
  obtain ⟨n, hn, rfl⟩ := hissued k s hs
  obtain ⟨_, -, hlookup⟩ := MemorySessionStore.lookup_of_createForUser hcreate
  rw [hlookup, if_neg]
  · exact hs
  · intro heq
    have := hfresh n (by omega) w.tokens (by omega) heq
    omega

/-- A revoked session is never replaced: new sessions come under new keys. -/
theorem AccountStep.revoked {c : ServiceCall} (h : AccountStep env w w' c)
    (hissued : Issued env w) (hfresh : FreshTokens env w'.tokens) {k : Bytes} {s : Session}
    (hs : w.sessions.byHash.lookup k = some s) (hrev : s.revoked = true) :
    w'.sessions.byHash.lookup k = some s := by
  cases h with
  | kept _ sessions | registered _ _ _ sessions | counted _ _ _ sessions | activated _ _ _ sessions =>
      exact sessions ▸ hs
  | opened _ _ _ sessions tokens =>
      exact lookup_createForUser_of_fresh sessions hissued (tokens ▸ hfresh) hs
  | loggedOut _ sessions =>
      rw [sessions]
      exact MemorySessionStore.revoked_invalidate hs hrev
  | deactivated _ _ _ _ sessions =>
      rcases sessions with sessions | ⟨sessions, -⟩
      · rw [sessions]
        exact MemorySessionStore.revoked_invalidateAllForUser hs hrev
      · exact sessions ▸ hs

/-! ## Every run -/

section Run

variable (env) (w₀ : World b)

/-- The state after the calls. -/
def serviceAfter (calls : List ServiceCall) : World b := final (serviceStep env) w₀ calls

theorem serviceAfter_concat (calls : List ServiceCall) (c : ServiceCall) :
    serviceAfter env w₀ (calls ++ [c]) = (perform env c (serviceAfter env w₀ calls)).2 :=
  final_concat calls c

theorem accountStep_of_run (calls : List ServiceCall) (c : ServiceCall) :
    AccountStep env (serviceAfter env w₀ calls) (serviceAfter env w₀ (calls ++ [c])) c := by
  rw [serviceAfter_concat]
  exact perform_account env _ c

theorem tokens_of_run (calls : List ServiceCall) (c : ServiceCall) :
    (serviceAfter env w₀ calls).tokens ≤ (serviceAfter env w₀ (calls ++ [c])).tokens := by
  rw [serviceAfter_concat]
  exact perform_tokens env _ c

variable {env w₀}

theorem issued_of_run (hempty : w₀.sessions = MemorySessionStore.empty) (calls : List ServiceCall) :
    Issued env (serviceAfter env w₀ calls) := by
  induction calls using List.reverseRecOn with
  | nil => exact issued_of_empty hempty
  | append_singleton calls c ih =>
      exact (accountStep_of_run env w₀ calls c).issued (tokens_of_run env w₀ calls c) ih

/-- Every deactivation of the run names its target exactly. -/
def NamesTargets (env : Env) (w₀ : World b) (calls : List ServiceCall) : Prop :=
  ∀ t ∈ trace (serviceStep env) w₀ calls, NamesTarget t.before t.input

theorem namesTargets_concat {calls : List ServiceCall} {c : ServiceCall}
    (h : NamesTargets env w₀ (calls ++ [c])) :
    NamesTargets env w₀ calls ∧ NamesTarget (serviceAfter env w₀ calls) c := by
  rw [NamesTargets, trace_concat] at h
  exact ⟨fun t ht => h t (List.mem_append_left _ ht),
    h (.of (serviceStep env) (serviceAfter env w₀ calls) c) (by simp [serviceAfter])⟩

theorem live_of_run (hstore : ∀ n, env.fault .invalidateAllForUser n = none)
    (hempty : w₀.sessions = MemorySessionStore.empty) (calls : List ServiceCall)
    (hnames : NamesTargets env w₀ calls) : LiveSessionsActive (serviceAfter env w₀ calls) := by
  induction calls using List.reverseRecOn with
  | nil =>
      intro k s hs
      rw [show (serviceAfter env w₀ []).sessions = _ from hempty] at hs
      cases hs
  | append_singleton calls c ih =>
      obtain ⟨hcalls, hc⟩ := namesTargets_concat hnames
      exact (accountStep_of_run env w₀ calls c).live hstore hc (ih hcalls)

/-- What is revoked after some calls is revoked after all. -/
theorem revoked_of_run (hempty : w₀.sessions = MemorySessionStore.empty)
    (pre post : List ServiceCall)
    (hfresh : FreshTokens env (serviceAfter env w₀ (pre ++ post)).tokens) {k : Bytes} {s : Session}
    (hs : (serviceAfter env w₀ pre).sessions.byHash.lookup k = some s) (hrev : s.revoked = true) :
    (serviceAfter env w₀ (pre ++ post)).sessions.byHash.lookup k = some s := by
  -- induction on the calls that come after the revocation
  induction post using List.reverseRecOn with
  | nil =>
      rw [List.append_nil]
      exact hs
  | append_singleton post c ih =>
      rw [← List.append_assoc] at hfresh ⊢
      have hold := ih (hfresh.mono (tokens_of_run env w₀ (pre ++ post) c))
      exact (accountStep_of_run env w₀ (pre ++ post) c).revoked (issued_of_run hempty (pre ++ post))
        hfresh hold hrev

/-- No live session of an inactive account, and none that comes back. -/
structure SessionsFollowStatus (env : Env) (w₀ : World b) (calls : List ServiceCall) : Prop where
  active : ∀ token t, (serviceAfter env w₀ calls).sessions.isValid token t = true →
    ∃ id, (serviceAfter env w₀ calls).sessions.userFor token = .ok id ∧
      ActiveUser (serviceAfter env w₀ calls) id
  revoked : ∀ pre post, calls = pre ++ post → ∀ token s,
    (serviceAfter env w₀ pre).sessions.findByToken token = some s → s.revoked = true →
      ∀ t, (serviceAfter env w₀ calls).sessions.isValid token t = false

theorem sessions_follow_status (hstore : ∀ n, env.fault .invalidateAllForUser n = none)
    (hempty : w₀.sessions = MemorySessionStore.empty) (calls : List ServiceCall)
    (hfresh : FreshTokens env (serviceAfter env w₀ calls).tokens)
    (hnames : NamesTargets env w₀ calls) : SessionsFollowStatus env w₀ calls where
  active token t hvalid := by
    obtain ⟨s, hs, hst⟩ := MemorySessionStore.isValid_iff.1 hvalid
    refine ⟨s.userId, MemorySessionStore.userFor_eq_ok hs, ?_⟩
    simp only [Session.isValid, Bool.and_eq_true, Bool.not_eq_true'] at hst
    exact live_of_run hstore hempty calls hnames _ s hs hst.1.1
  revoked := by
    rintro pre post rfl token s hs hrev t
    have hs' : (serviceAfter env w₀ (pre ++ post)).sessions.findByToken token = some s :=
      revoked_of_run hempty pre post hfresh hs hrev
    simp [MemorySessionStore.isValid, hs', Session.isValid, hrev]

end Run

/-! ## Two runs -/

/-- The ids of the administrator and of alice in the runs below. -/
def rootId : UserId := generateUserId (Env.counting.randomId 0)
def aliceId : UserId := generateUserId (Env.counting.randomId 1)

/-- An administrator, and alice with a session. -/
def staffCalls : List ServiceCall :=
  [ .registerUser (ascii "root") (ascii "r@x") (ascii "password") (ascii "admin"),
    .registerUser (ascii "alice") (ascii "a@x") (ascii "password") (ascii "user"),
    .login (ascii "alice") (ascii "password") ]

/-- The target is alice's id and a zero byte. -/
def nulTargetCalls : List ServiceCall :=
  staffCalls ++ [.deactivateById rootId ⟨aliceId.value ++ [0]⟩]

/-- The token's session is live and its user is inactive. -/
def liveButInactive (w : World b) (token : SessionId) (t : Int) : Bool :=
  w.sessions.isValid token t && (w.sessions.userFor token).toOption.any fun id =>
    (w.user? id).any fun u => !u.isActive

theorem not_active_of_liveButInactive {token : SessionId} {t : Int}
    (h : liveButInactive w token t = true) : w.sessions.isValid token t = true ∧
      ¬ ∃ id, w.sessions.userFor token = .ok id ∧ ActiveUser w id := by
  rw [liveButInactive, Bool.and_eq_true] at h
  refine ⟨h.1, ?_⟩
  rintro ⟨id, hid, u, hfound, -, hactive⟩
  have hrest := h.2
  rw [hid] at hrest
  simp [Except.toOption, World.user?_eq_some.2 hfound, hactive] at hrest

set_option maxRecDepth 100000 in
theorem session_outlives_deactivation :
    FreshTokens Env.counting
      (serviceAfter Env.counting (World.empty .sqlite) nulTargetCalls).tokens ∧
    ¬ SessionsFollowStatus Env.counting (World.empty .sqlite) nulTargetCalls := by
  refine ⟨?_, fun h => ?_⟩
  · have htokens : (serviceAfter Env.counting (World.empty .sqlite) nulTargetCalls).tokens = 1 := by
      decide +kernel
    rw [htokens]
    intro i hi j hj _
    omega
  · have hlive : liveButInactive
        (serviceAfter Env.counting (World.empty .sqlite) nulTargetCalls)
        (sessionToken (Env.counting.randomToken 0)) 0 = true := by
      decide +kernel
    obtain ⟨hvalid, hnot⟩ := not_active_of_liveButInactive hlive
    exact hnot (h.active _ 0 hvalid)

/-- Alice is deactivated under her id, reactivated, and logs in again. -/
def reactivationCalls : List ServiceCall :=
  staffCalls ++
    [ .deactivateById rootId aliceId,
      .activateById rootId aliceId,
      .login (ascii "alice") (ascii "password") ]

set_option maxRecDepth 100000 in
theorem sessions_follow_status_reactivation :
    (serviceAfter Env.counting (World.empty .sqlite) reactivationCalls).sessions.isValid
      (sessionToken (Env.counting.randomToken 1)) 0 = true ∧
    SessionsFollowStatus Env.counting (World.empty .sqlite) reactivationCalls := by
  have htokens : (serviceAfter Env.counting (World.empty .sqlite) reactivationCalls).tokens = 2 := by
    decide +kernel
  refine ⟨by decide +kernel, sessions_follow_status (fun _ => rfl) rfl _ ?_ fun t ht => ?_⟩
  · rw [htokens]
    unfold FreshTokens
    decide +kernel
  · have hc := input_mem_of_mem_trace ht
    refine namesTarget_of_text fun tgt htgt => ?_
    have htext : ∀ c ∈ reactivationCalls, ∀ tgt ∈ c.deactivates,
        Backend.sqlite.text tgt.value = tgt.value := by
      decide +kernel
    exact htext _ hc tgt htgt

end SecureFileTransfer
