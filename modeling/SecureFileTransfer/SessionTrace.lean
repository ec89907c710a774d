import SecureFileTransfer.LiveSessions

/-!
# SessionTrace — the session store as a function of its history

A run is any sequence of calls on an empty `MemorySessionStore`.  `unrevoked` reads off the calls
which sessions were opened and not revoked since; the store answers every query from it.  A call
whose hour runs past the last `int64_t` opens no session.  Tokens are looked up by their hash: the
hash is assumed not to collide on the tokens that occur.
-/

namespace SecureFileTransfer

open Runs

/-! ## Calls -/

/-- The calls that change the store; a creation comes with the random bytes it draws. -/
inductive SessionCall
  | createForUser (random : RandomBytes 32) (uid : UserId) (now : Int64)
  | invalidate (token : SessionId)
  | invalidateAllForUser (u : UserId)
  deriving DecidableEq

inductive SessionReply
  | token (t : SessionId)
  | thrown (e : Exn)
  | known (ok : Bool)
  | revoked (n : Nat)
  deriving DecidableEq

namespace MemorySessionStore

/-- What `invalidateAllForUser` returns: it counts the sessions it revokes. -/
def countRevoked (u : UserId) (st : MemorySessionStore) : Nat :=
  st.byHash.values.countP fun s => decide (s.userId = u) && !s.revoked

/-- After `invalidate` the session of the token is revoked. -/
theorem revoked_of_invalidate {token : SessionId} {st : MemorySessionStore} {s : Session}
    (h : (st.invalidate token).byHash.lookup (hashToken token.value) = some s) :
    s.revoked = true := by
  unfold invalidate at h
  split at h
  · rename_i hnone
    rw [show st.byHash.lookup (hashToken token.value) = none from hnone] at h
    cases h
  · rw [Table.lookup_insert_eq, if_pos rfl] at h
    cases h
    rfl

theorem lookup_invalidate_of_ne {token : SessionId} {st : MemorySessionStore} {key : Bytes}
    (h : key ≠ hashToken token.value) :
    (st.invalidate token).byHash.lookup key = st.byHash.lookup key := by
  unfold invalidate
  split
  · rfl
  · rw [Table.lookup_insert_eq, if_neg h]

end MemorySessionStore

def sessionStep (st : MemorySessionStore) : SessionCall → SessionReply × MemorySessionStore
  | .createForUser random uid now =>
      match st.createForUser random uid now.toInt with
      | .ok st' => (.token (sessionToken random), st')
      | .error e => (.thrown e, st)
  | .invalidate token => (.known (st.findByToken token).isSome, st.invalidate token)
  | .invalidateAllForUser u => (.revoked (st.countRevoked u), st.invalidateAllForUser u)

/-- The store after the calls. -/
def storeAfter (calls : List SessionCall) : MemorySessionStore :=
  final sessionStep MemorySessionStore.empty calls

/-! ## The history -/

/-- An hour later is still an `int64_t`. -/
def HourFits (now : Int64) : Prop := now.toInt + 3600 * 1000 < 2 ^ 63

instance (now : Int64) : Decidable (HourFits now) :=
  inferInstanceAs (Decidable (now.toInt + 3600 * 1000 < 2 ^ 63))

/-- A call of `createForUser` that opens a session. -/
structure Creation where
  random : RandomBytes 32
  user : UserId
  createdAt : Int64
  fits : HourFits createdAt
  deriving DecidableEq

namespace Creation

def token (c : Creation) : SessionId := sessionToken c.random

/-- The session it opened. -/
def session (c : Creation) : Session where
  id := c.token
  userId := c.user
  createdAt := c.createdAt.toInt
  expiresAt := c.createdAt.toInt + 3600 * 1000
  revoked := false
  range := by omega

theorem newSession_eq (c : Creation) :
    MemorySessionStore.newSession c.random c.user c.createdAt.toInt = .ok c.session := by
  have hlow := c.createdAt.le_toInt
  unfold MemorySessionStore.newSession
  rw [int64_of_fits (by omega) c.fits]
  exact Session.new_of_lt _

end Creation

/-- An hour that does not fit wraps around to a time before `now`, and the constructor throws. -/
theorem newSession_of_overflow (random : RandomBytes 32) (uid : UserId) {now : Int64}
    (h : ¬ HourFits now) :
    MemorySessionStore.newSession random uid now.toInt =
      .error (.validation "session time range invalid") := by
  have hhigh := now.toInt_lt
  unfold HourFits at h
  unfold MemorySessionStore.newSession
  rw [int64_of_overflow (by omega) (by omega)]
  exact dif_neg (by omega)

namespace SessionCall

def creation : SessionCall → Option Creation
  | .createForUser random uid now =>
      if h : HourFits now then some ⟨random, uid, now, h⟩ else none
  | _ => none

def revokes (c : Creation) : SessionCall → Bool
  | .invalidate token => decide (token = c.token)
  | .invalidateAllForUser u => decide (u = c.user)
  | _ => false

/-- The token a call returns or is given. -/
def token? : SessionCall → Option SessionId
  | .createForUser random _ _ => some (sessionToken random)
  | .invalidate token => some token
  | .invalidateAllForUser _ => none

end SessionCall

/-- The creations that no later call revoked. -/
def unrevoked : List SessionCall → List Creation
  | [] => []
  | call :: post =>
      match call.creation with
      | some c => if post.any (·.revokes c) then unrevoked post else c :: unrevoked post
      | none => unrevoked post

/-- The tokens the calls returned. -/
def createdTokens (calls : List SessionCall) : List SessionId :=
  (calls.filterMap SessionCall.creation).map Creation.token

/-- The hash tells apart the tokens that occur in the calls, and the one that is asked for. -/
def NoCollision (calls : List SessionCall) (k : SessionId) : Prop :=
  ∀ x ∈ k :: calls.filterMap SessionCall.token?, ∀ y ∈ k :: calls.filterMap SessionCall.token?,
    MemorySessionStore.hashToken x.value = MemorySessionStore.hashToken y.value → x = y

theorem unrevoked_concat (calls : List SessionCall) (x : SessionCall) :
    unrevoked (calls ++ [x]) =
      (unrevoked calls).filter (fun c => !x.revokes c) ++ x.creation.toList := by
  induction calls with
  | nil =>
      simp only [List.nil_append, unrevoked, List.any_nil, Bool.false_eq_true, if_false,
        List.filter_nil]
      cases x.creation <;> rfl
  | cons call calls ih =>
      rw [List.cons_append, unrevoked, unrevoked]
      cases call.creation with
      | none => exact ih
      | some c =>
          simp only [List.any_append, List.any_cons, List.any_nil, Bool.or_false]
          -- revoked before the last call, by the last call, or still open
          cases hany : calls.any (·.revokes c) with
          | true => simpa using ih
          | false =>
              cases hx : x.revokes c with
              | true => simpa [hx] using ih
              | false => simp [hx, ih]

/-- What a call does not revoke. -/
theorem not_any_revokes_iff {post : List SessionCall} {c : Creation} :
    post.any (·.revokes c) = false ↔
      .invalidate c.token ∉ post ∧ .invalidateAllForUser c.user ∉ post := by
  rw [List.any_eq_false]
  constructor
  · intro h
    exact ⟨fun hmem => h _ hmem (by simp [SessionCall.revokes]),
      fun hmem => h _ hmem (by simp [SessionCall.revokes])⟩
  · rintro ⟨htoken, huser⟩ call hcall hrevokes
    cases call with
    | createForUser random uid now => cases hrevokes
    | invalidate token =>
        obtain rfl : token = c.token := of_decide_eq_true hrevokes
        exact htoken hcall
    | invalidateAllForUser u =>
        obtain rfl : u = c.user := of_decide_eq_true hrevokes
        exact huser hcall

/-- An unrevoked creation is the first call, or among the others. -/
theorem mem_unrevoked_cons {call : SessionCall} {calls : List SessionCall} {c : Creation} :
    c ∈ unrevoked (call :: calls) ↔
      (call.creation = some c ∧ calls.any (·.revokes c) = false) ∨ c ∈ unrevoked calls := by
  rw [unrevoked]
  cases call.creation with
  | none => simp
  | some c' =>
      by_cases hany : calls.any (·.revokes c') = true
      · simp only [if_pos hany, Option.some.injEq]
        refine ⟨.inr, fun h => h.elim (fun ⟨heq, hfalse⟩ => ?_) fun h => h⟩
        rw [← heq, hany] at hfalse
        cases hfalse
      · simp only [if_neg hany, List.mem_cons, Option.some.injEq]
        refine or_congr_left ⟨fun heq => ?_, fun h => h.1.symm⟩
        exact ⟨heq.symm, by rw [heq]; simpa using hany⟩

/-- A creation counts if neither its token nor its user was revoked after it. -/
theorem mem_unrevoked_iff {calls : List SessionCall} {c : Creation} :
    c ∈ unrevoked calls ↔ ∃ pre post,
      calls = pre ++ .createForUser c.random c.user c.createdAt :: post ∧
        .invalidate c.token ∉ post ∧ .invalidateAllForUser c.user ∉ post := by
  have hcall : ∀ call : SessionCall, call.creation = some c ↔
      call = .createForUser c.random c.user c.createdAt := by
    intro call
    cases call with
    | createForUser random uid now =>
        constructor
        · intro h
          by_cases hfits : HourFits now
          · rw [SessionCall.creation, dif_pos hfits] at h
            cases h
            rfl
          · rw [SessionCall.creation, dif_neg hfits] at h
            cases h
        · intro h
          cases h
          exact dif_pos c.fits
    | invalidate token => simp [SessionCall.creation]
    | invalidateAllForUser u => simp [SessionCall.creation]
  induction calls with
  | nil => simp [unrevoked]
  | cons call calls ih =>
      refine (mem_unrevoked_cons.trans
        (or_congr (and_congr (hcall call) not_any_revokes_iff) ih)).trans ?_
      constructor
      · rintro (⟨rfl, hpost⟩ | ⟨pre, post, rfl, hpost⟩)
        · exact ⟨[], calls, rfl, hpost⟩
        · exact ⟨call :: pre, post, rfl, hpost⟩
      · -- the split point is the first call or lies further on
        rintro ⟨pre, post, heq, hpost⟩
        cases pre with
        | nil =>
            obtain ⟨rfl, rfl⟩ := List.cons.inj heq
            exact .inl ⟨rfl, hpost⟩
        | cons first pre =>
            obtain ⟨rfl, rfl⟩ := List.cons.inj heq
            exact .inr ⟨pre, post, rfl, hpost⟩

theorem mem_creations_of_unrevoked {calls : List SessionCall} {c : Creation}
    (h : c ∈ unrevoked calls) : c ∈ calls.filterMap SessionCall.creation := by
  obtain ⟨pre, post, rfl, -⟩ := mem_unrevoked_iff.1 h
  simp [SessionCall.creation, c.fits]

theorem token_mem_of_unrevoked {calls : List SessionCall} {c : Creation}
    (h : c ∈ unrevoked calls) : c.token ∈ calls.filterMap SessionCall.token? := by
  obtain ⟨pre, post, rfl, -⟩ := mem_unrevoked_iff.1 h
  simp [SessionCall.token?, Creation.token]

/-! ## The store holds what is not revoked -/

/-- The live sessions of the store are the unrevoked creations. -/
structure HoldsUnrevoked (calls : List SessionCall) (st : MemorySessionStore) : Prop where
  sound : ∀ key s, st.byHash.lookup key = some s → s.revoked = false →
    ∃ c ∈ unrevoked calls, key = MemorySessionStore.hashToken c.token.value ∧ s = c.session
  complete : ∀ c ∈ unrevoked calls,
    st.byHash.lookup (MemorySessionStore.hashToken c.token.value) = some c.session

/-- The tokens of the calls, all told apart by the hash. -/
def Separated (calls : List SessionCall) : Prop :=
  ∀ x ∈ calls.filterMap SessionCall.token?, ∀ y ∈ calls.filterMap SessionCall.token?,
    MemorySessionStore.hashToken x.value = MemorySessionStore.hashToken y.value → x = y

/-- A call that opens a session. -/
theorem HoldsUnrevoked.create {calls : List SessionCall} {st st' : MemorySessionStore} {c : Creation}
    (h : HoldsUnrevoked calls st)
    (hcreate : st.createForUser c.random c.user c.createdAt.toInt = .ok st')
    (hsep : Separated (calls ++ [.createForUser c.random c.user c.createdAt]))
    (hdistinct : c.token ∉ createdTokens calls) :
    HoldsUnrevoked (calls ++ [.createForUser c.random c.user c.createdAt]) st' := by
  have hunrevoked : unrevoked (calls ++ [.createForUser c.random c.user c.createdAt]) =
      unrevoked calls ++ [c] := by
    rw [unrevoked_concat]
    simp [SessionCall.revokes, SessionCall.creation, c.fits]
  obtain ⟨s₀, hnew, hlookup⟩ := MemorySessionStore.lookup_of_createForUser hcreate
  obtain rfl : c.session = s₀ := Except.ok.inj (c.newSession_eq.symm.trans hnew)
  constructor
  · intro key s hs hlive
    rw [hunrevoked]
    rw [hlookup] at hs
    split at hs
    · cases hs
      exact ⟨c, by simp, ‹_›, rfl⟩
    · -- an entry from before; no creation revokes anything
      obtain ⟨c', hc', hkey⟩ := h.sound key s hs hlive
      exact ⟨c', List.mem_append_left _ hc', hkey⟩
  · intro c' hc'
    rw [hunrevoked] at hc'
    rw [hlookup]
    rcases List.mem_append.1 hc' with hold | hnew
    · rw [if_neg, h.complete c' hold]
      -- an old token under the key of the new one would be the new one
      intro hkey
      have hmem := token_mem_of_unrevoked hold
      have heq : c'.token = c.token :=
        hsep _ (by simp [hmem]) _ (by simp [SessionCall.token?, Creation.token]) hkey
      exact hdistinct (heq ▸ List.mem_map_of_mem (mem_creations_of_unrevoked hold))
    · obtain rfl := List.mem_singleton.1 hnew
      exact if_pos rfl

/-- A call whose hour does not fit: nothing is opened and nothing revoked. -/
theorem HoldsUnrevoked.overflow {calls : List SessionCall} {st : MemorySessionStore}
    {random : RandomBytes 32} {uid : UserId} {now : Int64} (h : HoldsUnrevoked calls st)
    (hfits : ¬ HourFits now) :
    HoldsUnrevoked (calls ++ [.createForUser random uid now]) st := by
  have hunrevoked : unrevoked (calls ++ [.createForUser random uid now]) = unrevoked calls := by
    rw [unrevoked_concat]
    simp [SessionCall.revokes, SessionCall.creation, hfits]
  exact ⟨by rw [hunrevoked]; exact h.sound, by rw [hunrevoked]; exact h.complete⟩

theorem HoldsUnrevoked.invalidate {calls : List SessionCall} {st : MemorySessionStore}
    {token : SessionId} (h : HoldsUnrevoked calls st)
    (hsep : Separated (calls ++ [.invalidate token])) :
    HoldsUnrevoked (calls ++ [.invalidate token]) (st.invalidate token) := by
  have hunrevoked : unrevoked (calls ++ [.invalidate token]) =
      (unrevoked calls).filter fun c => !decide (token = c.token) := by
    rw [unrevoked_concat]
    simp [SessionCall.revokes, SessionCall.creation]
  constructor
  · intro key s hs hlive
    obtain ⟨c, hc, rfl, rfl⟩ := h.sound key s (MemorySessionStore.live_invalidate hs hlive) hlive
    refine ⟨c, ?_, rfl, rfl⟩
    rw [hunrevoked, List.mem_filter]
    refine ⟨hc, ?_⟩
    -- the session of the token itself is not live any more
    have hne : token ≠ c.token := by
      rintro rfl
      rw [MemorySessionStore.revoked_of_invalidate hs] at hlive
      cases hlive
    simpa using hne
  · -- a session that survives has another token, hence another key
    intro c hc
    rw [hunrevoked, List.mem_filter] at hc
    have hne : token ≠ c.token := by simpa using hc.2
    rw [MemorySessionStore.lookup_invalidate_of_ne, h.complete c hc.1]
    intro hkey
    have hmem := token_mem_of_unrevoked hc.1
    exact hne (hsep _ (by simp [hmem]) _ (by simp [SessionCall.token?]) hkey).symm

theorem HoldsUnrevoked.invalidateAll {calls : List SessionCall} {st : MemorySessionStore}
    {u : UserId} (h : HoldsUnrevoked calls st) :
    HoldsUnrevoked (calls ++ [.invalidateAllForUser u]) (st.invalidateAllForUser u) := by
  have hunrevoked : unrevoked (calls ++ [.invalidateAllForUser u]) =
      (unrevoked calls).filter fun c => !decide (u = c.user) := by
    rw [unrevoked_concat]
    simp [SessionCall.revokes, SessionCall.creation]
  constructor
  · intro key s hs hlive
    obtain ⟨hold, hne⟩ := MemorySessionStore.live_invalidateAllForUser hs hlive
    obtain ⟨c, hc, hkey, rfl⟩ := h.sound key s hold hlive
    refine ⟨c, ?_, hkey, rfl⟩
    rw [hunrevoked, List.mem_filter]
    have hne' : u ≠ c.user := Ne.symm hne
    exact ⟨hc, by simpa using hne'⟩
  · -- the sessions of other users are copied as they are
    intro c hc
    rw [hunrevoked, List.mem_filter] at hc
    have hne : ¬ c.session.userId = u := by
      intro heq
      have hsame : u = c.user := heq.symm
      simp [hsame] at hc
    rw [MemorySessionStore.invalidateAllForUser, Table.lookup_mapValues, h.complete c hc.1,
      Option.map_some, MemorySessionStore.revokeFor, if_neg (fun hboth => hne hboth.1)]

/-! ## Every run -/

theorem separated_of_concat {calls : List SessionCall} {x : SessionCall}
    (h : Separated (calls ++ [x])) : Separated calls := by
  intro y hy z hz
  exact h y (by simp [hy]) z (by simp [hz])

theorem holdsUnrevoked_of_run (calls : List SessionCall) (hsep : Separated calls)
    (hdistinct : (createdTokens calls).Nodup) : HoldsUnrevoked calls (storeAfter calls) := by
  -- induction on the last call
  induction calls using List.reverseRecOn with
  | nil =>
      constructor
      · intro key s hs
        cases hs
      · intro c hc
        cases hc
  | append_singleton calls x ih =>
      have hstore : storeAfter (calls ++ [x]) = (sessionStep (storeAfter calls) x).2 :=
        final_concat calls x
      rw [createdTokens, List.filterMap_append, List.map_append, List.nodup_append] at hdistinct
      have h := ih (separated_of_concat hsep) hdistinct.1
      rw [hstore]
      cases x with
      | createForUser random uid now =>
          by_cases hfits : HourFits now
          · let c : Creation := ⟨random, uid, now, hfits⟩
            obtain ⟨st', hcreate⟩ := MemorySessionStore.createForUser_of_fits random uid
              now.le_toInt hfits (storeAfter calls)
            rw [show (sessionStep (storeAfter calls) (.createForUser random uid now)).2 = st' by
              rw [sessionStep, hcreate]]
            refine h.create (c := c) hcreate hsep fun hmem => ?_
            exact hdistinct.2.2 _ hmem c.token (by simp [SessionCall.creation, hfits, c]) rfl
          · rw [show (sessionStep (storeAfter calls) (.createForUser random uid now)).2 =
                storeAfter calls by
              rw [sessionStep, MemorySessionStore.createForUser, newSession_of_overflow _ _ hfits]
              rfl]
            exact h.overflow hfits
      | invalidate token => exact h.invalidate hsep
      | invalidateAllForUser u => exact h.invalidateAll

theorem separated_of_noCollision {calls : List SessionCall} {k : SessionId}
    (h : NoCollision calls k) : Separated calls := fun x hx y hy =>
  h x (List.mem_cons_of_mem _ hx) y (List.mem_cons_of_mem _ hy)

theorem unrevoked_sublist (calls : List SessionCall) :
    (unrevoked calls).Sublist (calls.filterMap SessionCall.creation) := by
  induction calls with
  | nil => exact List.Sublist.refl []
  | cons call calls ih =>
      rw [unrevoked]
      cases hcall : call.creation with
      | none =>
          rw [List.filterMap_cons_none hcall]
          exact ih
      | some c =>
          rw [List.filterMap_cons_some hcall]
          dsimp only
          split
          · exact ih.cons c
          · exact ih.cons_cons c

/-- The creations of distinct tokens that the hash tells apart have distinct keys. -/
theorem nodup_keys_unrevoked {calls : List SessionCall} (hsep : Separated calls)
    (hdistinct : (createdTokens calls).Nodup) :
    ((unrevoked calls).map fun c =>
      (⟨MemorySessionStore.hashToken c.token.value, c.session⟩ : (_ : Bytes) × Session)).Nodup := by
  have htokens : ((unrevoked calls).map Creation.token).Nodup :=
    hdistinct.sublist ((unrevoked_sublist calls).map _)
  refine List.Nodup.map_on (fun c hc d hd heq => ?_) htokens.of_map
  -- equal keys mean equal tokens, and a token is drawn once
  have htoken : c.token = d.token :=
    hsep _ (token_mem_of_unrevoked hc) _ (token_mem_of_unrevoked hd) (congrArg (·.1) heq :)
  exact List.inj_on_of_nodup_map htokens hc hd htoken

/-- The number of live sessions of a user, as the store counts them. -/
theorem countRevoked_eq {calls : List SessionCall} {st : MemorySessionStore}
    (h : HoldsUnrevoked calls st) (hsep : Separated calls)
    (hdistinct : (createdTokens calls).Nodup) (u : UserId) :
    st.countRevoked u = (unrevoked calls).countP fun c => decide (c.user = u) := by
  -- the live entries of the table are the unrevoked creations, in some order
  have hperm : (st.byHash.entries.filter fun kv => !kv.2.revoked).Perm
      ((unrevoked calls).map fun c => ⟨MemorySessionStore.hashToken c.token.value, c.session⟩) := by
    rw [List.perm_ext_iff_of_nodup (st.byHash.nodupKeys.nodup.filter _)
      (nodup_keys_unrevoked hsep hdistinct)]
    rintro ⟨key, s⟩
    rw [List.mem_filter, List.mem_map, ← AList.mem_lookup_iff]
    constructor
    · rintro ⟨hs, hlive⟩
      obtain ⟨c, hc, rfl, rfl⟩ := h.sound key s hs (by simpa using hlive)
      exact ⟨c, hc, rfl⟩
    · rintro ⟨c, hc, heq⟩
      cases heq
      exact ⟨h.complete c hc, rfl⟩
  calc st.countRevoked u
      = (st.byHash.entries.filter fun kv => !kv.2.revoked).countP
          fun kv => decide (kv.2.userId = u) := by
        rw [MemorySessionStore.countRevoked, Table.values, List.countP_map, List.countP_filter]
        rfl
    _ = ((unrevoked calls).map fun c =>
          (⟨MemorySessionStore.hashToken c.token.value, c.session⟩ : (_ : Bytes) × Session)).countP
          fun kv => decide (kv.2.userId = u) := hperm.countP_eq _
    _ = (unrevoked calls).countP fun c => decide (c.user = u) := by
        rw [List.countP_map]
        rfl

/-! ## What the store answers -/

/-- Token `k` was returned for a session of `u` opened at `c`, and nothing since revoked it. -/
def OpenSince (calls : List SessionCall) (k : SessionId) (u : UserId) (c : Int64) : Prop :=
  ∃ pre random post, calls = pre ++ .createForUser random u c :: post ∧
    (sessionStep (storeAfter pre) (.createForUser random u c)).1 = .token k ∧
    .invalidate k ∉ post ∧ .invalidateAllForUser u ∉ post

/-- The answers of the store, read off the calls made so far. -/
structure FollowsHistory (calls : List SessionCall) (k : SessionId) : Prop where
  valid : ∀ t, (storeAfter calls).isValid k t = true ↔
    ∃ u c, OpenSince calls k u c ∧ c.toInt ≤ t ∧ t < c.toInt + 3600000
  user : ∀ u c, OpenSince calls k u c → (storeAfter calls).userFor k = .ok u
  /-- It returns how many sessions of the user are still unrevoked. -/
  count : ∀ u, (sessionStep (storeAfter calls) (.invalidateAllForUser u)).1 =
    .revoked ((unrevoked calls).countP fun c => decide (c.user = u))
  others : ∀ u key s, s.userId ≠ u →
    ((storeAfter (calls ++ [.invalidateAllForUser u])).byHash.lookup key = some s ↔
      (storeAfter calls).byHash.lookup key = some s)

/-- A token comes back exactly from a call whose hour fits. -/
theorem reply_createForUser_iff {st : MemorySessionStore} {random : RandomBytes 32} {u : UserId}
    {now : Int64} {k : SessionId} :
    (sessionStep st (.createForUser random u now)).1 = .token k ↔
      HourFits now ∧ sessionToken random = k := by
  by_cases hfits : HourFits now
  · obtain ⟨st', hcreate⟩ := MemorySessionStore.createForUser_of_fits random u now.le_toInt hfits st
    rw [sessionStep, hcreate]
    simp [hfits]
  · rw [sessionStep, MemorySessionStore.createForUser, newSession_of_overflow _ _ hfits]
    simp only [hfits, false_and, iff_false]
    intro h
    cases h

theorem openSince_iff {calls : List SessionCall} {k : SessionId} {u : UserId} {now : Int64} :
    OpenSince calls k u now ↔ ∃ c ∈ unrevoked calls, c.token = k ∧ c.user = u ∧ c.createdAt = now := by
  constructor
  · rintro ⟨pre, random, post, hcalls, hreply, hpost⟩
    obtain ⟨hfits, rfl⟩ := reply_createForUser_iff.1 hreply
    exact ⟨⟨random, u, now, hfits⟩, mem_unrevoked_iff.2 ⟨pre, post, hcalls, hpost⟩, rfl, rfl, rfl⟩
  · rintro ⟨c, hc, rfl, rfl, rfl⟩
    obtain ⟨pre, post, hcalls, hpost⟩ := mem_unrevoked_iff.1 hc
    exact ⟨pre, c.random, post, hcalls, reply_createForUser_iff.2 ⟨c.fits, rfl⟩, hpost⟩

theorem Creation.session_isValid_iff {c : Creation} {t : Int} :
    c.session.isValid t = true ↔ c.createdAt.toInt ≤ t ∧ t < c.createdAt.toInt + 3600000 := by
  simp only [Session.isValid, Bool.and_eq_true]
  constructor
  · rintro ⟨⟨-, hfrom⟩, huntil⟩
    exact ⟨of_decide_eq_true hfrom, of_decide_eq_true huntil⟩
  · rintro ⟨hfrom, huntil⟩
    exact ⟨⟨rfl, decide_eq_true hfrom⟩, decide_eq_true huntil⟩

theorem HoldsUnrevoked.isValid_iff {calls : List SessionCall} {st : MemorySessionStore}
    {k : SessionId} (h : HoldsUnrevoked calls st) (hsep : NoCollision calls k) {t : Int} :
    st.isValid k t = true ↔ ∃ c ∈ unrevoked calls, c.token = k ∧ c.session.isValid t = true := by
  rw [MemorySessionStore.isValid_iff]
  constructor
  · rintro ⟨s, hs, hvalid⟩
    have hlive : s.revoked = false := by
      simp only [Session.isValid, Bool.and_eq_true, Bool.not_eq_true'] at hvalid
      exact hvalid.1.1
    obtain ⟨c, hc, hkey, rfl⟩ := h.sound _ s hs hlive
    have hk : k = c.token :=
      hsep k List.mem_cons_self _ (List.mem_cons_of_mem _ (token_mem_of_unrevoked hc)) hkey
    exact ⟨c, hc, hk.symm, hvalid⟩
  · rintro ⟨c, hc, rfl, hvalid⟩
    exact ⟨c.session, h.complete c hc, hvalid⟩

/-- The session of another user is left as it was by `invalidateAllForUser`. -/
theorem MemorySessionStore.lookup_invalidateAll_of_ne {st : MemorySessionStore} {u : UserId}
    {key : Bytes} {s : Session} (hne : s.userId ≠ u) :
    (st.invalidateAllForUser u).byHash.lookup key = some s ↔ st.byHash.lookup key = some s := by
  rw [MemorySessionStore.invalidateAllForUser, Table.lookup_mapValues, Option.map_eq_some_iff]
  constructor
  · rintro ⟨s', hs', heq⟩
    unfold MemorySessionStore.revokeFor at heq
    split at heq
    · rename_i hboth
      -- a session that was changed is one of the user's
      refine absurd ?_ hne
      rw [← heq]
      exact hboth.1
    · rw [hs', heq]
  · intro hs
    exact ⟨s, hs, if_neg fun hboth => hne hboth.1⟩

theorem session_store_follows_history (calls : List SessionCall) (k : SessionId)
    (hdistinct : (createdTokens calls).Nodup) (hsep : NoCollision calls k) :
    FollowsHistory calls k := by
  have hrun := holdsUnrevoked_of_run calls (separated_of_noCollision hsep) hdistinct
  constructor
  · intro t
    rw [hrun.isValid_iff hsep]
    constructor
    · rintro ⟨c, hc, hk, hvalid⟩
      exact ⟨c.user, c.createdAt, openSince_iff.2 ⟨c, hc, hk, rfl, rfl⟩,
        Creation.session_isValid_iff.1 hvalid⟩
    · rintro ⟨u, now, hopen, hwindow⟩
      obtain ⟨c, hc, hk, rfl, rfl⟩ := openSince_iff.1 hopen
      exact ⟨c, hc, hk, Creation.session_isValid_iff.2 hwindow⟩
  · intro u now hopen
    obtain ⟨c, hc, rfl, rfl, rfl⟩ := openSince_iff.1 hopen
    exact MemorySessionStore.userFor_eq_ok (hrun.complete c hc)
  · intro u
    exact congrArg SessionReply.revoked
      (countRevoked_eq hrun (separated_of_noCollision hsep) hdistinct u)
  · intro u key s hne
    rw [show storeAfter (calls ++ [.invalidateAllForUser u]) =
      (storeAfter calls).invalidateAllForUser u from final_concat calls _]
    exact MemorySessionStore.lookup_invalidateAll_of_ne hne

/-- Two sessions of one user and one of another; the first token is revoked. -/
def twoUserCalls : List SessionCall :=
  [ .createForUser (Env.counting.randomToken 0) ⟨ascii "alice"⟩ 0,
    .createForUser (Env.counting.randomToken 1) ⟨ascii "bob"⟩ 10,
    .createForUser (Env.counting.randomToken 2) ⟨ascii "alice"⟩ 20,
    .invalidate (sessionToken (Env.counting.randomToken 0)) ]

set_option maxRecDepth 100000 in
theorem session_store_follows_history_two_users :
    (createdTokens twoUserCalls).Nodup ∧
    (unrevoked twoUserCalls).countP (fun c => decide (c.user = ⟨ascii "alice"⟩)) = 1 ∧
    FollowsHistory twoUserCalls (sessionToken (Env.counting.randomToken 2)) := by
  have hdistinct : (createdTokens twoUserCalls).Nodup := by
    decide +kernel
  refine ⟨hdistinct, by decide +kernel, session_store_follows_history _ _ hdistinct ?_⟩
  unfold NoCollision
  decide +kernel

end SecureFileTransfer
