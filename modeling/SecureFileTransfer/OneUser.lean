import SecureFileTransfer.Download
import SecureFileTransfer.UploadAssembly

/-!
# OneUser — whose upload a commit completes

The pending uploads of a connection outlive its login: a chunk is accepted without a session, and a
commit after another login stores the file of the first user under the second.  As long as neither
happens, a stored file was announced, sent and committed in sessions of its owner.
-/

namespace SecureFileTransfer

open Prog Service Handler Runs

variable {env : Env} {h : List ServerTransition} {t : ServerTransition} {f : Frame}
  {w w' : World .sqlite} {c c' : Conn} {x : Bytes}

/-! ## Sessions of a connection -/

/-- The session of the connection's token. -/
def Conn.session (c : Conn) (w : World .sqlite) : Option Session :=
  if c.connToken = [] then none else w.sessions.findByToken ⟨c.connToken⟩

/-- The transition started while the connection's token was a valid session of the user. -/
def inSession (env : Env) (uid : UserId) (t : ServerTransition) : Bool :=
  match t.before.phase with
  | .serving c =>
      (c.session t.before.world).any fun s =>
        s.isValid (env.clock t.before.world.clockReads) && decide (s.userId = uid)
  | _ => false

theorem inSession_iff {uid : UserId} (hphase : t.before.phase = .serving c) :
    inSession env uid t = true ↔ ∃ s, c.session t.before.world = some s ∧
      s.isValid (env.clock t.before.world.clockReads) = true ∧ s.userId = uid := by
  simp only [inSession, hphase]
  cases hsess : c.session t.before.world <;> simp

theorem inSession_unique {uid uid' : UserId} (h₁ : inSession env uid t = true)
    (h₂ : inSession env uid' t = true) : uid = uid' := by
  cases hphase : t.before.phase with
  | down => simp [inSession, hphase] at h₁
  | listening => simp [inSession, hphase] at h₁
  | serving c =>
      obtain ⟨s, hs, -, rfl⟩ := (inSession_iff hphase).1 h₁
      obtain ⟨s', hs', -, rfl⟩ := (inSession_iff hphase).1 h₂
      rw [Option.some.inj (hs.symm.trans hs')]

theorem Conn.session_of_valid {now : Int} (htoken : c.connToken ≠ [])
    (hvalid : w.sessions.isValid ⟨c.connToken⟩ now = true) :
    ∃ s, c.session w = some s ∧ s.isValid now = true := by
  rw [Conn.session, if_neg htoken]
  exact MemorySessionStore.isValid_iff.1 hvalid

/-! ## Who contributed to an upload -/

/-- The last announcement of `x` and the chunks with bytes for `x` since. -/
def contribute (x : Bytes) (sofar : List ServerTransition) (t : ServerTransition) :
    List ServerTransition :=
  match acceptedInit t, acceptedData t with
  | some init, _ => if init.uploadId = x then [t] else sofar
  | none, some data => if data.uploadId = x ∧ data.chunk ≠ [] then sofar ++ [t] else sofar
  | none, none => sofar

def contributors (x : Bytes) (h : List ServerTransition) : List ServerTransition :=
  h.foldl (contribute x) []

theorem contributors_concat (x : Bytes) (h : List ServerTransition) (t : ServerTransition) :
    contributors x (h ++ [t]) = contribute x (contributors x h) t := by
  simp [contributors]

/-- Every record that appears was announced, sent and committed in sessions of its owner. -/
def OneUser (env : Env) (h : List ServerTransition) (t : ServerTransition) : Prop :=
  ∀ fr, Creates ServerState.world t fr → inSession env fr.owner t = true ∧
    ∃ a, t.output.uploads = [a] ∧ contributors a.uploadId h ≠ [] ∧
      ∀ u ∈ contributors a.uploadId h, inSession env fr.owner u = true

/-- Bytes arrive in a valid session, and a login while an upload is pending is by the user who
contributed to it. -/
structure StaysWithUser (env : Env) (h : List ServerTransition) (t : ServerTransition) : Prop where
  data : ∀ f c data sofar, t.input = .frame f → t.before.phase = .serving c →
    f.type = .UPLOAD_DATA → decodeUploadData f.body = .ok data →
    c.pendingData.lookup data.uploadId = some sofar → data.offset.toNat = sofar.length →
    data.chunk ≠ [] →
    ∃ s, c.session t.before.world = some s ∧
      s.isValid (env.clock t.before.world.clockReads) = true
  auth : ∀ f c pl user, t.input = .frame f → t.before.phase = .serving c → f.type = .AUTH →
    decodeLogin f.body = .ok pl →
    MayLogin env pl.username pl.password t.before.world user →
    ∀ x ∈ c.pendingInit, ∀ u ∈ contributors x h, inSession env user.id u = true

/-! ## What a frame does to the connection's session -/

namespace MemorySessionStore

theorem findByToken_createForUser {random : RandomBytes 32} {uid : UserId} {now : Int}
    {st st' : MemorySessionStore} (h : st.createForUser random uid now = .ok st') :
    ∃ s, st'.findByToken (sessionToken random) = some s ∧ s.userId = uid ∧ s.revoked = false := by
  obtain ⟨s, hnew, hlookup⟩ := lookup_of_createForUser h
  obtain ⟨-, huser, -, -, hlive⟩ := Session.fields_of_new hnew
  exact ⟨s, (hlookup _).trans (if_pos rfl), huser, hlive⟩

end MemorySessionStore

theorem UploadOutcome.sessions_eq {b : Backend} {w w' : World b} {a : UploadArgs}
    {res : Except Exn (Result Transfer)} (h : UploadOutcome env a w res w') :
    w'.sessions = w.sessions := by
  cases h with
  | refused _ _ stores _ => rw [stores]
  | withdrawn stores _ _ => rw [stores]; rfl
  | orphaned stores _ _ _ => rw [stores]; rfl
  | stored _ _ _ stores _ _ _ => rw [stores]; rfl

/-- The user of the connection's session is the one before, or one who just logged in. -/
def SessionStep (env : Env) (f : Frame) (w : World .sqlite) (c : Conn) (w' : World .sqlite)
    (c' : Conn) : Prop :=
  ∀ s', c'.session w' = some s' → (∃ s, c.session w = some s ∧ s.userId = s'.userId) ∨
    ∃ pl user, f.type = .AUTH ∧ decodeLogin f.body = .ok pl ∧
      MayLogin env pl.username pl.password w user ∧ s'.userId = user.id

/-- No session was opened and the token is the same or gone. -/
theorem SessionStep.of_sessions (htoken : c'.connToken = c.connToken ∨ c'.connToken = [])
    (h : ∀ k s', w'.sessions.byHash.lookup k = some s' →
      ∃ s, w.sessions.byHash.lookup k = some s ∧ s.userId = s'.userId) :
    SessionStep env f w c w' c' := by
  intro s' hs'
  unfold Conn.session at hs'
  split at hs'
  · cases hs'
  · rename_i hne
    have heq : c'.connToken = c.connToken := htoken.resolve_right hne
    rw [heq] at hne hs'
    obtain ⟨s, hs, huser⟩ := h _ s' hs'
    exact .inl ⟨s, by rw [Conn.session, if_neg hne]; exact hs, huser⟩

theorem SessionStep.of_eq (htoken : c'.connToken = c.connToken ∨ c'.connToken = [])
    (h : w'.sessions = w.sessions) : SessionStep env f w c w' c' :=
  .of_sessions htoken fun _ s' hs' => ⟨s', h ▸ hs', rfl⟩

theorem Conn.authenticated_of_failed {r : Except Exn (Result SessionId)} (h : Failed r) :
    c.authenticated r = c := by
  rcases r with e | ⟨token | text⟩
  · rfl
  · exact absurd rfl (h token)
  · rfl

theorem Conn.loggedOut_token (c : Conn) (tok : Bytes) (ok : Bool) :
    (c.loggedOut tok ok).connToken = c.connToken ∨ (c.loggedOut tok ok).connToken = [] := by
  unfold Conn.loggedOut
  split
  · exact .inr rfl
  · exact .inl rfl

theorem Conn.committed_token (c : Conn) (id : Bytes) (r : Except Exn (Result Transfer)) :
    (c.committed id r).connToken = c.connToken := by
  unfold Conn.committed
  split <;> rfl

/-- A login: the session it opens is the user's, and any other is what it was. -/
theorem LoginOutcome.sessionStep {pl : LoginPayload} {r : Except Exn (Result SessionId)}
    (htype : f.type = .AUTH) (hpl : decodeLogin f.body = .ok pl)
    (h : LoginOutcome env pl.username pl.password w r w') :
    SessionStep env f w c w' (c.authenticated r) := by
  cases h with
  | refused failed stores _ =>
      rw [Conn.authenticated_of_failed failed]
      exact .of_eq (.inl rfl) (by rw [stores])
  | counted failed _ _ stores _ =>
      rw [Conn.authenticated_of_failed failed]
      exact .of_eq (.inl rfl) (by rw [stores]; rfl)
  | @opened user users st admitted write create stores ids tokens calls result =>
      have hsess : w'.sessions = st := by
        rw [stores]
        rfl
      have byUser : ∀ s' : Session, s'.userId = user.id →
          (∃ s, c.session w = some s ∧ s.userId = s'.userId) ∨
            ∃ pl user, f.type = .AUTH ∧ decodeLogin f.body = .ok pl ∧
              MayLogin env pl.username pl.password w user ∧ s'.userId = user.id :=
        fun s' hs' => .inr ⟨pl, user, htype, hpl, admitted, hs'⟩
      intro s' hs'
      unfold Conn.session at hs'
      rw [hsess] at hs'
      split at hs'
      · cases hs'
      rename_i hne
      rcases result with rfl | ⟨e, rfl, -⟩
      · -- the connection holds the new token
        obtain ⟨s, hnew, huser, -⟩ := MemorySessionStore.findByToken_createForUser create
        obtain rfl := Option.some.inj (hnew.symm.trans hs')
        exact byUser _ huser
      · -- the session is open, but the connection keeps its token
        have hne' : ¬ c.connToken = [] := hne
        rcases MemorySessionStore.lookup_createForUser create hs' with huser | hold
        · exact byUser s' huser
        · exact .inl ⟨s', by rw [Conn.session, if_neg hne']; exact hold, rfl⟩

theorem ActivateOutcome.sessions_eq {tgt : UserId} {r : Except Exn (Result UserId)}
    (h : ActivateOutcome env tgt w r w') : w'.sessions = w.sessions := by
  cases h with
  | refused _ stores _ => rw [stores]
  | updated _ _ stores _ _ => rw [stores]; rfl

theorem DeactivateOutcome.lookup_sessions {tgt : UserId} {r : Except Exn (Result UserId)} {k : Bytes}
    {s' : Session} (h : DeactivateOutcome env tgt w r w')
    (hs' : w'.sessions.byHash.lookup k = some s') :
    ∃ s, w.sessions.byHash.lookup k = some s ∧ s.userId = s'.userId := by
  cases h with
  | refused _ stores _ =>
      rw [stores] at hs'
      exact ⟨s', hs', rfl⟩
  | halfway _ _ stores _ _ =>
      rw [stores] at hs'
      exact ⟨s', hs', rfl⟩
  | updated _ _ stores _ _ =>
      rw [stores] at hs'
      exact MemorySessionStore.lookup_invalidateAllForUser hs'

theorem LogoutOutcome.lookup_sessions {tok : SessionId} {r : Except Exn Bool} {k : Bytes}
    {s' : Session} (h : LogoutOutcome env tok w r w')
    (hs' : w'.sessions.byHash.lookup k = some s') :
    ∃ s, w.sessions.byHash.lookup k = some s ∧ s.userId = s'.userId := by
  cases h with
  | unknown _ stores _ =>
      rw [stores] at hs'
      exact ⟨s', hs', rfl⟩
  | revoked stores _ _ =>
      rw [stores] at hs'
      exact MemorySessionStore.lookup_invalidate hs'

theorem RegisterOutcome.sessions_eq {u : Bytes} {r : Except Exn (Result UserId)}
    (h : RegisterOutcome env u w r w') : w'.sessions = w.sessions := by
  cases h with
  | refused _ stores _ => rw [stores]
  | saved _ _ _ stores _ _ => rw [stores]; rfl

theorem Handled.sessionStep {r : Except Exn Unit} {hd : Handling} (h : Handled env f w c r hd) :
    SessionStep env f w c hd.world hd.conn := by
  cases h with
  | refused quiet _ => exact .of_eq (.inl rfl) (by rw [quiet.stores])
  | listed => exact .of_eq (.inl rfl) rfl
  | registered _ _ run =>
      exact .of_eq (.inl rfl) (of_wp (registerUser_spec _ _ _ _) run).sessions_eq
  | authenticated type decoded run => exact (of_wp (login_spec _ _) run).sessionStep type decoded
  | loggedOut _ run =>
      exact .of_sessions (c.loggedOut_token _ _) fun _ _ => (of_wp (logout_spec _) run).lookup_sessions
  | logoutThrew _ run =>
      exact .of_sessions (.inl rfl) fun _ _ => (of_wp (logout_spec _) run).lookup_sessions
  | administered _ _ run =>
      unfold adminAction at run
      split at run
      · exact .of_eq (.inl rfl) (of_wp (activate_spec _ _) run).1.sessions_eq
      · exact .of_sessions (.inl rfl) fun _ _ => (of_wp (deactivate_spec _ _) run).1.lookup_sessions
  | announced _ _ _ _ quiet => exact .of_eq (.inl rfl) (by rw [quiet.stores])
  | appended _ _ _ _ => exact .of_eq (.inl rfl) rfl
  | committed _ _ _ _ _ quiet run =>
      refine .of_eq (.inl (c.committed_token _ _)) ?_
      rw [(of_wp (upload_spec _) run).sessions_eq, quiet.stores]
  | downloaded _ _ run =>
      exact .of_eq (.inl rfl) (by rw [(of_wp (download_spec _ _) run).quiet.stores])

/-! ## The contributors are of the connection's user -/

/-- The upload `x` has contributors, and the connection's session, if any, is of their users. -/
structure Owned (env : Env) (h : List ServerTransition) (w : World .sqlite) (c : Conn) (x : Bytes) :
    Prop where
  nonempty : contributors x h ≠ []
  users : ∀ u ∈ contributors x h, ∃ uid, inSession env uid u = true ∧
    ∀ s, c.session w = some s → s.userId = uid

/-- The pending uploads of a connection are owned by its user. -/
def PendingOwned (env : Env) (h : List ServerTransition) (w : World .sqlite) (c : Conn) : Prop :=
  ∀ x ∈ c.pendingInit, Owned env h w c x

/-- A frame that does not contribute to `x`. -/
theorem Owned.same (ho : Owned env h t.before.world c x) (hinput : t.input = .frame f)
    (hphase : t.before.phase = .serving c) (hstay : StaysWithUser env h t)
    (hstep : SessionStep env f t.before.world c w' c') (hx : x ∈ c.pendingInit)
    (hsame : contributors x (h ++ [t]) = contributors x h) : Owned env (h ++ [t]) w' c' x where
  nonempty := by
    rw [hsame]
    exact ho.nonempty
  users := by
    rw [hsame]
    intro u hu
    obtain ⟨uid, hin, huser⟩ := ho.users u hu
    refine ⟨uid, hin, fun s' hs' => ?_⟩
    rcases hstep s' hs' with ⟨s, hs, heq⟩ | ⟨pl, user, htype, hpl, hmay, heq⟩
    · rw [← heq]
      exact huser s hs
    · rw [heq]
      exact inSession_unique (hstay.auth f c pl user hinput hphase htype hpl hmay x hx u hu) hin

/-- A chunk that arrives in a valid session contributes to `x`. -/
theorem Owned.add {s : Session} (ho : Owned env h t.before.world c x)
    (hphase : t.before.phase = .serving c) (hs : c.session t.before.world = some s)
    (hvalid : s.isValid (env.clock t.before.world.clockReads) = true)
    (hsess : c'.session w' = c.session t.before.world)
    (hnew : contributors x (h ++ [t]) = contributors x h ++ [t]) :
    Owned env (h ++ [t]) w' c' x where
  nonempty := by simp [hnew]
  users := by
    rw [hnew, hsess]
    intro u hu
    rcases List.mem_append.1 hu with hu | hu
    · exact ho.users u hu
    · obtain rfl := List.mem_singleton.1 hu
      refine ⟨s.userId, (inSession_iff hphase).2 ⟨s, hs, hvalid, rfl⟩, fun s' hs' => ?_⟩
      rw [Option.some.inj (hs'.symm.trans hs)]

theorem contribute_init {init : UploadInit} {sofar : List ServerTransition}
    (h : acceptedInit t = some init) :
    contribute x sofar t = if init.uploadId = x then [t] else sofar := by
  unfold contribute
  rw [h]

theorem contribute_data {data : UploadData} {sofar : List ServerTransition}
    (hinit : acceptedInit t = none) (hdata : acceptedData t = some data) :
    contribute x sofar t = if data.uploadId = x ∧ data.chunk ≠ [] then sofar ++ [t] else sofar := by
  unfold contribute
  rw [hinit, hdata]

theorem contribute_other {sofar : List ServerTransition} (hinit : acceptedInit t = none)
    (hdata : acceptedData t = none) : contribute x sofar t = sofar := by
  unfold contribute
  rw [hinit, hdata]

/-- Announcements and chunks do not touch the session, and an announcement has one. -/
theorem Handled.session_of_upload {r : Except Exn Unit} {hd : Handling}
    (h : Handled env f w c r hd) (htype : f.type = .UPLOAD_INIT ∨ f.type = .UPLOAD_DATA) :
    hd.conn.session hd.world = c.session w ∧
      ((∃ reply ∈ hd.sent, reply.type = .UPLOAD_INIT) → ∃ s, c.session w = some s ∧
        s.isValid (env.clock w.clockReads) = true) := by
  have unsent : ∀ {reply : Frame} {P : Prop}, reply.type ≠ .UPLOAD_INIT →
      (∃ r ∈ [reply], r.type = .UPLOAD_INIT) → P := by
    rintro reply P hne ⟨r, hr, htype⟩
    exact absurd (List.mem_singleton.1 hr ▸ htype) hne
  have other : ∀ {type : MsgType}, f.type = type → type ≠ .UPLOAD_INIT → type ≠ .UPLOAD_DATA →
      False := by
    intro type heq hinit hdata
    exact htype.elim (fun h => hinit (heq.symm.trans h)) fun h => hdata (heq.symm.trans h)
  have same : ∀ {w'}, Quiet w w' → ∀ {c' : Conn}, c'.connToken = c.connToken →
      c'.session w' = c.session w := by
    intro w' hq c' htok
    rw [Conn.session, Conn.session, htok, hq.stores]
  cases h with
  | refused quiet _ => exact ⟨same quiet rfl, unsent (by simp [errReply, MsgType.ERR, MsgType.UPLOAD_INIT])⟩
  | listed => exact ⟨rfl, unsent (by simp [MsgType.LIST, MsgType.UPLOAD_INIT])⟩
  | announced _ _ token valid quiet => exact ⟨same quiet rfl, fun _ => c.session_of_valid token valid⟩
  | appended _ _ _ _ => exact ⟨rfl, unsent (by simp [okReply, MsgType.UPLOAD_DATA, MsgType.UPLOAD_INIT])⟩
  | registered type => exact (other type (by decide) (by decide)).elim
  | authenticated type => exact (other type (by decide) (by decide)).elim
  | loggedOut type => exact (other type (by decide) (by decide)).elim
  | logoutThrew type => exact (other type (by decide) (by decide)).elim
  | administered type =>
      rcases type with type | type
      · exact (other type (by decide) (by decide)).elim
      · exact (other type (by decide) (by decide)).elim
  | committed type => exact (other type (by decide) (by decide)).elim
  | downloaded type => exact (other type (by decide) (by decide)).elim

/-- An accepted payload was decoded from a frame of its type, which was answered with it. -/
theorem frame_of_accepted {α : Type} {type : MsgType} {decode : Bytes → Except Exn α} {a : α}
    (hinput : t.input = .frame f) (h : accepted type decode t = some a) :
    f.type = type ∧ decode f.body = .ok a ∧ ∃ r ∈ t.output.sent, r.type = type := by
  simp only [accepted, hinput] at h
  split at h
  · rename_i hcond
    obtain ⟨htype, hany⟩ := hcond
    obtain ⟨r, hr, hrtype⟩ := List.any_eq_true.1 hany
    refine ⟨htype, ?_, r, hr, by simpa using hrtype⟩
    cases hdec : decode f.body with
    | error e => simp [hdec, Except.toOption] at h
    | ok a' =>
        rw [hdec] at h
        cases h
        rfl
  · cases h

theorem PendingOwned.step {r : Except Exn Unit} {hd : Handling}
    (ho : PendingOwned env h t.before.world c) (hinput : t.input = .frame f)
    (hphase : t.before.phase = .serving c) (handled : Handled env f t.before.world c r hd)
    (hsent : t.output.sent = hd.sent) (hstay : StaysWithUser env h t) :
    PendingOwned env (h ++ [t]) hd.world hd.conn := by
  have same : ∀ x, x ∈ c.pendingInit → contribute x (contributors x h) t = contributors x h →
      Owned env (h ++ [t]) hd.world hd.conn x := fun x hx heq =>
    (ho x hx).same hinput hphase hstay handled.sessionStep hx (by rw [contributors_concat, heq])
  have hstep : AcceptedStep t c hd.conn :=
    PendingStep.accepted hinput (hsent ▸ handled.pendingStep)
  intro x hx
  cases hstep with
  | announced init accepted hpi hpd =>
      obtain ⟨htype, -, hreply⟩ := frame_of_accepted hinput accepted
      obtain ⟨hsess, hvalid⟩ := handled.session_of_upload (.inl htype)
      obtain ⟨s, hs, hsvalid⟩ := hvalid (hsent ▸ hreply)
      rw [hpi, AList.mem_insert] at hx
      by_cases heq : init.uploadId = x
      · -- the announcement is the only contribution
        have hnew : contributors x (h ++ [t]) = [t] := by
          rw [contributors_concat, contribute_init accepted, if_pos heq]
        refine ⟨by simp [hnew], fun u hu => ?_⟩
        rw [hnew, List.mem_singleton] at hu
        subst hu
        refine ⟨s.userId, (inSession_iff hphase).2 ⟨s, hs, hsvalid, rfl⟩, fun s' hs' => ?_⟩
        rw [hsess, hs] at hs'
        rw [Option.some.inj hs']
      · have hold : x ∈ c.pendingInit := hx.resolve_left (Ne.symm heq)
        exact same x hold (by rw [contribute_init accepted, if_neg heq])
  | appended data sofar noInit accepted pending offset hpi hpd =>
      obtain ⟨htype, hdec, -⟩ := frame_of_accepted hinput accepted
      rw [hpi] at hx
      by_cases heq : data.uploadId = x ∧ data.chunk ≠ []
      · obtain ⟨s, hs, hsvalid⟩ :=
          hstay.data f c data sofar hinput hphase htype hdec pending offset heq.2
        refine (ho x hx).add hphase hs hsvalid (handled.session_of_upload (.inr htype)).1 ?_
        rw [contributors_concat, contribute_data noInit accepted, if_pos heq]
      · exact same x hx (by rw [contribute_data noInit accepted, if_neg heq])
  | removed id noInit noData hpi hpd =>
      rw [hpi, AList.mem_erase] at hx
      exact same x hx.2 (contribute_other noInit noData)
  | same noInit noData hpi hpd =>
      rw [hpi] at hx
      exact same x hx (contribute_other noInit noData)

/-! ## Every run -/

/-- A record that appears is of the user of the connection's session, and what was uploaded was
pending on the connection. -/
theorem Handled.created {r : Except Exn Unit} {hd : Handling} {fr : FileRecord}
    (handled : Handled env f w c r hd) (hs : Sound env w) (ht : Tracks h c)
    (hnot : fr ∉ Backend.sqlite.records w.files)
    (hmem : fr ∈ Backend.sqlite.records hd.world.files) :
    (∃ s, c.session w = some s ∧ s.isValid (env.clock w.clockReads) = true ∧ s.userId = fr.owner) ∧
      ∃ a, hd.uploads = [a] ∧ a.uploadId ∈ c.pendingInit := by
  rcases handled.stores with ⟨hk, -⟩ | ⟨a, w₁, res, hup, -, -⟩
  · rw [hk.files] at hmem
    exact absurd hmem hnot
  cases handled with
  | @committed init data w₁ r w' type pendingInit pendingData token valid quiet run =>
      obtain ⟨hid, -⟩ := ht.pending _ _ pendingInit
      have hpending : init.uploadId ∈ c.pendingInit := by
        rw [hid]
        exact AList.lookup_isSome.1 (by rw [pendingInit]; rfl)
      refine ⟨?_, _, rfl, hpending⟩
      rw [← show w₁.files = w.files from congrArg Stores.files quiet.stores] at hnot
      obtain ⟨rec, hst⟩ := (of_wp (upload_spec _) run).stored_of_mem hnot hmem
      obtain rfl : fr = rec := ((hst.records fr).1 hmem).resolve_left hnot
      obtain ⟨s, hsess, -, howner⟩ := ((hs.kept quiet.kept).stored_parties hst).1.session
      obtain ⟨s', hs', hvalid⟩ := c.session_of_valid token valid
      -- the session that was checked is the one the record is stored under
      have heq : c.session w = some s := by
        rw [Conn.session, if_neg token, ← hsess, quiet.stores]
        rfl
      obtain rfl : s' = s := Option.some.inj (hs'.symm.trans heq)
      exact ⟨s', hs', hvalid, howner⟩
  | _ => cases hup

theorem PendingOwned.oneUser {r : Except Exn Unit} {hd : Handling}
    (ho : PendingOwned env h t.before.world c) (hphase : t.before.phase = .serving c)
    (handled : Handled env f t.before.world c r hd) (hs : Sound env t.before.world)
    (ht : Tracks h c) (huploads : t.output.uploads = hd.uploads)
    (hworld : t.after.world = hd.world) : OneUser env h t := by
  rintro fr ⟨hnot, hmem⟩
  rw [hworld] at hmem
  obtain ⟨⟨s, hsess, hvalid, howner⟩, a, ha, hpending⟩ := handled.created hs ht hnot hmem
  have howned := ho _ hpending
  refine ⟨(inSession_iff hphase).2 ⟨s, hsess, hvalid, howner⟩, a, huploads.trans ha,
    howned.nonempty, fun u hu => ?_⟩
  obtain ⟨uid, hin, huser⟩ := howned.users u hu
  rw [← howner, huser s hsess]
  exact hin

theorem oneUser_of_files (h' : t.after.world.files = t.before.world.files) : OneUser env h t := by
  rintro fr ⟨hnot, hmem⟩
  rw [h'] at hmem
  exact absurd hmem hnot

theorem contributors_of_unsent (hsent : t.output.sent = []) (x : Bytes) :
    contributors x (h ++ [t]) = contributors x h := by
  rw [contributors_concat]
  exact contribute_other (accepted_of_unsent hsent) (accepted_of_unsent hsent)

/-- An event without replies that leaves the connection and the sessions alone. -/
theorem PendingOwned.unsent (ho : PendingOwned env h w c) (hsent : t.output.sent = [])
    (hsessions : w'.sessions = w.sessions) : PendingOwned env (h ++ [t]) w' c := by
  intro x hx
  obtain ⟨hne, husers⟩ := ho x hx
  rw [← contributors_of_unsent hsent] at hne husers
  have hsess : c.session w' = c.session w := by rw [Conn.session, Conn.session, hsessions]
  exact ⟨hne, by rwa [hsess]⟩

/-- One event: the record it creates has one user, and so do the uploads it leaves pending. -/
theorem oneUser_step {s s' : ServerState} {ev : ServerEvent} {out : Output}
    (served : Served env s ev out s') (hs : Sound env s.world)
    (htracks : ∀ c, s.phase = .serving c → Tracks h c)
    (howned : ∀ c, s.phase = .serving c → PendingOwned env h s.world c)
    (hstay : StaysWithUser env h ⟨s, ev, out, s'⟩) :
    OneUser env h ⟨s, ev, out, s'⟩ ∧ ∀ c, s'.phase = .serving c →
      PendingOwned env (h ++ [⟨s, ev, out, s'⟩]) s'.world c := by
  have idle : out.uploads = [] → OneUser env h ⟨s, ev, out, s'⟩ := by
    intro hout
    rcases served.stores with ⟨hk, -⟩ | ⟨a, w₁, res, ha, -, -⟩
    · exact oneUser_of_files hk.files
    · rw [hout] at ha
      cases ha
  cases served with
  | booted run => exact ⟨idle rfl, fun c hc => by cases hc⟩
  | bootThrew run => exact ⟨idle rfl, fun c hc => by cases hc⟩
  | accepted phase =>
      refine ⟨idle rfl, fun c hc => ?_⟩
      cases hc
      intro x hx
      cases hx
  | handled phase handled =>
      refine ⟨(howned _ phase).oneUser phase handled hs (htracks _ phase) rfl rfl, fun c hc => ?_⟩
      cases hc
      exact (howned _ phase).step rfl phase handled rfl hstay
  | dropped phase handled =>
      exact ⟨(howned _ phase).oneUser phase handled hs (htracks _ phase) rfl rfl,
        fun c hc => by cases hc⟩
  | hungup phase => exact ⟨idle rfl, fun c hc => by cases hc⟩
  | keyed save => exact ⟨idle rfl, fun c hc => (howned c hc).unsent rfl rfl⟩
  | ignored => exact ⟨idle rfl, fun c hc => (howned c hc).unsent rfl rfl⟩

theorem one_user_of_run (env : Env) (evs : List ServerEvent)
    (hstay : Throughout (StaysWithUser env) (serverTrace env evs)) :
    Throughout (OneUser env) (serverTrace env evs) := by
  have run := server_induction env
    (P := fun h s => Throughout (StaysWithUser env) h →
      Throughout (OneUser env) h ∧ ∀ c, s.phase = .serving c → PendingOwned env h s.world c)
    (fun _ => ⟨throughout_nil, fun c hc => by cases hc⟩) ?_ evs
  · exact (run hstay).1
  intro evs ev ih hstay
  obtain ⟨hbefore, hnow⟩ := throughout_concat.1 hstay
  obtain ⟨hone, howned⟩ := ih hbefore
  have htracks : ∀ c, (serverAfter env evs).phase = .serving c → Tracks (serverTrace env evs) c :=
    tracks_of_run env (fun c hc => by cases hc) evs
  obtain ⟨hnext, howned'⟩ := oneUser_step (serverNext_served env evs ev)
    (sound_of_serverRun env evs) htracks howned hnow
  exact ⟨throughout_concat.2 ⟨hone, hnext⟩, howned'⟩

/-- A login only while nothing is pending, and a chunk only in a valid session. -/
def keepsSession (env : Env) (t : ServerTransition) : Bool :=
  match t.input, t.before.phase with
  | .frame f, .serving c =>
      (f.type != .AUTH || c.pendingInit.entries.isEmpty) &&
        (f.type != .UPLOAD_DATA || (c.session t.before.world).any fun s =>
          s.isValid (env.clock t.before.world.clockReads))
  | _, _ => true

theorem staysWithUser_of_keepsSession (ht : keepsSession env t = true) : StaysWithUser env h t := by
  constructor
  · intro f c data sofar hinput hphase htype _ _ _ _
    simp only [keepsSession, hinput, hphase, htype, bne_self_eq_false, Bool.false_or,
      Bool.and_eq_true] at ht
    exact (Option.any_eq_true _ _).1 ht.2
  · intro f c pl user hinput hphase htype _ _ x hx
    simp only [keepsSession, hinput, hphase, htype, bne_self_eq_false, Bool.false_or,
      Bool.and_eq_true, List.isEmpty_iff] at ht
    rw [AList.mem_keys, AList.keys, ht.1] at hx
    cases hx

set_option maxRecDepth 100000 in
theorem one_user_of_sampleEvents :
    (Backend.sqlite.records (serverAfter Env.counting sampleEvents).world.files).length = 1 ∧
      Throughout (OneUser Env.counting) (serverTrace Env.counting sampleEvents) := by
  refine ⟨by decide +kernel, one_user_of_run _ _ (throughout_of_forall fun t ht _ => ?_)⟩
  have hkeeps : (serverTrace Env.counting sampleEvents).all (keepsSession Env.counting) = true := by
    decide +kernel
  exact staysWithUser_of_keepsSession (List.all_eq_true.1 hkeeps t ht)

/-- After the announcement and the chunk of one user, another one logs in on the connection. -/
def switchedUser : List ServerEvent :=
  sampleEvents.dropLast ++
    [ .frame
        { type := .REGISTER
          requestId := 6
          body := encodeRegister ⟨ascii "carol", ascii "c@x", ascii "password"⟩ },
      .frame
        { type := .AUTH, requestId := 7, body := encodeLogin ⟨ascii "carol", ascii "password"⟩ } ]

set_option maxRecDepth 100000 in
theorem commit_stores_upload_of_other_user :
    ¬ Throughout (OneUser Env.counting) (serverTrace Env.counting
      (switchedUser ++ [.frame { type := .UPLOAD_COMMIT, requestId := 8, body := [] }])) := by
  intro hall
  rw [serverTrace_concat] at hall
  have hone := (throughout_concat.1 hall).2
  generalize ht : serverNext Env.counting switchedUser
    (.frame { type := .UPLOAD_COMMIT, requestId := 8, body := [] }) = t at hone
  have hbefore : Backend.sqlite.records t.before.world.files = [] := by
    rw [← ht]
    decide +kernel
  have hafter : (Backend.sqlite.records t.after.world.files).map FileRecord.owner =
      [generateUserId (Env.counting.randomId 2)] := by
    rw [← ht]
    decide +kernel
  have huploads : t.output.uploads.map UploadArgs.uploadId = [ascii "u1"] := by
    rw [← ht]
    decide +kernel
  have hother : (contributors (ascii "u1") (serverTrace Env.counting switchedUser)).all
      (inSession Env.counting (generateUserId (Env.counting.randomId 2))) = false := by
    decide +kernel
  obtain ⟨fr, hfr, howner⟩ := List.exists_of_mem_map (hafter ▸ List.mem_singleton.2 rfl)
  obtain ⟨-, a, ha, -, hsame⟩ := hone fr ⟨by simp [hbefore], hfr⟩
  rw [ha] at huploads
  rw [(List.cons.inj huploads).1, howner] at hsame
  rw [List.all_eq_true.2 hsame] at hother
  cases hother

end SecureFileTransfer
