import SecureFileTransfer.Download

/-!
# OneReply — one reply for every frame

Every branch of the frame loop but one catches what its service calls throw and answers `ERR`.  The
branch of `LOGOUT` does not: an exception there leaves the loop before a reply is sent, and the
connection with it.
-/

namespace SecureFileTransfer

open Prog Service Handler Runs

variable {env : Env} {f : Frame} {w : World .sqlite} {c : Conn}

/-- A connection that receives `f` sends one frame with its request id, and is served on. -/
structure AnsweredOnce (env : Env) (w : World .sqlite) (c : Conn) (f : Frame) : Prop where
  reply : ∃ reply, (serverStep env ⟨w, .serving c⟩ (.frame f)).1.sent = [reply] ∧
    reply.requestId = f.requestId
  stays : ∃ c', (serverStep env ⟨w, .serving c⟩ (.frame f)).2.phase = .serving c'

/-- A collaborator that `AuthService::logout` calls for this frame throws: the session store, or the
audit logger, which is only asked once the token is known. -/
def LogoutThrows (env : Env) (w : World .sqlite) (f : Frame) : Prop :=
  f.type = .LOGOUT ∧
    ((env.fault .invalidate w.calls).isSome = true ∨
      (w.sessions.findByToken ⟨f.body⟩).isSome = true ∧
        (env.fault (.record .LOGOUT) (w.calls + 1)).isSome = true)

/-! ## Logout -/

/-- The outcome of a call is that of its fault. -/
theorem wp_call_eq {b : Backend} {w : World b} {call : Call} {Q : Except Exn Unit → World b → Prop} :
    wp (Service.call env call) Q w =
      Q ((env.fault call w.calls).elim (.ok ()) .error) w.tick := by
  unfold wp Service.call
  cases env.fault call w.calls with
  | none => rfl
  | some e => rfl

/-- When `logout` throws. -/
theorem logout_threw (tok : SessionId) :
    wp (logout env tok)
      (fun r _ => (∃ e, r = .error e) ↔
        (env.fault .invalidate w.calls).isSome = true ∨
          (w.sessions.findByToken tok).isSome = true ∧
            (env.fault (.record .LOGOUT) (w.calls + 1)).isSome = true) w := by
  rw [logout, invalidate, wp_bind, wp_bind, wp_call_eq]
  cases hinv : env.fault .invalidate w.calls with
  | some e => exact iff_of_true ⟨e, rfl⟩ (.inl rfl)
  | none =>
      rw [Option.elim_none, wpBind_ok, wp_modifyGet, wpBind_ok]
      refine wp_ite (fun hknown => ?_) fun hknown => ?_
      · rw [wp_bind, record, Service.write, wp_bind, wp_call_eq]
        show wpBind _ _ ((env.fault (.record .LOGOUT) (w.calls + 1)).elim (.ok ()) .error) _
        cases hrec : env.fault (.record .LOGOUT) (w.calls + 1) with
        | some e => exact iff_of_true ⟨e, rfl⟩ (.inr ⟨hknown, rfl⟩)
        | none => exact iff_of_false (by rintro ⟨e, h⟩; cases h) (by simp)
      · -- the store does not know the token, and nothing is recorded
        refine iff_of_false (by rintro ⟨e, h⟩; cases h) ?_
        rintro (h | ⟨h, -⟩)
        · cases h
        · exact hknown h

theorem logout_threw_iff (tok : SessionId) :
    (∃ e w', logout env tok w = (.error e, w')) ↔
      (env.fault .invalidate w.calls).isSome = true ∨
        (w.sessions.findByToken tok).isSome = true ∧
          (env.fault (.record .LOGOUT) (w.calls + 1)).isSome = true := by
  rcases hrun : logout env tok w with ⟨r, w'⟩
  rw [← of_wp (logout_threw tok) hrun]
  constructor
  · rintro ⟨e, w'', h⟩
    exact ⟨e, (Prod.mk.inj h).1⟩
  · rintro ⟨e, rfl⟩
    exact ⟨e, w', rfl⟩

/-! ## Every frame -/

/-- The replies carry the request id of the frame. -/
theorem requestId_of_reply :
    (∀ text, (errReply f text).requestId = f.requestId) ∧
      (∀ pl r, (registerReply f pl r).requestId = f.requestId) ∧
      (∀ r, (authReply f r).requestId = f.requestId) ∧
      (∀ ok, (logoutReply f ok).requestId = f.requestId) ∧
      (∀ pl r, (adminReply f pl r).requestId = f.requestId) ∧
      (∀ r, (commitReply f r).requestId = f.requestId) ∧
      ∀ r, (downloadReply f r).requestId = f.requestId := by
  refine ⟨fun _ => rfl, ?_, ?_, ?_, ?_, ?_, ?_⟩
  · rintro pl (e | ⟨id | text⟩) <;> rfl
  · rintro (e | ⟨token | text⟩) <;> rfl
  · rintro (_ | _) <;> rfl
  · rintro pl (e | ⟨id | text⟩) <;> rfl
  · rintro (e | ⟨t | text⟩) <;> rfl
  · rintro (e | ⟨o | text⟩) <;> rfl

/-- A round that does not throw sends one frame. -/
theorem Handled.one_reply {hd : Handling} (h : Handled env f w c (.ok ()) hd) :
    ∃ reply, hd.sent = [reply] ∧ reply.requestId = f.requestId := by
  obtain ⟨err, reg, auth, logout, admin, commit, download⟩ := requestId_of_reply (f := f)
  cases h with
  | refused _ _ => exact ⟨_, rfl, err _⟩
  | listed => exact ⟨_, rfl, rfl⟩
  | registered _ _ _ => exact ⟨_, rfl, reg _ _⟩
  | authenticated _ _ _ => exact ⟨_, rfl, auth _⟩
  | loggedOut _ _ => exact ⟨_, rfl, logout _⟩
  | administered _ _ _ => exact ⟨_, rfl, admin _ _⟩
  | announced _ _ _ _ _ => exact ⟨_, rfl, rfl⟩
  | appended _ _ _ _ => exact ⟨_, rfl, rfl⟩
  | committed _ _ _ _ _ _ _ => exact ⟨_, rfl, commit _⟩
  | downloaded _ _ _ => exact ⟨_, rfl, download _⟩

/-- Only `LOGOUT` throws, and then `logout` did. -/
theorem Handled.threw {hd : Handling} {e : Exn} (h : Handled env f w c (.error e) hd) :
    f.type = .LOGOUT ∧ ∃ w', logout env ⟨f.body⟩ w = (.error e, w') := by
  cases h with
  | logoutThrew type run => exact ⟨type, _, run⟩

/-- The branch of `LOGOUT` throws when `logout` does. -/
theorem handleFrame_logout_threw {e : Exn} {w' : World .sqlite} (htype : f.type = .LOGOUT)
    (hrun : logout env ⟨f.body⟩ w = (.error e, w')) :
    handleFrame env f { world := w, conn := c } = (.error e, { world := w', conn := c }) := by
  rw [handleFrame_logout htype]
  simp [handleLogout, service, zoom, hrun, Bind.bind]

theorem answeredOnce_iff (env : Env) (w : World .sqlite) (c : Conn) (f : Frame) :
    AnsweredOnce env w c f ↔ ¬ LogoutThrows env w f := by
  constructor
  · rintro ⟨-, c', hopen⟩ ⟨htype, hthrows⟩
    obtain ⟨e, w', hrun⟩ := (logout_threw_iff ⟨f.body⟩).2 hthrows
    -- the exception is caught outside of the loop over the frames
    simp only [serverStep, handleFrame_logout_threw htype hrun] at hopen
    cases hopen
  · intro hquiet
    rcases hrun : handleFrame env f { world := w, conn := c } with ⟨e | _, hd⟩
    · obtain ⟨htype, w', hlogout⟩ := (of_wp (handleFrame_spec env f w c) hrun).threw
      exact absurd ⟨htype, (logout_threw_iff _).1 ⟨e, w', hlogout⟩⟩ hquiet
    · have hreply := (of_wp (handleFrame_spec env f w c) hrun).one_reply
      constructor
      · simpa only [serverStep, hrun] using hreply
      · exact ⟨hd.conn, by simp only [serverStep, hrun]⟩

/-- The audit log cannot be appended to when somebody logs out. -/
def Env.logoutUnrecorded : Env :=
  { Env.counting with
    fault := fun call _ =>
      if call = .record .LOGOUT then
        some (.runtime "audit chain verification failed before append")
      else
        none }

/-- The client of `sampleEvents` logs out with the token of its session. -/
def sampleLogout : Frame where
  type := .LOGOUT
  requestId := 4
  body := (sessionToken (Env.counting.randomToken 0)).value

set_option maxRecDepth 100000 in
/-- No reply is sent, and the connection is dropped. -/
theorem logout_unanswered :
    (serverNext Env.logoutUnrecorded (sampleEvents.take 6) (.frame sampleLogout)).output.sent = [] ∧
    ∃ c, (serverAfter Env.logoutUnrecorded (sampleEvents.take 6)).phase = .serving c ∧
      ¬ AnsweredOnce Env.logoutUnrecorded
        (serverAfter Env.logoutUnrecorded (sampleEvents.take 6)).world c sampleLogout := by
  have hsent : (serverNext Env.logoutUnrecorded (sampleEvents.take 6) (.frame sampleLogout)).output.sent
      = [] := by decide +kernel
  have hserving : (serverAfter Env.logoutUnrecorded (sampleEvents.take 6)).phase.conn.isSome = true := by
    decide +kernel
  obtain ⟨c, hc⟩ := Option.isSome_iff_exists.1 hserving
  have hphase := Phase.conn_eq_some hc
  refine ⟨hsent, c, hphase, fun hanswered => ?_⟩
  obtain ⟨reply, hreply, -⟩ := hanswered.reply
  rw [← hphase] at hreply
  rw [serverNext_output] at hsent
  cases hsent.symm.trans hreply

end SecureFileTransfer
