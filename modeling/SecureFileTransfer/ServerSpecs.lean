import SecureFileTransfer.ServerApp
import SecureFileTransfer.ServiceSpecs

/-!
# ServerSpecs — every way a frame can be answered

`Handled` lists what one round of the frame loop can do, branch by branch: the service call it
makes, the reply that call decides, and what becomes of the connection.  `Served` does the
same for every event.
-/

namespace SecureFileTransfer

open Prog Service Handler

variable {env : Env} {f : Frame} {w w' : World .sqlite} {c : Conn}

/-! ## Replies -/

def errReply (f : Frame) (text : Bytes := []) : Frame :=
  { type := .ERR, requestId := f.requestId, body := text }

def registerReply (f : Frame) (pl : RegisterPayload) : Except Exn (Result UserId) → Frame
  | .ok (.success _) =>
      { type := .REGISTER
        requestId := f.requestId
        body := ascii "Registration succeeded for " ++ pl.username }
  | .ok (.failure _) =>
      { type := .REGISTER, requestId := f.requestId, body := ascii "Registration failed" }
  | .error _ => errReply f

def authReply (f : Frame) : Except Exn (Result SessionId) → Frame
  | .ok (.success token) => { type := .AUTH, requestId := f.requestId, body := token.value }
  | .ok (.failure _) => errReply f (ascii "Login failed")
  | .error _ => errReply f

def logoutReply (f : Frame) (ok : Bool) : Frame :=
  if ok then
    { type := .LOGOUT, requestId := f.requestId, body := ascii "Logged out" }
  else
    errReply f (ascii "Logout failed")

def adminReply (f : Frame) (pl : AdminPayload) : Except Exn (Result UserId) → Frame
  | .ok (.success _) =>
      { type := f.type, requestId := f.requestId, body := adminMessage f.type pl.targetId }
  | .ok (.failure _) => errReply f (ascii "Admin denied")
  | .error _ => errReply f

def commitReply (f : Frame) : Except Exn (Result Transfer) → Frame
  | .ok (.success t) => { type := .UPLOAD_COMMIT, requestId := f.requestId, body := t.id.value }
  | .ok (.failure error) => errReply f error
  | .error _ => errReply f

def downloadReply (f : Frame) : Except Exn (Result Bytes) → Frame
  | .ok (.success o) => { type := .DOWNLOAD_DATA, requestId := f.requestId, body := o }
  | .ok (.failure error) => errReply f error
  | .error _ => errReply f

/-- The `ok` reply to an announcement or a chunk. -/
def okReply (f : Frame) (type : MsgType) : Frame :=
  { type := type, requestId := f.requestId, body := ascii "ok" }

/-! ## Connections -/

namespace Conn

def authenticated (c : Conn) : Except Exn (Result SessionId) → Conn
  | .ok (.success token) => { c with connToken := token.value }
  | _ => c

def loggedOut (c : Conn) (tok : Bytes) (ok : Bool) : Conn :=
  if ok ∧ c.connToken = tok then { c with connToken := [] } else c

def announced (c : Conn) (init : UploadInit) : Conn :=
  { c with
    pendingInit := c.pendingInit.insert init.uploadId init
    pendingData := c.pendingData.insert init.uploadId [] }

def appended (c : Conn) (data : UploadData) (sofar : Bytes) : Conn :=
  { c with pendingData := c.pendingData.insert data.uploadId (sofar ++ data.chunk) }

def committed (c : Conn) (id : Bytes) : Except Exn (Result Transfer) → Conn
  | .ok (.success _) =>
      { c with pendingInit := c.pendingInit.erase id, pendingData := c.pendingData.erase id }
  | _ => c

/-- The token of the request, or that of the connection. -/
def effectiveToken (c : Conn) (req : DownloadReq) : SessionId :=
  ⟨if req.token = [] then c.connToken else req.token⟩

end Conn

/-- How the frame `f` is handled on a connection. -/
inductive Handled (env : Env) (f : Frame) (w : World .sqlite) (c : Conn) :
    Except Exn Unit → Handling → Prop
  /-- No service did anything; the texts of these replies are short. -/
  | refused {w' text} (quiet : Quiet w w') (short : text.length ≤ 17) :
      Handled env f w c (.ok ()) ⟨w', c, [errReply f text], []⟩
  | listed : Handled env f w c (.ok ())
      ⟨w, c, [{ type := .LIST, requestId := f.requestId, body := [] }], []⟩
  | registered {pl r w'} (type : f.type = .REGISTER) (decoded : decodeRegister f.body = .ok pl)
      (run : registerUser env pl.username pl.email pl.password (ascii "user") w = (r, w')) :
      Handled env f w c (.ok ()) ⟨w', c, [registerReply f pl r], []⟩
  | authenticated {pl r w'} (type : f.type = .AUTH) (decoded : decodeLogin f.body = .ok pl)
      (run : login env pl.username pl.password w = (r, w')) :
      Handled env f w c (.ok ()) ⟨w', c.authenticated r, [authReply f r], []⟩
  | loggedOut {ok w'} (type : f.type = .LOGOUT) (run : logout env ⟨f.body⟩ w = (.ok ok, w')) :
      Handled env f w c (.ok ()) ⟨w', c.loggedOut f.body ok, [logoutReply f ok], []⟩
  | logoutThrew {e w'} (type : f.type = .LOGOUT) (run : logout env ⟨f.body⟩ w = (.error e, w')) :
      Handled env f w c (.error e) ⟨w', c, [], []⟩
  | administered {pl r w'} (type : f.type = .ADMIN_ACTIVATE ∨ f.type = .ADMIN_DEACTIVATE)
      (decoded : decodeAdmin f.body = .ok pl)
      (run : adminAction env f.type ⟨pl.token⟩ ⟨pl.targetId⟩ w = (r, w')) :
      Handled env f w c (.ok ()) ⟨w', c, [adminReply f pl r], []⟩
  | announced {init w'} (type : f.type = .UPLOAD_INIT) (decoded : decodeUploadInit f.body = .ok init)
      (token : c.connToken ≠ [])
      (valid : w.sessions.isValid ⟨c.connToken⟩ (env.clock w.clockReads) = true)
      (quiet : Quiet w w') :
      Handled env f w c (.ok ()) ⟨w', c.announced init, [okReply f .UPLOAD_INIT], []⟩
  | appended {data sofar} (type : f.type = .UPLOAD_DATA)
      (decoded : decodeUploadData f.body = .ok data)
      (pending : c.pendingData.lookup data.uploadId = some sofar)
      (offset : data.offset.toNat = sofar.length) :
      Handled env f w c (.ok ()) ⟨w, c.appended data sofar, [okReply f .UPLOAD_DATA], []⟩
  | committed {init data w₁ r w'} (type : f.type = .UPLOAD_COMMIT)
      (pendingInit : c.pendingInit.lookup (c.resolve f.body) = some init)
      (pendingData : c.pendingData.lookup (c.resolve f.body) = some data)
      (token : c.connToken ≠ [])
      (valid : w.sessions.isValid ⟨c.connToken⟩ (env.clock w.clockReads) = true)
      (quiet : Quiet w w₁) (run : upload env (c.uploadArgs init data) w₁ = (r, w')) :
      Handled env f w c (.ok ())
        ⟨w', c.committed (c.resolve f.body) r, [commitReply f r], [c.uploadArgs init data]⟩
  | downloaded {req r w'} (type : f.type = .DOWNLOAD_REQ)
      (decoded : decodeDownloadReq f.body = .ok req)
      (run : download env (c.effectiveToken req) ⟨req.fileId⟩ w = (r, w')) :
      Handled env f w c (.ok ()) ⟨w', c, [downloadReply f r], []⟩

/-! ## Rules for handlers -/

section Rules

variable {α β : Type} {h : Handling}

/-- A call into a service, then the rest. -/
theorem wp_service_bind {x : Service .sqlite α} {k : α → Handler β}
    {Q : Except Exn β → Handling → Prop}
    (hk : ∀ r w', x h.world = (r, w') → wpBind k Q r { h with world := w' }) :
    wp (service x >>= k) Q h := by
  rw [wp_bind]
  exact hk _ _ rfl

/-- The branch threw: `ERR` is sent. -/
theorem wp_guarded {x : Handler Unit} {Q : Except Exn Unit → Handling → Prop}
    (hx : wp x (fun r h' => match r with
      | .ok _ => Q (.ok ()) h'
      | .error _ => Q (.ok ()) { h' with sent := h'.sent ++ [errReply f] }) h) :
    wp (guarded f x) Q h := by
  rw [guarded, wp_tryCatch]
  refine wp_mono hx ?_
  rintro (e | _) h' hq
  · exact hq
  · exact hq

/-- A payload that does not decode is answered with `ERR`. -/
theorem wp_guarded_decode {p : Except Exn α} {k : α → Handler Unit}
    {Q : Except Exn Unit → Handling → Prop}
    (herr : Q (.ok ()) { h with sent := h.sent ++ [errReply f] })
    (hok : ∀ a, p = .ok a → wp (guarded f (k a)) Q h) :
    wp (guarded f (outcome p >>= k)) Q h := by
  cases p with
  | error e => exact herr
  | ok a => exact hok a rfl

theorem wp_connTokenValid_bind {k : Bool → Handler β} {Q : Except Exn β → Handling → Prop}
    (herr : ∀ e w', Quiet h.world w' → Q (.error e) { h with world := w' })
    (hok : ∀ w', Quiet h.world w' →
      wp (k (h.world.sessions.isValid ⟨c.connToken⟩ (env.clock h.world.clockReads))) Q
        { h with world := w' }) :
    wp (connTokenValid env c >>= k) Q h := by
  have hclock : Quiet h.world { h.world with clockReads := h.world.clockReads + 1 } :=
    ⟨⟨rfl, rfl, le_rfl⟩, rfl⟩
  rw [wp_bind, connTokenValid, wp_bind]
  show wp (service (isValid env ⟨c.connToken⟩ (env.clock h.world.clockReads))) (wpBind k Q)
    { h with world := { h.world with clockReads := h.world.clockReads + 1 } }
  rw [service, wp_zoom]
  exact wp_query (fun e _ => herr e _ hclock.tick) (hok _ hclock.tick)

end Rules

/-! ## The branches -/

theorem refused_err (hq : Quiet w w') : Handled env f w c (.ok ()) ⟨w', c, [errReply f], []⟩ :=
  .refused hq (by decide)

theorem handleRegister_spec (htype : f.type = .REGISTER) :
    wp (handleRegister env f) (Handled env f w c) { world := w, conn := c } := by
  refine wp_guarded_decode (refused_err (Quiet.refl w)) fun pl hpl => wp_guarded ?_
  refine wp_service_bind fun r w' hrun => ?_
  have handled := Handled.registered (c := c) htype hpl hrun
  rcases r with e | ⟨id | text⟩
  · exact handled
  · exact handled
  · exact handled

theorem handleAuth_spec (htype : f.type = .AUTH) :
    wp (handleAuth env f) (Handled env f w c) { world := w, conn := c } := by
  refine wp_guarded_decode (refused_err (Quiet.refl w)) fun pl hpl => wp_guarded ?_
  refine wp_service_bind fun r w' hrun => ?_
  have handled := Handled.authenticated (c := c) htype hpl hrun
  rcases r with e | ⟨token | text⟩
  · exact handled
  · exact handled
  · exact handled

theorem handleLogout_spec (htype : f.type = .LOGOUT) :
    wp (handleLogout env f) (Handled env f w c) { world := w, conn := c } := by
  refine wp_service_bind fun r w' hrun => ?_
  rcases r with e | ok
  · exact .logoutThrew htype hrun
  · have handled := Handled.loggedOut (c := c) htype hrun
    cases ok with
    | false => exact handled
    | true =>
        unfold Conn.loggedOut at handled
        refine wp_ite (fun _ => ?_) fun h => absurd rfl h
        rw [wp_bind, sendFrame, wp_modifyGet, wpBind_ok, wp_bind, conn, wp_ask, wpBind_ok]
        refine wp_ite (fun htok => ?_) fun htok => ?_
        · rw [if_pos ⟨rfl, htok⟩] at handled
          exact handled
        · rw [if_neg (fun h => htok h.2)] at handled
          exact handled

theorem handleAdmin_spec (htype : f.type = .ADMIN_ACTIVATE ∨ f.type = .ADMIN_DEACTIVATE) :
    wp (handleAdmin env f) (Handled env f w c) { world := w, conn := c } := by
  refine wp_guarded_decode (refused_err (Quiet.refl w)) fun pl hpl => wp_guarded ?_
  refine wp_service_bind fun r w' hrun => ?_
  have handled := Handled.administered (c := c) htype hpl hrun
  rcases r with e | ⟨id | text⟩
  · exact handled
  · exact handled
  · exact handled

theorem handleDownloadReq_spec (htype : f.type = .DOWNLOAD_REQ) :
    wp (handleDownloadReq env f) (Handled env f w c) { world := w, conn := c } := by
  refine wp_guarded_decode (refused_err (Quiet.refl w)) fun req hreq => wp_guarded ?_
  rw [wp_bind, conn, wp_ask, wpBind_ok]
  refine wp_service_bind fun r w' hrun => ?_
  have handled := Handled.downloaded (c := c) htype hreq hrun
  rcases r with e | ⟨o | text⟩
  · exact handled
  · exact handled
  · exact handled

theorem handleUploadData_spec (htype : f.type = .UPLOAD_DATA) :
    wp (handleUploadData f) (Handled env f w c) { world := w, conn := c } := by
  refine wp_guarded_decode (refused_err (Quiet.refl w)) fun data hdata => wp_guarded ?_
  have refused : Handled env f w c (.ok ()) ⟨w, c, [errReply f], []⟩ := refused_err (Quiet.refl w)
  rw [wp_bind, conn, wp_ask, wpBind_ok]
  cases hpending : c.pendingData.lookup data.uploadId with
  | none => exact refused
  | some sofar =>
      refine wp_ite (fun _ => refused) fun hoff => ?_
      exact .appended htype hdata hpending (not_not.1 hoff)

theorem length_what_of_validate {origName header : Bytes} {size : UInt64} {e : Exn}
    (h : PdfFileValidator.validate origName size header = .error e) : e.what.length ≤ 17 := by
  simp only [PdfFileValidator.validate] at h
  split at h
  · cases h
    decide
  · split at h
    · cases h
      decide
    · split at h
      · cases h
        decide
      · split at h
        · cases h
          decide
        · split at h
          · cases h
            decide
          · split at h
            · cases h
              decide
            · cases h

theorem handleUploadInit_spec (htype : f.type = .UPLOAD_INIT) :
    wp (handleUploadInit env f) (Handled env f w c) { world := w, conn := c } := by
  refine wp_guarded_decode (refused_err (Quiet.refl w)) fun init hinit => wp_guarded ?_
  rw [wp_bind, conn, wp_ask, wpBind_ok]
  refine wp_ite (fun _ => .refused (Quiet.refl w) (by decide)) fun htoken => ?_
  refine wp_connTokenValid_bind (fun e w₁ h₁ => refused_err h₁) fun w₁ h₁ => ?_
  refine wp_ite (fun hvalid => ?_) fun _ => refused_err h₁
  unfold acceptInit
  cases hval : PdfFileValidator.validate init.origName init.size fakeHdr with
  | error e => exact .refused h₁ (length_what_of_validate hval)
  | ok _ =>
      have announced : ∀ w₂, Quiet w₁ w₂ → Handled env f w c (.ok ())
          ⟨w₂, c.announced init, [okReply f .UPLOAD_INIT], []⟩ :=
        fun w₂ h₂ => .announced htype hinit htoken hvalid (h₁.trans h₂)
      -- the lookup of the sender's name: both outcomes go on
      rw [wp_bind, setConn, wp_modifyGet, wpBind_ok, wp_bind, wp_tryCatch]
      refine wp_service_bind fun r w₂ hrun => ?_
      have h₂ : Quiet w₁ w₂ := of_wp (quiet_query.wp w₁) hrun
      rcases r with e | found
      · exact announced w₂ h₂
      · exact announced w₂ h₂

theorem handleUploadCommit_spec (htype : f.type = .UPLOAD_COMMIT) :
    wp (handleUploadCommit env f) (Handled env f w c) { world := w, conn := c } := by
  have refused : Handled env f w c (.ok ()) ⟨w, c, [errReply f], []⟩ := refused_err (Quiet.refl w)
  refine wp_guarded ?_
  rw [wp_bind, conn, wp_ask, wpBind_ok]
  show wp (commitPending env f c (c.resolve f.body) (c.pendingInit.lookup (c.resolve f.body))
    (c.pendingData.lookup (c.resolve f.body))) _ _
  cases hinit : c.pendingInit.lookup (c.resolve f.body) with
  | none => exact refused
  | some init =>
      cases hdata : c.pendingData.lookup (c.resolve f.body) with
      | none => exact refused
      | some data =>
          refine wp_ite (fun _ => refused) fun htoken => ?_
          refine wp_connTokenValid_bind (fun e w₁ h₁ => refused_err h₁) fun w₁ h₁ => ?_
          refine wp_ite (fun hvalid => ?_) fun _ => refused_err h₁
          unfold commitUpload transfersUpload
          rw [wp_bind, wp_bind, wp_modifyGet, wpBind_ok]
          show wpBind _ _ (upload env (c.uploadArgs init data) w₁).1
            (⟨(upload env (c.uploadArgs init data) w₁).2, c, [], [c.uploadArgs init data]⟩ : Handling)
          rcases hrun : upload env (c.uploadArgs init data) w₁ with ⟨r, w'⟩
          have handled := Handled.committed htype hinit hdata htoken hvalid h₁ hrun
          rcases r with e | ⟨t | text⟩
          · exact handled
          · exact handled
          · exact handled

/-! ## The branches of a round -/

section Branches

variable {env : Env} {f : Frame}

theorem handleFrame_logout (htype : f.type = .LOGOUT) : handleFrame env f = handleLogout env f := by
  unfold handleFrame
  rw [htype]
  rfl

theorem handleFrame_init (htype : f.type = .UPLOAD_INIT) :
    handleFrame env f = handleUploadInit env f := by
  unfold handleFrame
  rw [htype]
  rfl

theorem handleFrame_data (htype : f.type = .UPLOAD_DATA) : handleFrame env f = handleUploadData f := by
  unfold handleFrame
  rw [htype]
  rfl

theorem handleFrame_commit (htype : f.type = .UPLOAD_COMMIT) :
    handleFrame env f = handleUploadCommit env f := by
  unfold handleFrame
  rw [htype]
  rfl

end Branches

/-- One round of the frame loop. -/
theorem handleFrame_spec (env : Env) (f : Frame) (w : World .sqlite) (c : Conn) :
    wp (handleFrame env f) (Handled env f w c) { world := w, conn := c } := by
  unfold handleFrame
  refine wp_ite handleRegister_spec fun _ => ?_
  refine wp_ite handleAuth_spec fun _ => ?_
  refine wp_ite handleLogout_spec fun _ => ?_
  refine wp_ite handleAdmin_spec fun _ => ?_
  refine wp_ite handleUploadInit_spec fun _ => ?_
  refine wp_ite handleUploadData_spec fun _ => ?_
  refine wp_ite handleUploadCommit_spec fun _ => ?_
  refine wp_ite handleDownloadReq_spec fun _ => ?_
  refine wp_ite (fun _ => .listed) fun _ => refused_err (Quiet.refl w)

/-! ## Every event -/

/-- What an event can do to the process. -/
inductive Served (env : Env) (s : ServerState) : ServerEvent → Output → ServerState → Prop
  | booted {u e p w} (run : boot env u e p s.world = (.ok (), w)) :
      Served env s (.boot u e p) {} ⟨w, .listening⟩
  | bootThrew {u e p ex w} (run : boot env u e p s.world = (.error ex, w)) :
      Served env s (.boot u e p) {} ⟨w, .down⟩
  | accepted (phase : s.phase = .listening) :
      Served env s .accept {} ⟨s.world, .serving Conn.fresh⟩
  | handled {f c h} (phase : s.phase = .serving c) (handled : Handled env f s.world c (.ok ()) h) :
      Served env s (.frame f) ⟨h.sent, h.uploads⟩ ⟨h.world, .serving h.conn⟩
  | dropped {f c e h} (phase : s.phase = .serving c)
      (handled : Handled env f s.world c (.error e) h) :
      Served env s (.frame f) ⟨h.sent, h.uploads⟩ ⟨h.world, .listening⟩
  | hungup {c : Conn} (phase : s.phase = .serving c) : Served env s .hangup {} ⟨s.world, .listening⟩
  | keyed {uid pub keys} (save : savePubkey .sqlite uid pub s.world.keys = .ok keys) :
      Served env s (.pubkey uid pub) {} ⟨{ s.world with keys := keys }, s.phase⟩
  /-- The event does not apply in this phase, or the key is refused. -/
  | ignored {ev} : Served env s ev {} s

/-- What is known of the handler of a frame is known of the step. -/
theorem serverStep_of_handled (env : Env) {s : ServerState} {P : Handling → Prop} (hphase : s.phase = .serving c)
    (h : wp (handleFrame env f) (fun r hd => r = .ok () ∧ P hd) { world := s.world, conn := c }) :
    ∃ hd, P hd ∧ serverStep env s (.frame f) =
      (⟨hd.sent, hd.uploads⟩, ⟨hd.world, .serving hd.conn⟩) := by
  simp only [serverStep, hphase]
  rcases hrun : handleFrame env f { world := s.world, conn := c } with ⟨r, hd⟩
  obtain ⟨rfl, hP⟩ := of_wp h hrun
  exact ⟨hd, hP, rfl⟩

/-- Whatever is sent or uploaded is the work of one frame. -/
theorem Served.output {s s' : ServerState} {ev : ServerEvent} {out : Output}
    (h : Served env s ev out s') : out = {} ∨ ∃ f c r hd, ev = .frame f ∧ s.phase = .serving c ∧
      Handled env f s.world c r hd ∧ out = ⟨hd.sent, hd.uploads⟩ ∧ s'.world = hd.world := by
  cases h with
  | handled phase handled => exact .inr ⟨_, _, _, _, rfl, phase, handled, rfl, rfl⟩
  | dropped phase handled => exact .inr ⟨_, _, _, _, rfl, phase, handled, rfl, rfl⟩
  | _ => exact .inl rfl

theorem serverStep_served (env : Env) (s : ServerState) (ev : ServerEvent) :
    Served env s ev (serverStep env s ev).1 (serverStep env s ev).2 := by
  cases ev with
  | boot u e p =>
      simp only [serverStep]
      rcases hrun : boot env u e p s.world with ⟨ex | _, w⟩
      · exact .bootThrew hrun
      · exact .booted hrun
  | accept =>
      simp only [serverStep]
      split
      · exact .accepted ‹_›
      · exact .ignored
  | frame f =>
      simp only [serverStep]
      split
      · rename_i c hphase
        have handled := handleFrame_spec env f s.world c
        rcases hrun : handleFrame env f { world := s.world, conn := c } with ⟨e | _, h⟩
        · exact .dropped hphase (of_wp handled hrun)
        · exact .handled hphase (of_wp handled hrun)
      · exact .ignored
  | hangup =>
      simp only [serverStep]
      split
      · exact .hungup ‹_›
      · exact .ignored
  | pubkey uid pub =>
      simp only [serverStep]
      split
      · exact .keyed ‹_›
      · exact .ignored

end SecureFileTransfer
