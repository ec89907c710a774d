import SecureFileTransfer.ServerRuns

/-!
# Download — who is sent what

A `DOWNLOAD_DATA` reply answers a request whose token is a valid session of the owner or the
recipient of the file, and carries the bytes the file was uploaded with.  Conversely, such a request
is answered so, unless a call it makes throws.
-/

namespace SecureFileTransfer

open Prog Service Handler Runs

variable {env : Env} {f : Frame} {w : World .sqlite} {c : Conn}

/-- The request `f` for the record `fr`, made on the connection `c`. -/
structure AuthorisedRequest (env : Env) (f : Frame) (w : World .sqlite) (c : Conn)
    (req : DownloadReq) (fr : FileRecord) : Prop where
  type : f.type = .DOWNLOAD_REQ
  decoded : decodeDownloadReq f.body = .ok req
  record : Backend.sqlite.files.findById w.files ⟨req.fileId⟩ = some fr
  session : Authorised env w (c.effectiveToken req) fr

/-- What a transition after the history `h` sends as downloads. -/
structure DownloadsAuthorised (env : Env) (h : List ServerTransition) (t : ServerTransition) :
    Prop where
  sent : ∀ reply ∈ t.output.sent, reply.type = .DOWNLOAD_DATA → ∃ f c req fr,
    t.input = .frame f ∧ t.before.phase = .serving c ∧
    AuthorisedRequest env f t.before.world c req fr ∧ reply.requestId = f.requestId ∧
    (∃ u ∈ h, Creates ServerState.world u fr) ∧
    ∀ u ∈ h, Creates ServerState.world u fr → ∃ a ∈ u.output.uploads, reply.body = a.opaqueBytes
  answered : ∀ f c req fr, t.input = .frame f → t.before.phase = .serving c →
    AuthorisedRequest env f t.before.world c req fr →
    (∀ call i, i < 5 → env.fault call (t.before.world.calls + i) = none) →
    ∃ reply, t.output.sent = [reply] ∧ reply.type = .DOWNLOAD_DATA

/-- What a reply says of the frame it answers: only a commit that stored its upload is answered with
`UPLOAD_COMMIT`, and only an authorised request with `DOWNLOAD_DATA`. -/
theorem Handled.reply_cases {r : Except Exn Unit} {hd : Handling} {reply : Frame}
    (h : Handled env f w c r hd) (hreply : reply ∈ hd.sent) :
    (reply.type ≠ .UPLOAD_COMMIT ∧ reply.type ≠ .DOWNLOAD_DATA) ∨
      (∃ a w₁ t, Quiet w w₁ ∧ UploadOutcome env a w₁ (.ok (.success t)) hd.world ∧
        reply.type = .UPLOAD_COMMIT ∧ reply.body = t.id.value) ∨
      ∃ req fr, AuthorisedRequest env f w c req fr ∧ reply.type = .DOWNLOAD_DATA ∧
        reply.requestId = f.requestId ∧ w.blobs.lookup fr.storageId = some reply.body := by
  have other : ∀ type, reply.type = type → type ≠ .UPLOAD_COMMIT ∧ type ≠ .DOWNLOAD_DATA →
      reply.type ≠ .UPLOAD_COMMIT ∧ reply.type ≠ .DOWNLOAD_DATA := by
    rintro _ rfl hne
    exact hne
  cases h with
  | logoutThrew _ _ => cases hreply
  | @committed _ _ _ res _ _ _ _ _ _ quiet run =>
      obtain rfl := List.mem_singleton.1 hreply
      rcases res with e | ⟨t | text⟩
      · exact .inl (other .ERR rfl (by decide))
      · exact .inr (.inl ⟨_, _, t, quiet, of_wp (upload_spec _) run, rfl, rfl⟩)
      · exact .inl (other .ERR rfl (by decide))
  | @downloaded req res w' type decoded run =>
      obtain rfl := List.mem_singleton.1 hreply
      rcases res with e | ⟨o | text⟩
      · exact .inl (other .ERR rfl (by decide))
      · obtain ⟨fr, hfr, hauth, hblob⟩ := (of_wp (download_spec _ _) run).success o rfl
        exact .inr (.inr ⟨req, fr, ⟨type, decoded, hfr, hauth⟩, rfl, rfl, hblob⟩)
      · exact .inl (other .ERR rfl (by decide))
  -- no other branch sends a reply of these types
  | refused _ _ =>
      obtain rfl := List.mem_singleton.1 hreply
      exact .inl (other .ERR rfl (by decide))
  | listed =>
      obtain rfl := List.mem_singleton.1 hreply
      exact .inl (other .LIST rfl (by decide))
  | @registered _ res _ _ _ _ =>
      obtain rfl := List.mem_singleton.1 hreply
      rcases res with e | ⟨id | text⟩
      · exact .inl (other .ERR rfl (by decide))
      · exact .inl (other .REGISTER rfl (by decide))
      · exact .inl (other .REGISTER rfl (by decide))
  | @authenticated _ res _ _ _ _ =>
      obtain rfl := List.mem_singleton.1 hreply
      rcases res with e | ⟨token | text⟩
      · exact .inl (other .ERR rfl (by decide))
      · exact .inl (other .AUTH rfl (by decide))
      · exact .inl (other .ERR rfl (by decide))
  | @loggedOut ok _ _ _ =>
      obtain rfl := List.mem_singleton.1 hreply
      cases ok with
      | false => exact .inl (other .ERR rfl (by decide))
      | true => exact .inl (other .LOGOUT rfl (by decide))
  | @administered _ res _ type _ _ =>
      obtain rfl := List.mem_singleton.1 hreply
      rcases res with e | ⟨id | text⟩
      · exact .inl (other .ERR rfl (by decide))
      · -- the reply has the type of the request
        rcases type with type | type
        · exact .inl (other .ADMIN_ACTIVATE type (by decide))
        · exact .inl (other .ADMIN_DEACTIVATE type (by decide))
      · exact .inl (other .ERR rfl (by decide))
  | announced _ _ _ _ _ =>
      obtain rfl := List.mem_singleton.1 hreply
      exact .inl (other .UPLOAD_INIT rfl (by decide))
  | appended _ _ _ _ =>
      obtain rfl := List.mem_singleton.1 hreply
      exact .inl (other .UPLOAD_DATA rfl (by decide))

/-- Only an authorised request is answered with `DOWNLOAD_DATA`, with the blob of its record. -/
theorem Handled.downloadData {r : Except Exn Unit} {hd : Handling} {reply : Frame}
    (h : Handled env f w c r hd) (hreply : reply ∈ hd.sent) (htype : reply.type = .DOWNLOAD_DATA) :
    ∃ req fr, AuthorisedRequest env f w c req fr ∧ reply.requestId = f.requestId ∧
      w.blobs.lookup fr.storageId = some reply.body := by
  rcases h.reply_cases hreply with ⟨-, hne⟩ | ⟨_, _, _, -, -, hcommit, -⟩ | ⟨req, fr, hreq, -, hrest⟩
  · exact absurd htype hne
  · exact absurd (hcommit.symm.trans htype) (by decide)
  · exact ⟨req, fr, hreq, hrest⟩

theorem handleFrame_downloadReq (htype : f.type = .DOWNLOAD_REQ) :
    handleFrame env f = handleDownloadReq env f := by
  unfold handleFrame
  rw [htype]
  rfl

/-- A download that ends with a result is answered with the reply of that result. -/
theorem handleFrame_of_download {req : DownloadReq} {res : Result Bytes}
    (htype : f.type = .DOWNLOAD_REQ) (hdecoded : decodeDownloadReq f.body = .ok req)
    (hrun : wp (download env (c.effectiveToken req) ⟨req.fileId⟩) (fun r _ => r = .ok res) w) :
    wp (handleFrame env f) (fun r hd => r = .ok () ∧ hd.sent = [downloadReply f (.ok res)])
      { world := w, conn := c } := by
  rw [handleFrame_downloadReq htype]
  unfold handleDownloadReq
  rw [hdecoded]
  refine wp_guarded ?_
  rw [wp_bind, wp_outcome, wpBind_ok, wp_bind, conn, wp_ask, wpBind_ok]
  refine wp_service_bind fun r w' hr => ?_
  obtain rfl := of_wp hrun hr
  cases res with
  | success o => exact ⟨rfl, rfl⟩
  | failure text => exact ⟨rfl, rfl⟩

/-- An authorised request for a stored blob is answered with it. -/
theorem handleFrame_authorised {req : DownloadReq} {fr : FileRecord} {o : Bytes}
    (hreq : AuthorisedRequest env f w c req fr) (hblob : w.blobs.lookup fr.storageId = some o)
    (hok : ∀ call i, i < 5 → env.fault call (w.calls + i) = none) :
    wp (handleFrame env f)
      (fun r hd => r = .ok () ∧
        hd.sent = [{ type := .DOWNLOAD_DATA, requestId := f.requestId, body := o }])
      { world := w, conn := c } :=
  handleFrame_of_download hreq.type hreq.decoded
    (download_success hreq.session hreq.record hblob hok)

/-! ## Every run -/

/-- A record that can be found is one of the repository. -/
theorem mem_records_of_findById {b : Backend} {files : b.files.State} {i : FileId}
    {fr : FileRecord} (h : b.files.findById files i = some fr) : fr ∈ b.records files :=
  (b.fileView.findById_iff.1 h).1

theorem downloads_authorised_of_run (env : Env) (evs : List ServerEvent) (ev : ServerEvent)
    (hfresh : FreshIds env (serverAfter env evs).world.ids) :
    DownloadsAuthorised env (serverTrace env evs) (serverNext env evs ev) := by
  have htr := traceable_of_serverRun env evs hfresh
  constructor
  · intro reply hreply htype
    rcases (serverNext_served env evs ev).output with hout | ⟨f, c, r, hd, rfl, hphase, handled, hout, -⟩
    · rw [hout] at hreply
      cases hreply
    rw [hout] at hreply
    obtain ⟨req, fr, hreq, hid, hblob⟩ := handled.downloadData hreply htype
    refine ⟨f, c, req, fr, rfl, hphase, hreq, hid, ?_, ?_⟩
    · exact htr.created fr (mem_records_of_findById hreq.record)
    · intro u hu hcr
      obtain ⟨-, a, ha, hlookup⟩ := htr.content u hu fr hcr
      exact ⟨a, ha, Option.some.inj (hblob.symm.trans hlookup)⟩
  · intro f c req fr hinput hphase hreq hok
    obtain rfl : ev = .frame f := hinput
    have hphase' : (serverAfter env evs).phase = .serving c := hphase
    obtain ⟨u, hu, hcr⟩ := htr.created fr (mem_records_of_findById hreq.record)
    obtain ⟨-, a, -, hblob⟩ := htr.content u hu fr hcr
    obtain ⟨hd, hsent, hstep⟩ :=
      serverStep_of_handled env hphase' (handleFrame_authorised hreq hblob hok)
    rw [serverNext_output, hstep]
    exact ⟨_, hsent, rfl⟩

/-- Two users register, and one of them logs in and uploads a file for the other. -/
def sampleEvents : List ServerEvent :=
  [ .boot [] [] [],
    .accept,
    .frame
      { type := .REGISTER
        requestId := 1
        body := encodeRegister ⟨ascii "alice", ascii "a@x", ascii "password"⟩ },
    .frame
      { type := .REGISTER
        requestId := 2
        body := encodeRegister ⟨ascii "bob", ascii "b@x", ascii "password"⟩ },
    .pubkey (generateUserId (Env.counting.randomId 1)) (List.replicate 32 7),
    .frame
      { type := .AUTH, requestId := 3, body := encodeLogin ⟨ascii "alice", ascii "password"⟩ },
    .frame
      { type := .UPLOAD_INIT
        requestId := 4
        body := encodeUploadInit
          { recipient := ascii "bob"
            origName := ascii "a.pdf"
            uploadId := ascii "u1"
            size := 3
            digest := zeroDigest
            wrapped := {} } },
    .frame
      { type := .UPLOAD_DATA, requestId := 5, body := encodeUploadData ⟨ascii "u1", 0, [1, 2, 3]⟩ },
    .frame { type := .UPLOAD_COMMIT, requestId := 6, body := [] } ]

/-- The sender asks for the file with the token of the connection. -/
def sampleRequest : Frame where
  type := .DOWNLOAD_REQ
  requestId := 7
  body := encodeDownloadReq ⟨(generateUserId (Env.counting.randomId 2)).value, []⟩

set_option maxRecDepth 100000 in
theorem downloads_authorised_sampleRequest :
    (serverNext Env.counting sampleEvents (.frame sampleRequest)).output.sent =
      [{ type := .DOWNLOAD_DATA, requestId := 7, body := [1, 2, 3] }] ∧
    DownloadsAuthorised Env.counting (serverTrace Env.counting sampleEvents)
      (serverNext Env.counting sampleEvents (.frame sampleRequest)) := by
  refine ⟨by decide +kernel, downloads_authorised_of_run _ _ _ ?_⟩
  have hids : (serverAfter Env.counting sampleEvents).world.ids = 5 := by
    decide +kernel
  rw [hids]
  unfold FreshIds
  decide +kernel

end SecureFileTransfer
