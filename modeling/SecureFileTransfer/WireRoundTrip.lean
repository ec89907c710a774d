import SecureFileTransfer.Download

/-!
# WireRoundTrip — the identifier a commit hands back

The reply to a commit carries the id of the transfer; a download asks for the id of the file.  Both
are drawn from the same generator, one after the other, so as long as no id is drawn twice the
identifier that a client is given never names a file.
-/

namespace SecureFileTransfer

open Prog Service Handler Runs

variable {env : Env} {f : Frame} {w : World .sqlite} {c : Conn}

/-! ## Indices of generated ids -/

/-- The text of the n-th generated id. -/
def idText (env : Env) (n : Nat) : Bytes := (generateUserId (env.randomId n)).value

theorem FreshIds.idText_ne {n i j : Nat} (h : FreshIds env n) (hj : j < n) (hij : i < j) :
    idText env i ≠ idText env j := fun heq => h j hj i hij (congrArg UserId.mk heq)

/-- Every record has an id drawn so far. -/
def FilesNamed (env : Env) (w : World .sqlite) : Prop :=
  ∀ r ∈ Backend.sqlite.records w.files, ∃ i < w.ids, r.id.value = idText env i

/-- The text is an id drawn so far, and that of no file. -/
def NoFile (env : Env) (w : World .sqlite) (x : Bytes) : Prop :=
  (∃ i < w.ids, x = idText env i) ∧ ∀ r ∈ Backend.sqlite.records w.files, r.id.value ≠ x

/-! ## What one event adds -/

theorem text_idText (env : Env) (n : Nat) :
    Backend.sqlite.fileView.text (idText env n) = idText env n :=
  Backend.sqlite.fileView.text_eq (zero_not_mem_generateUserId _)

/-- A record that an event adds is named by the first id the event draws. -/
theorem Served.new_record {s s' : ServerState} {ev : ServerEvent} {out : Output}
    (h : Served env s ev out s') {r : FileRecord}
    (hr : r ∈ Backend.sqlite.records s'.world.files) :
    r ∈ Backend.sqlite.records s.world.files ∨
      (r.id.value = idText env s.world.ids ∧ s.world.ids < s'.world.ids) := by
  rcases h.stores with ⟨hk, -⟩ | ⟨a, w₁, res, -, hq, hup⟩
  · rw [hk.files] at hr
    exact .inl hr
  · have hfiles₁ : w₁.files = s.world.files := congrArg Stores.files hq.stores
    have unchanged : s'.world.files = w₁.files → r ∈ Backend.sqlite.records s.world.files := by
      intro hfiles
      rwa [hfiles, hfiles₁] at hr
    cases hup with
    | refused _ _ stores _ => exact .inl (unchanged (congrArg Stores.files stores))
    | withdrawn stores _ _ => exact .inl (unchanged (congrArg Stores.files stores :))
    | orphaned stores _ _ _ => exact .inl (unchanged (congrArg Stores.files stores :))
    | @stored _ _ senderId recipientId now files ts admitted write _ stores ids _ _ =>
        have hst := stored_of_outcome admitted write stores ids
        rcases (hst.records r).1 hr with hold | rfl
        · rw [hfiles₁] at hold
          exact .inl hold
        · -- the file id is the first of the three ids that an upload draws
          refine .inr ⟨?_, by rw [ids, hq.ids]; omega⟩
          rw [Backend.sqlite.fileView.stored_id, ← hq.ids]
          exact text_idText env w₁.ids

/-- Only a commit that stored its upload is answered with `UPLOAD_COMMIT`. -/
theorem Handled.uploadCommit {r : Except Exn Unit} {hd : Handling} {reply : Frame}
    (h : Handled env f w c r hd) (hreply : reply ∈ hd.sent) (htype : reply.type = .UPLOAD_COMMIT) :
    ∃ a w₁ t, Quiet w w₁ ∧ UploadOutcome env a w₁ (.ok (.success t)) hd.world ∧
      reply.body = t.id.value := by
  rcases h.reply_cases hreply with ⟨hne, -⟩ | ⟨a, w₁, t, hq, hup, -, hbody⟩ | ⟨_, _, -, hdata, -⟩
  · exact absurd htype hne
  · exact ⟨a, w₁, t, hq, hup, hbody⟩
  · exact absurd (hdata.symm.trans htype) (by decide)

/-- The reply to a commit carries the third id that its upload draws. -/
theorem Served.handedOut {s s' : ServerState} {ev : ServerEvent} {out : Output}
    (h : Served env s ev out s') {reply : Frame} (hreply : reply ∈ out.sent)
    (htype : reply.type = .UPLOAD_COMMIT) :
    reply.body = idText env (s.world.ids + 2) ∧ s'.world.ids = s.world.ids + 3 := by
  rcases h.output with rfl | ⟨f, c, r, hd, rfl, -, handled, rfl, hworld⟩
  · cases hreply
  obtain ⟨a, w₁, t, hq, hup, hbody⟩ := handled.uploadCommit hreply htype
  cases hup with
  | refused failed => exact absurd rfl (failed t)
  | stored _ _ _ _ ids _ result =>
      -- an upload that throws after it stored the file is not answered with its id
      rcases result with result | ⟨e, hbad, -⟩
      · cases result
        rw [hbody, hworld, ids]
        show idText env (w₁.ids + 2) = _ ∧ _
        rw [hq.ids]
        exact ⟨rfl, rfl⟩
      · cases hbad

/-! ## Every run -/

/-- A commit was answered with this identifier. -/
def HandedOut (h : List ServerTransition) (x : Bytes) : Prop :=
  ∃ t ∈ h, ∃ reply ∈ t.output.sent, reply.type = .UPLOAD_COMMIT ∧ reply.body = x

/-- The event adds at most one record, under an id that no identifier handed out so far is. -/
theorem NoFile.served {s s' : ServerState} {ev : ServerEvent} {out : Output} {x : Bytes}
    (hx : NoFile env s.world x) (h : Served env s ev out s') (hfresh : FreshIds env s'.world.ids) :
    NoFile env s'.world x := by
  obtain ⟨⟨i, hi, rfl⟩, hfiles⟩ := hx
  refine ⟨⟨i, hi.trans_le h.ids_le, rfl⟩, fun r hr => ?_⟩
  rcases h.new_record hr with hold | ⟨hid, hlt⟩
  · exact hfiles r hold
  · -- the new record has an id drawn later than `x`
    rw [hid]
    exact (hfresh.idText_ne hlt hi).symm

theorem FilesNamed.served {s s' : ServerState} {ev : ServerEvent} {out : Output}
    (hs : FilesNamed env s.world) (h : Served env s ev out s') : FilesNamed env s'.world := by
  intro r hr
  rcases h.new_record hr with hold | ⟨hid, hlt⟩
  · obtain ⟨i, hi, hid⟩ := hs r hold
    exact ⟨i, hi.trans_le h.ids_le, hid⟩
  · exact ⟨_, hlt, hid⟩

/-- A new identifier is that of no file, old or new. -/
theorem FilesNamed.handedOut {s s' : ServerState} {ev : ServerEvent} {out : Output} {reply : Frame}
    (hs : FilesNamed env s.world) (h : Served env s ev out s') (hfresh : FreshIds env s'.world.ids)
    (hreply : reply ∈ out.sent) (htype : reply.type = .UPLOAD_COMMIT) :
    NoFile env s'.world reply.body := by
  obtain ⟨hbody, hids⟩ := h.handedOut hreply htype
  have hlast : s.world.ids + 2 < s'.world.ids := by omega
  rw [hbody]
  refine ⟨⟨_, hlast, rfl⟩, fun r hr => ?_⟩
  -- neither the older files nor the file of this very commit have the third id
  rcases h.new_record hr with hold | ⟨hid, -⟩
  · obtain ⟨i, hi, hid⟩ := hs r hold
    rw [hid]
    exact hfresh.idText_ne hlast (by omega)
  · rw [hid]
    exact hfresh.idText_ne hlast (by omega)

theorem noFile_of_handedOut (env : Env) (evs : List ServerEvent)
    (hfresh : FreshIds env (serverAfter env evs).world.ids) :
    FilesNamed env (serverAfter env evs).world ∧
      ∀ x, HandedOut (serverTrace env evs) x → NoFile env (serverAfter env evs).world x := by
  revert hfresh
  refine server_induction env (P := fun h s => FreshIds env s.world.ids →
    FilesNamed env s.world ∧ ∀ x, HandedOut h x → NoFile env s.world x) ?_ ?_ evs
  · intro _
    refine ⟨fun r hr => ?_, fun x hx => ?_⟩
    · rw [show Backend.sqlite.records ServerState.initial.world.files = [] from
        Backend.sqlite.fileView.records_empty] at hr
      cases hr
    · obtain ⟨t, ht, -⟩ := hx
      cases ht
  · intro evs ev ih hfresh
    have hserved := serverNext_served env evs ev
    obtain ⟨hnamed, hhanded⟩ := ih (hfresh.mono hserved.ids_le)
    refine ⟨hnamed.served hserved, fun x hx => ?_⟩
    obtain ⟨t, ht, reply, hreply, htype, rfl⟩ := hx
    rcases List.mem_append.1 ht with hold | hnew
    · -- handed out earlier: the new file has a new id
      exact (hhanded _ ⟨t, hold, reply, hreply, htype, rfl⟩).served hserved hfresh
    · obtain rfl := List.mem_singleton.1 hnew
      exact hnamed.handedOut hserved hfresh hreply htype

/-- The file of a valid request is not there, and no call throws: the download fails. -/
theorem download_notFound {sess : SessionId} {fid : FileId}
    (hvalid : w.sessions.isValid sess (env.clock w.clockReads) = true)
    (hfile : Backend.sqlite.files.findById w.files fid = none)
    (hok : ∀ c i, i < 3 → env.fault c (w.calls + i) = none) :
    wp (download env sess fid) (fun r _ => r = .ok (.failure (ascii "not found"))) w := by
  obtain ⟨s, hs, -⟩ := MemorySessionStore.isValid_iff.1 hvalid
  have nofault : ∀ {c e} (i : Nat), i < 3 → env.fault c (w.calls + i) = some e → False := by
    intro c e i hi h
    rw [hok c i hi] at h
    cases h
  unfold download
  rw [wp_bind, nowMs, wp_modifyGet, wpBind_ok, wp_bind]
  refine wp_query (fun e h => (nofault 0 (by decide) h).elim) ?_
  show wpBind _ _ (.ok (w.sessions.isValid sess (env.clock w.clockReads))) _
  rw [hvalid, wpBind_ok]
  refine wp_ite (fun h => absurd h (by simp)) fun _ => ?_
  rw [wp_bind]
  refine wp_query (fun e h => (nofault 1 (by decide) h).elim) ?_
  show wpBind _ _ (w.sessions.userFor sess) _
  rw [MemorySessionStore.userFor_eq_ok hs, wpBind_ok, wp_bind]
  refine wp_query (fun e h => (nofault 2 (by decide) h).elim) ?_
  show wpBind _ _ (.ok (Backend.sqlite.files.findById w.files fid)) _
  rw [hfile, wpBind_ok]
  exact wp_return rfl

/-- A request for the identifier that the commit in transition `t` was answered with, made after
the events by the sender or the recipient of the file `fr` that the commit stored from the bytes
of `a`. -/
structure WireRequest (env : Env) (evs : List ServerEvent) (t : ServerTransition) (a : UploadArgs)
    (fr : FileRecord) (f : Frame) (c : Conn) (req : DownloadReq) : Prop where
  commit : t ∈ serverTrace env evs
  bytes : t.output.uploads = [a]
  record : Creates ServerState.world t fr
  handed : ∃ reply ∈ t.output.sent, reply.type = .UPLOAD_COMMIT ∧ reply.body = req.fileId
  phase : (serverAfter env evs).phase = .serving c
  type : f.type = .DOWNLOAD_REQ
  decoded : decodeDownloadReq f.body = .ok req
  session : Authorised env (serverAfter env evs).world (c.effectiveToken req) fr

/-- The request is answered with the bytes. -/
def AnsweredWith (env : Env) (evs : List ServerEvent) (f : Frame) (data : Bytes) : Prop :=
  ∃ reply ∈ (serverNext env evs (.frame f)).output.sent,
    reply.type = .DOWNLOAD_DATA ∧ reply.body = data

theorem WireRequest.not_found {evs : List ServerEvent} {t : ServerTransition} {a : UploadArgs}
    {fr : FileRecord} {req : DownloadReq} (h : WireRequest env evs t a fr f c req)
    (hfresh : FreshIds env (serverAfter env evs).world.ids) :
    Backend.sqlite.files.findById (serverAfter env evs).world.files ⟨req.fileId⟩ = none := by
  obtain ⟨reply, hreply, htype, hbody⟩ := h.handed
  have hx : HandedOut (serverTrace env evs) req.fileId := ⟨t, h.commit, reply, hreply, htype, hbody⟩
  obtain ⟨⟨i, -, hi⟩, hfiles⟩ := (noFile_of_handedOut env evs hfresh).2 _ hx
  -- a generated id has no zero byte, so the column compares it as a whole
  rw [Option.eq_none_iff_forall_ne_some]
  intro r hr
  obtain ⟨hmem, hid⟩ := Backend.sqlite.fileView.findById_iff.1 hr
  refine hfiles r hmem ?_
  rw [hid, hi]
  exact text_idText env i

/-- In no run does the identifier of a commit reply download anything: the request is answered with
`ERR`, and with `not found` if none of its calls throws. -/
theorem commit_reply_names_no_file (env : Env) (evs : List ServerEvent) (t : ServerTransition)
    (a : UploadArgs) (fr : FileRecord) (f : Frame) (c : Conn) (req : DownloadReq)
    (hfresh : FreshIds env (serverAfter env evs).world.ids)
    (hreq : WireRequest env evs t a fr f c req) :
    ¬ AnsweredWith env evs f a.opaqueBytes ∧
      ((∀ call i, i < 3 → env.fault call ((serverAfter env evs).world.calls + i) = none) →
        (serverNext env evs (.frame f)).output.sent = [errReply f (ascii "not found")]) := by
  have hnone := hreq.not_found hfresh
  constructor
  · rintro ⟨reply, hreply, htype, -⟩
    rcases (serverNext_served env evs (.frame f)).output with
      hout | ⟨f', c', r, hd, hframe, hphase, handled, hout, -⟩
    · rw [hout] at hreply
      cases hreply
    · cases hframe
      rw [hout] at hreply
      -- a reply with data would mean that the identifier was found
      obtain ⟨req', fr', hauth, -⟩ := handled.downloadData hreply htype
      obtain rfl : req' = req := Except.ok.inj (hauth.decoded.symm.trans hreq.decoded)
      have hfound := hauth.record
      rw [hnone] at hfound
      cases hfound
  · intro hok
    obtain ⟨s, hs, hvalid, -⟩ := hreq.session.session
    have hhandled : wp (handleFrame env f)
        (fun r hd => r = .ok () ∧ hd.sent = [errReply f (ascii "not found")])
        { world := (serverAfter env evs).world, conn := c } :=
      handleFrame_of_download hreq.type hreq.decoded
        (download_notFound (MemorySessionStore.isValid_iff.2 ⟨s, hs, hvalid⟩) hnone hok)
    obtain ⟨hd, hsent, hstep⟩ := serverStep_of_handled env hreq.phase hhandled
    rw [serverNext_output, hstep]
    exact hsent

/-! ## The run of `sampleEvents` -/

/-- The transition of the commit at the end of `sampleEvents`. -/
def sampleCommit : ServerTransition :=
  serverNext Env.counting sampleEvents.dropLast
    (.frame { type := .UPLOAD_COMMIT, requestId := 6, body := [] })

theorem sampleEvents_eq_concat : sampleEvents =
    sampleEvents.dropLast ++ [.frame { type := .UPLOAD_COMMIT, requestId := 6, body := [] }] := rfl

theorem sampleCommit_mem : sampleCommit ∈ serverTrace Env.counting sampleEvents := by
  rw [sampleEvents_eq_concat, serverTrace_concat]
  exact List.mem_append_right _ (List.mem_singleton_self _)

theorem sampleCommit_after : sampleCommit.after = serverAfter Env.counting sampleEvents := by
  rw [sampleEvents_eq_concat, serverAfter_concat]
  rfl

/-- The sender asks for the identifier in the reply to its commit. -/
def wireRequest : DownloadReq := ⟨idText Env.counting 4, []⟩

def wireRequestFrame : Frame where
  type := .DOWNLOAD_REQ
  requestId := 7
  body := encodeDownloadReq wireRequest

set_option maxRecDepth 100000 in
theorem sampleCommit_output :
    sampleCommit.output.sent =
      [{ type := .UPLOAD_COMMIT, requestId := 6, body := wireRequest.fileId }] ∧
    sampleCommit.output.uploads.map UploadArgs.opaqueBytes = [[1, 2, 3]] ∧
    (Backend.sqlite.records sampleCommit.before.world.files).isEmpty := by
  decide +kernel

set_option maxRecDepth 100000 in
theorem sampleEvents_after :
    (serverAfter Env.counting sampleEvents).world.ids = 5 ∧
    (serverAfter Env.counting sampleEvents).phase.conn.any (fun c =>
      (Backend.sqlite.records (serverAfter Env.counting sampleEvents).world.files).any fun fr =>
        ((serverAfter Env.counting sampleEvents).world.sessions.findByToken
          (c.effectiveToken wireRequest)).any fun s =>
            s.isValid
                (Env.counting.clock (serverAfter Env.counting sampleEvents).world.clockReads) &&
              decide (fr.owner = s.userId)) = true := by
  decide +kernel

theorem wireRequest_sampleEvents : ∃ a fr c,
    WireRequest Env.counting sampleEvents sampleCommit a fr wireRequestFrame c wireRequest ∧
      a.opaqueBytes = [1, 2, 3] := by
  obtain ⟨hsent, hbytes, hbefore⟩ := sampleCommit_output
  obtain ⟨a, huploads, ha⟩ := List.map_eq_singleton_iff.1 hbytes
  obtain ⟨c, hconn, hrecords⟩ := (Option.any_eq_true _ _).1 sampleEvents_after.2
  obtain ⟨fr, hfr, hsession⟩ := List.any_eq_true.1 hrecords
  obtain ⟨s, hs, hvalid⟩ := (Option.any_eq_true _ _).1 hsession
  rw [Bool.and_eq_true, decide_eq_true_eq] at hvalid
  refine ⟨a, fr, c, ?_, ha⟩
  exact
    { commit := sampleCommit_mem
      bytes := huploads
      record := by
        refine ⟨?_, by rw [sampleCommit_after]; exact hfr⟩
        rw [List.isEmpty_iff.1 hbefore]
        exact List.not_mem_nil
      handed := by
        rw [hsent]
        exact ⟨_, List.mem_singleton_self _, rfl, rfl⟩
      phase := Phase.conn_eq_some hconn
      type := rfl
      decoded := by decide +kernel
      session := ⟨s, hs, hvalid.1, .inl hvalid.2⟩ }

theorem freshIds_sampleEvents :
    FreshIds Env.counting (serverAfter Env.counting sampleEvents).world.ids := by
  rw [sampleEvents_after.1]
  unfold FreshIds
  decide +kernel

/-- The sender asks for what the server called its upload, and is told that there is no such
file. -/
theorem commit_reply_not_found : ∃ a fr c,
    WireRequest Env.counting sampleEvents sampleCommit a fr wireRequestFrame c wireRequest ∧
      FreshIds Env.counting (serverAfter Env.counting sampleEvents).world.ids ∧
      (∀ call n, Env.counting.fault call n = none) ∧
      ¬ AnsweredWith Env.counting sampleEvents wireRequestFrame a.opaqueBytes := by
  obtain ⟨a, fr, c, hreq, -⟩ := wireRequest_sampleEvents
  refine ⟨a, fr, c, hreq, freshIds_sampleEvents, fun _ _ => rfl, ?_⟩
  have hsent : (serverNext Env.counting sampleEvents (.frame wireRequestFrame)).output.sent =
      [{ type := .ERR, requestId := 7, body := ascii "not found" }] := by
    set_option maxRecDepth 100000 in decide +kernel
  rintro ⟨reply, hreply, htype, -⟩
  rw [hsent] at hreply
  obtain rfl := List.mem_singleton.1 hreply
  cases htype

theorem commit_reply_names_no_file_sampleEvents : ∃ a,
    a ∈ sampleCommit.output.uploads ∧ a.opaqueBytes = [1, 2, 3] ∧
      ¬ AnsweredWith Env.counting sampleEvents wireRequestFrame a.opaqueBytes ∧
      ((∀ call i, i < 3 → Env.counting.fault call
          ((serverAfter Env.counting sampleEvents).world.calls + i) = none) →
        (serverNext Env.counting sampleEvents (.frame wireRequestFrame)).output.sent =
          [errReply wireRequestFrame (ascii "not found")]) := by
  obtain ⟨a, fr, c, hreq, ha⟩ := wireRequest_sampleEvents
  refine ⟨a, ?_, ha, ?_⟩
  · rw [hreq.bytes]
    exact List.mem_singleton_self a
  · exact commit_reply_names_no_file _ _ _ _ _ _ _ _ freshIds_sampleEvents hreq

end SecureFileTransfer
