import SecureFileTransfer.Download
import SecureFileTransfer.FrameStream
import SecureFileTransfer.ProtocolProofs

/-!
# ReplyLimit — replies the peer can receive

`recvFrame` refuses a length field above 4 MiB, and `sendFrame` does not look at it.  Chunks within
the limit make up files beyond it, and a user name that just fits a request does not fit the
sentence that confirms it.  As long as neither happens, every reply arrives.
-/

namespace SecureFileTransfer

open Prog Service Handler Runs AsioTlsTransport Reassembly

variable {env : Env} {f : Frame} {w w' : World .sqlite} {c : Conn} {t : ServerTransition}

/-! ## Frames that arrive -/

/-- The length field is in range, and the peer's next `recvFrame` returns the frame, however its
encoding and what follows it are cut into reads. -/
structure Deliverable (f : Frame) : Prop where
  length : ∃ len, get32be (encodeFrame f) 0 = some len ∧ 5 ≤ len.toNat ∧
    len.toNat ≤ 4 * 1024 * 1024
  received : ∀ reads rest, Bounded maxRead reads → reads.flatten = encodeFrame f ++ rest →
    ∃ rx, recvFrame ⟨[], reads⟩ = (.got f, rx) ∧ rx.pending = rest

theorem deliverable_of_le (hf : f.body.length ≤ maxBody) : Deliverable f where
  length := by
    refine ⟨UInt32.ofNat (f.type.code :: put32be f.requestId ++ f.body).length,
      get32be_eq_some_iff.2 ?_, ?_⟩
    · rw [List.drop_zero, encodeFrame]
      exact List.prefix_append _ _
    · rw [length_word hf]
      simp only [maxBody] at hf
      omega
  received := by
    intro reads rest hreads hcut
    have hitem : poll ([] ++ reads.flatten) = .item f (encodeFrame f).length := by
      rw [List.nil_append, hcut]
      exact poll_encodeFrame hf rest
    obtain ⟨rx, hrecv, hpend, -⟩ := recv_item poll_stable reads [] (fun r hr => (hreads r hr).1) hitem
    refine ⟨rx, hrecv, ?_⟩
    rw [hpend, List.nil_append, hcut, List.drop_left]

/-- A frame arrives exactly when its body is within the limit. -/
theorem deliverable_iff : Deliverable f ↔ f.body.length ≤ maxBody := by
  refine ⟨fun h => ?_, deliverable_of_le⟩
  have hreads : Bounded maxRead (singles (encodeFrame f)) := bounded_singles (by decide) _
  obtain ⟨rx, hrecv, -⟩ := h.received _ [] hreads (by simp)
  have hne : ∀ r ∈ singles (encodeFrame f), r ≠ [] := fun r hr => (hreads r hr).1
  -- what one call makes of the whole encoding
  cases hpoll : poll ([] ++ (singles (encodeFrame f)).flatten) with
  | item g n =>
      obtain ⟨rx', hrecv', -⟩ := recv_item poll_stable _ [] hne hpoll
      obtain rfl : g = f := by
        have heq := hrecv'.symm.trans hrecv
        exact Outcome.got.inj (congrArg Prod.fst heq)
      exact (poll_item_iff.1 hpoll).1
  | needMore =>
      have heq := (recv_needMore poll_stable _ [] hne hpoll).symm.trans hrecv
      cases congrArg Prod.fst heq
  | reject =>
      obtain ⟨q, reads', hrecv', -⟩ := recv_reject poll_stable _ [] hreads (by decide) hpoll
      cases congrArg Prod.fst (hrecv'.symm.trans hrecv)
  | fault => exact absurd hpoll (poll_ne_fault _)

/-! ## Replies within the limit -/

/-- The checks on an upload before its bytes are stored, as they stand when the commit arrives. -/
structure Committable (env : Env) (w : World .sqlite) (c : Conn) (init : UploadInit) (data : Bytes) :
    Prop where
  token : c.connToken ≠ []
  valid : w.sessions.isValid ⟨c.connToken⟩ (env.clock w.clockReads) = true
  recipient : ∃ u, Backend.sqlite.users.findByUsername w.users init.recipient = .ok (some u)
  validated : PdfFileValidator.validate init.origName init.size (uploadHeader init.origName data) =
    .ok ()
  uploadId : init.uploadId ≠ []

/-- The sentences that confirm a registration or an administration fit, and so does an upload that
is about to be stored. -/
structure RepliesFit (env : Env) (t : ServerTransition) : Prop where
  register : ∀ f c pl, t.input = .frame f → t.before.phase = .serving c → f.type = .REGISTER →
    decodeRegister f.body = .ok pl → pl.username ≠ [] → pl.email ≠ [] → 8 ≤ pl.password.length →
    (ascii "Registration succeeded for " ++ pl.username).length ≤ maxBody
  admin : ∀ f c pl, t.input = .frame f → t.before.phase = .serving c →
    f.type = .ADMIN_ACTIVATE ∨ f.type = .ADMIN_DEACTIVATE → decodeAdmin f.body = .ok pl →
    t.before.world.sessions.isValid ⟨pl.token⟩ (env.clock t.before.world.clockReads) = true →
    (adminMessage f.type pl.targetId).length ≤ maxBody
  commit : ∀ f c init data, t.input = .frame f → t.before.phase = .serving c →
    f.type = .UPLOAD_COMMIT → c.pendingInit.lookup (c.resolve f.body) = some init →
    c.pendingData.lookup (c.resolve f.body) = some data →
    Committable env t.before.world c init data → data.length ≤ maxBody

/-- Blobs are within the limit, and records name them shortly. -/
structure Small (w : World .sqlite) : Prop where
  blobs : ∀ k o, w.blobs.lookup k = some o → o.length ≤ maxBody
  names : ∀ fr ∈ Backend.sqlite.records w.files, fr.storageId.length = 40

theorem small_empty : Small (World.empty .sqlite) where
  blobs k o h := by cases h
  names fr h := by cases h

theorem Small.kept (hs : Small w) (h : Kept w w') : Small w' where
  blobs := by
    rw [h.blobs]
    exact hs.blobs
  names := by
    rw [h.files]
    exact hs.names

theorem Small.upload {a : UploadArgs} {res : Except Exn (Result Transfer)} (hs : Small w)
    (h : UploadOutcome env a w res w')
    (hdata : ∀ senderId recipientId, Admitted env a w senderId recipientId →
      a.opaqueBytes.length ≤ maxBody) : Small w' := by
  have staged : a.opaqueBytes.length ≤ maxBody → ∀ k o,
      (MemoryStorage.stagedWrite (uploadStorageId env w) a.opaqueBytes w.blobs).lookup k = some o →
      o.length ≤ maxBody := by
    intro hle k o ho
    rw [MemoryStorage.stagedWrite, Table.lookup_insert_eq] at ho
    split at ho
    · cases ho
      exact hle
    · exact hs.blobs k o ho
  cases h with
  | refused _ _ stores later => exact hs.kept (.of_stores stores later.ids)
  | withdrawn stores _ _ =>
      refine ⟨fun k o ho => ?_, by rw [stores]; exact hs.names⟩
      rw [stores] at ho
      change (((w.blobs.insert _ _).erase _).erase _).lookup k = some o at ho
      rw [Table.lookup_erase_eq, Table.lookup_erase_eq, Table.lookup_insert_eq] at ho
      split at ho
      · cases ho
      split at ho
      · cases ho
      exact hs.blobs k o ho
  | orphaned stores _ _ _ admitted =>
      refine ⟨?_, by rw [stores]; exact hs.names⟩
      rw [stores]
      exact staged (hdata _ _ admitted)
  | stored admitted write _ stores ids _ _ =>
      have hst := stored_of_outcome admitted write stores ids
      refine ⟨?_, fun fr hfr => ?_⟩
      · rw [stores]
        exact staged (hdata _ _ admitted)
      · rcases (hst.records fr).1 hfr with hold | rfl
        · exact hs.names fr hold
        · rw [hst.storageId]
          exact (storageName_uploadStorageId le_rfl : StorageName env (w.ids + 2) _).length_eq

/-- A text that a refused download is answered with. -/
theorem DownloadError.short {fid : FileId} {text : Bytes} (h : DownloadError env fid w text)
    (hs : Small w) (hread : ∀ n e, env.fault .read n = some e → e.what.length ≤ maxBody) :
    text.length ≤ maxBody := by
  cases h with
  | notFound => decide
  | denied => decide
  | missing found =>
      have hname := hs.names _ (mem_records_of_findById found)
      show (ascii "missing blob: " ++ _).length ≤ maxBody
      rw [List.length_append, hname]
      decide
  | threw fault => exact hread _ _ fault

theorem registerUser_fields (u email pw role : Bytes) :
    wp (registerUser env u email pw role) (fun r (_ : World .sqlite) => ∀ id,
      r = .ok (.success id) → u ≠ [] ∧ email ≠ [] ∧ 8 ≤ pw.length) w := by
  unfold registerUser
  refine wp_ite (fun _ id h => by cases h) fun hfields _ _ => ?_
  simpa only [not_or, Nat.not_lt] using hfields

theorem adminAction_valid {type : MsgType} {token : SessionId} {tgt id : UserId}
    (h : adminAction env type token tgt w = (.ok (.success id), w')) :
    w.sessions.isValid token (env.clock w.clockReads) = true := by
  have success : ¬ Failed (.ok (.success id) : Except Exn (Result UserId)) := fun hf => hf id rfl
  unfold adminAction at h
  split at h
  · exact (of_wp (activate_spec _ _) h).2 success
  · exact (of_wp (deactivate_spec _ _) h).2 success

theorem UploadOutcome.reply_short {a : UploadArgs} {res : Except Exn (Result Transfer)}
    (h : UploadOutcome env a w res w') : (commitReply f res).body.length ≤ 36 := by
  have ofError : ∀ e, (commitReply f (.error e)).body.length ≤ 36 := fun e => Nat.zero_le _
  cases h with
  | refused failed text _ _ =>
      rcases res with e | ⟨t | text'⟩
      · exact ofError e
      · exact absurd rfl (failed t)
      · rw [text text' rfl]
        exact (by decide : (ascii "duplicate upload_id").length ≤ 36)
  | withdrawn => exact ofError _
  | orphaned => exact ofError _
  | stored _ _ _ _ _ _ result =>
      rcases result with rfl | ⟨e, rfl, -⟩
      · exact (length_generateUserId _).le
      · exact ofError e

theorem LoginOutcome.reply_short {u pw : Bytes} {r : Except Exn (Result SessionId)}
    (h : LoginOutcome env u pw w r w') : (authReply f r).body.length ≤ 69 := by
  have ofFailed : Failed r → (authReply f r).body.length ≤ 69 := by
    intro failed
    rcases r with e | ⟨token | text⟩
    · exact Nat.zero_le _
    · exact absurd rfl (failed token)
    · exact (by decide : (ascii "Login failed").length ≤ 69)
  cases h with
  | refused failed _ _ => exact ofFailed failed
  | counted failed _ _ _ _ => exact ofFailed failed
  | opened _ _ _ _ _ _ _ result =>
      rcases result with rfl | ⟨e, rfl, -⟩
      · exact (length_sessionToken _).le
      · exact ofFailed (failed_error e)

/-- Every reply to a frame is within the limit. -/
theorem Handled.replies_le {r : Except Exn Unit} {hd : Handling} (hinput : t.input = .frame f)
    (hphase : t.before.phase = .serving c) (handled : Handled env f t.before.world c r hd)
    (hs : Small t.before.world) (hfit : RepliesFit env t)
    (hread : ∀ n e, env.fault .read n = some e → e.what.length ≤ maxBody) :
    ∀ reply ∈ hd.sent, reply.body.length ≤ maxBody := by
  intro reply hreply
  cases handled with
  | @refused _ text _ short =>
      obtain rfl := List.mem_singleton.1 hreply
      exact short.trans (by decide)
  | listed =>
      obtain rfl := List.mem_singleton.1 hreply
      exact Nat.zero_le _
  | @registered pl res w' type decoded run =>
      obtain rfl := List.mem_singleton.1 hreply
      rcases res with e | ⟨id | text⟩
      · exact Nat.zero_le _
      · obtain ⟨hname, hmail, hpass⟩ := of_wp (registerUser_fields _ _ _ _) run id rfl
        exact hfit.register f c pl hinput hphase type decoded hname hmail hpass
      · exact (by decide : (ascii "Registration failed").length ≤ maxBody)
  | authenticated _ _ run =>
      obtain rfl := List.mem_singleton.1 hreply
      exact (of_wp (login_spec _ _) run).reply_short.trans (by decide)
  | @loggedOut ok _ _ _ =>
      obtain rfl := List.mem_singleton.1 hreply
      cases ok with
      | true => exact (by decide : (ascii "Logged out").length ≤ maxBody)
      | false => exact (by decide : (ascii "Logout failed").length ≤ maxBody)
  | logoutThrew _ _ => cases hreply
  | @administered pl res w' type decoded run =>
      obtain rfl := List.mem_singleton.1 hreply
      rcases res with e | ⟨id | text⟩
      · exact Nat.zero_le _
      · exact hfit.admin f c pl hinput hphase type decoded (adminAction_valid run)
      · exact (by decide : (ascii "Admin denied").length ≤ maxBody)
  | announced _ _ _ _ _ =>
      obtain rfl := List.mem_singleton.1 hreply
      exact (by decide : (ascii "ok").length ≤ maxBody)
  | appended _ _ _ _ =>
      obtain rfl := List.mem_singleton.1 hreply
      exact (by decide : (ascii "ok").length ≤ maxBody)
  | committed _ _ _ _ _ _ run =>
      obtain rfl := List.mem_singleton.1 hreply
      exact (of_wp (upload_spec _) run).reply_short.trans (by decide)
  | @downloaded req res w' type decoded run =>
      obtain rfl := List.mem_singleton.1 hreply
      have hout := of_wp (download_spec _ _) run
      rcases res with e | ⟨o | text⟩
      · exact Nat.zero_le _
      · obtain ⟨fr, -, -, hblob⟩ := hout.success o rfl
        exact hs.blobs _ _ hblob
      · exact (hout.failure text rfl).short hs hread

/-- The stores after a frame. -/
theorem Handled.small {r : Except Exn Unit} {hd : Handling} (hinput : t.input = .frame f)
    (hphase : t.before.phase = .serving c) (handled : Handled env f t.before.world c r hd)
    (hs : Small t.before.world) (hfit : RepliesFit env t) : Small hd.world := by
  rcases handled.stores with ⟨hk, -⟩ | ⟨a, -, -, ha, -, -⟩
  · exact hs.kept hk
  cases handled with
  | @committed init data w₁ res w' type pendingInit pendingData token valid quiet run =>
      refine (hs.kept quiet.kept).upload (of_wp (upload_spec _) run) fun _ _ hadm => ?_
      refine hfit.commit f c init data hinput hphase type pendingInit pendingData
        ⟨token, valid, ?_, hadm.validated, hadm.uploadId⟩
      obtain ⟨u, hu, -⟩ := hadm.recipient
      rw [quiet.stores] at hu
      exact ⟨u, hu⟩
  | _ => cases ha

/-! ## Every run -/

theorem Served.small {s s' : ServerState} {ev : ServerEvent} {out : Output}
    (served : Served env s ev out s') (hs : Small s.world)
    (hfit : RepliesFit env ⟨s, ev, out, s'⟩) : Small s'.world := by
  rcases served.output with hout | ⟨f, c, r, hd, rfl, hphase, handled, -, hworld⟩
  · rcases served.stores with ⟨hk, -⟩ | ⟨a, -, -, ha, -, -⟩
    · exact hs.kept hk
    · rw [hout] at ha
      cases ha
  · rw [hworld]
    exact handled.small (t := ⟨s, .frame f, out, s'⟩) rfl hphase hs hfit

theorem Served.replies_le {s s' : ServerState} {ev : ServerEvent} {out : Output}
    (served : Served env s ev out s') (hs : Small s.world) (hfit : RepliesFit env ⟨s, ev, out, s'⟩)
    (hread : ∀ n e, env.fault .read n = some e → e.what.length ≤ maxBody) :
    ∀ reply ∈ out.sent, reply.body.length ≤ maxBody := by
  rcases served.output with rfl | ⟨f, c, r, hd, rfl, hphase, handled, rfl, -⟩
  · intro reply hreply
    cases hreply
  · exact handled.replies_le (t := ⟨s, .frame f, _, s'⟩) rfl hphase hs hfit hread

/-- In a run whose confirmations and committed uploads fit, every reply reaches the peer, and so
does every stored file. -/
theorem replies_deliverable_of_run (env : Env) (evs : List ServerEvent)
    (hread : ∀ n e, env.fault .read n = some e → e.what.length ≤ maxBody)
    (hfit : ∀ t ∈ serverTrace env evs, RepliesFit env t) :
    (∀ t ∈ serverTrace env evs, ∀ reply ∈ t.output.sent, Deliverable reply) ∧
      ∀ fr ∈ Backend.sqlite.records (serverAfter env evs).world.files,
        ∀ o, (serverAfter env evs).world.blobs.lookup fr.storageId = some o →
          ∀ requestId, Deliverable { type := .DOWNLOAD_DATA, requestId := requestId, body := o } := by
  have run := server_induction env
    (P := fun h s => (∀ t ∈ h, RepliesFit env t) →
      (∀ t ∈ h, ∀ reply ∈ t.output.sent, Deliverable reply) ∧ Small s.world)
    (fun _ => ⟨fun t ht => (by cases ht), small_empty⟩) ?_ evs
  · obtain ⟨hsent, hsmall⟩ := run hfit
    exact ⟨hsent, fun fr _ o ho _ => deliverable_of_le (hsmall.blobs _ o ho)⟩
  intro evs ev ih hfit
  obtain ⟨hsent, hsmall⟩ := ih fun t ht => hfit t (List.mem_append_left _ ht)
  have hnow := hfit (serverNext env evs ev) (List.mem_append_right _ (List.mem_singleton.2 rfl))
  have hserved := serverNext_served env evs ev
  refine ⟨fun t ht => ?_, hserved.small hsmall hnow⟩
  rcases List.mem_append.1 ht with hold | hnew
  · exact hsent t hold
  · obtain rfl := List.mem_singleton.1 hnew
    exact fun reply hreply => deliverable_of_le (hserved.replies_le hsmall hnow hread reply hreply)

theorem length_adminMessage_le (type : MsgType) (targetId : Bytes) :
    (adminMessage type targetId).length ≤ 21 + targetId.length := by
  unfold adminMessage
  split
  · rw [List.length_append]
    exact Nat.add_le_add_right (by decide) _
  · rw [List.length_append]
    exact Nat.add_le_add_right (by decide) _

/-- A request that stays 15 bytes below the limit has room for its confirmation. -/
theorem repliesFit_of_length (hframe : ∀ f, t.input = .frame f → f.body.length + 15 ≤ maxBody)
    (hpending : ∀ c, t.before.phase = .serving c → ∀ x data, c.pendingData.lookup x = some data →
      data.length ≤ maxBody) : RepliesFit env t where
  register := by
    intro f c pl hinput _ _ hdec _ _ _
    obtain ⟨_, -, hpre, rfl⟩ := (PayloadKind.decode_ok_iff (k := .register)).1 hdec
    have hbody := hframe f hinput
    have hlen : (encodeRegister pl).length ≤ f.body.length := hpre.length_le
    have hprefix : (ascii "Registration succeeded for ").length = 27 := rfl
    simp only [encodeRegister, List.length_append, length_putBytesWithLen] at hlen
    show (ascii "Registration succeeded for " ++ pl.username).length ≤ maxBody
    rw [List.length_append, hprefix]
    omega
  admin := by
    intro f c pl hinput _ _ hdec _
    obtain ⟨_, -, hpre, rfl⟩ := (PayloadKind.decode_ok_iff (k := .admin)).1 hdec
    have hbody := hframe f hinput
    have hlen : (encodeAdmin pl).length ≤ f.body.length := hpre.length_le
    simp only [encodeAdmin, List.length_append, length_putBytesWithLen] at hlen
    refine (length_adminMessage_le _ _).trans ?_
    show 21 + pl.targetId.length ≤ maxBody
    omega
  commit := by
    intro f c init data _ hphase _ _ hdata _
    exact hpending c hphase _ data hdata

/-- The frame and the pending bytes stay below the limit. -/
def belowLimit (t : ServerTransition) : Bool :=
  (match t.input with
    | .frame f => decide (f.body.length + 15 ≤ maxBody)
    | _ => true) &&
  match t.before.phase with
  | .serving c => c.pendingData.entries.all fun entry => decide (entry.2.length ≤ maxBody)
  | _ => true

theorem repliesFit_of_belowLimit (h : belowLimit t = true) : RepliesFit env t := by
  simp only [belowLimit, Bool.and_eq_true] at h
  refine repliesFit_of_length (fun f hf => ?_) fun c hc x data hdata => ?_
  · rw [hf] at h
    exact of_decide_eq_true h.1
  · rw [hc] at h
    exact of_decide_eq_true (List.all_eq_true.1 h.2 ⟨x, data⟩ (AList.mem_lookup_iff.1 hdata))

set_option maxRecDepth 100000 in
theorem replies_deliverable_of_sampleEvents :
    (serverNext Env.counting sampleEvents (.frame sampleRequest)).output.sent =
      [{ type := .DOWNLOAD_DATA, requestId := 7, body := [1, 2, 3] }] ∧
    ∀ t ∈ serverTrace Env.counting (sampleEvents ++ [.frame sampleRequest]),
      ∀ reply ∈ t.output.sent, Deliverable reply := by
  have hbelow : (serverTrace Env.counting (sampleEvents ++ [.frame sampleRequest])).all
      belowLimit = true := by
    decide +kernel
  exact ⟨by decide +kernel, (replies_deliverable_of_run Env.counting _ (fun n e h => by cases h)
    fun t ht => repliesFit_of_belowLimit (List.all_eq_true.1 hbelow t ht)).1⟩

/-! ## A file that does not arrive -/

/-- A chunk of a pending upload at its place is appended. -/
theorem handleFrame_uploadData {data : UploadData} {sofar : Bytes} (htype : f.type = .UPLOAD_DATA)
    (hdec : decodeUploadData f.body = .ok data)
    (hpending : c.pendingData.lookup data.uploadId = some sofar)
    (hoff : data.offset.toNat = sofar.length) :
    wp (handleFrame env f)
      (fun r hd => r = .ok () ∧ hd = ⟨w, c.appended data sofar, [okReply f .UPLOAD_DATA], []⟩)
      { world := w, conn := c } := by
  rw [handleFrame_data htype]
  unfold handleUploadData
  rw [hdec]
  refine wp_guarded ?_
  rw [wp_bind, wp_outcome, wpBind_ok, wp_bind, conn, wp_ask, wpBind_ok]
  rw [hpending]
  refine wp_ite (fun h => absurd hoff h) fun _ => ?_
  exact ⟨rfl, rfl⟩

/-- The token of the connection is found valid. -/
theorem connTokenValid_of_valid {h : Handling} (hfault : ∀ n, env.fault .isValid n = none)
    (hvalid : h.world.sessions.isValid ⟨c.connToken⟩ (env.clock h.world.clockReads) = true) :
    connTokenValid env c h = (.ok true, { h with
      world := ({ h.world with clockReads := h.world.clockReads + 1 } : World .sqlite).tick }) := by
  have hcall : query env .isValid
      (fun w => .ok (w.sessions.isValid ⟨c.connToken⟩ (env.clock h.world.clockReads)))
      ({ h.world with clockReads := h.world.clockReads + 1 } : World .sqlite) =
        (.ok true, ({ h.world with clockReads := h.world.clockReads + 1 } : World .sqlite).tick) := by
    refine wp_query (Q := fun r w' => (r, w') = _) (fun e h => ?_) ?_
    · rw [hfault] at h
      cases h
    · exact congrArg (fun valid => (Except.ok valid, _)) hvalid
  exact congrArg (fun answer => (answer.1, { h with world := answer.2 })) hcall

/-- A commit of a pending upload in a valid session uploads it. -/
theorem handleFrame_uploadCommit {init : UploadInit} {data : Bytes} (htype : f.type = .UPLOAD_COMMIT)
    (hfault : ∀ n, env.fault .isValid n = none)
    (hinit : c.pendingInit.lookup (c.resolve f.body) = some init)
    (hdata : c.pendingData.lookup (c.resolve f.body) = some data) (htoken : c.connToken ≠ [])
    (hvalid : w.sessions.isValid ⟨c.connToken⟩ (env.clock w.clockReads) = true) :
    wp (handleFrame env f) (fun r hd => r = .ok () ∧ ∃ w₁ res, Quiet w w₁ ∧
      upload env (c.uploadArgs init data) w₁ = (res, hd.world) ∧
        hd.conn = c.committed (c.resolve f.body) res ∧ hd.sent = [commitReply f res] ∧
        hd.uploads = [c.uploadArgs init data]) { world := w, conn := c } := by
  rw [handleFrame_commit htype]
  refine wp_guarded ?_
  rw [wp_bind, conn, wp_ask, wpBind_ok]
  show wp (commitPending env f c (c.resolve f.body) (c.pendingInit.lookup (c.resolve f.body))
    (c.pendingData.lookup (c.resolve f.body))) _ _
  rw [hinit, hdata]
  refine wp_ite (fun h => absurd h htoken) fun _ => ?_
  have hclock : Quiet w { w with clockReads := w.clockReads + 1 } := ⟨⟨rfl, rfl, le_rfl⟩, rfl⟩
  have h₁ := hclock.tick
  generalize hw₁ : ({ w with clockReads := w.clockReads + 1 } : World .sqlite).tick = w₁ at h₁
  rw [wp_bind, wp, connTokenValid_of_valid hfault hvalid, hw₁]
  rw [wpBind_ok]
  refine wp_ite (fun _ => ?_) fun h => absurd rfl h
  unfold commitUpload transfersUpload
  rw [wp_bind, wp_bind, wp_modifyGet, wpBind_ok]
  show wpBind _ _ (upload env (c.uploadArgs init data) w₁).1
    (⟨(upload env (c.uploadArgs init data) w₁).2, c, [], [c.uploadArgs init data]⟩ : Handling)
  rcases hrun : upload env (c.uploadArgs init data) w₁ with ⟨res, w₂⟩
  rcases res with e | ⟨t | text⟩
  · exact ⟨rfl, w₁, _, h₁, hrun, rfl, rfl, rfl⟩
  · exact ⟨rfl, w₁, _, h₁, hrun, rfl, rfl, rfl⟩
  · exact ⟨rfl, w₁, _, h₁, hrun, rfl, rfl, rfl⟩


/-- The state after a chunk of a pending upload at its place. -/
theorem serverAfter_uploadData {evs : List ServerEvent} {data : UploadData} {sofar : Bytes}
    (hphase : (serverAfter env evs).phase = .serving c) (htype : f.type = .UPLOAD_DATA)
    (hdec : decodeUploadData f.body = .ok data)
    (hpending : c.pendingData.lookup data.uploadId = some sofar)
    (hoff : data.offset.toNat = sofar.length) : serverAfter env (evs ++ [.frame f]) =
      ⟨(serverAfter env evs).world, .serving (c.appended data sofar)⟩ := by
  obtain ⟨hd, rfl, hstep⟩ := serverStep_of_handled env hphase
    (handleFrame_uploadData htype hdec hpending hoff)
  rw [serverAfter_concat]
  exact congrArg Prod.snd hstep

/-- Half of a file one byte beyond the limit. -/
@[irreducible] def halfFile : Bytes := List.replicate 2097150 0

def largeInit : UploadInit where
  recipient := ascii "bob"
  origName := ascii "a.pdf"
  uploadId := ascii "u1"
  size := 4194300
  digest := zeroDigest
  wrapped := {}

/-- Two users register, and one of them logs in and announces the file to the other. -/
def announceLarge : List ServerEvent :=
  sampleEvents.take 6 ++
    [.frame { type := .UPLOAD_INIT, requestId := 4, body := encodeUploadInit largeInit }]

def sendHalf (offset : UInt64) : Frame where
  type := .UPLOAD_DATA
  requestId := 5
  body := encodeUploadData ⟨ascii "u1", offset, halfFile⟩

def commitLarge : Frame where
  type := .UPLOAD_COMMIT
  requestId := 6
  body := putBytesWithLen (ascii "u1")

def uploadLarge : List ServerEvent :=
  announceLarge ++ [.frame (sendHalf 0)] ++ [.frame (sendHalf 2097150)] ++ [.frame commitLarge]

theorem length_halfFile : halfFile.length = 2097150 := by
  unfold halfFile
  exact List.length_replicate ..

theorem decode_sendHalf (offset : UInt64) :
    decodeUploadData (sendHalf offset).body = .ok ⟨ascii "u1", offset, halfFile⟩ := by
  refine (PayloadKind.decode_ok_iff (k := .uploadData)).2 ⟨_, ⟨?_, ?_⟩, List.prefix_refl _, rfl⟩
  · exact (by decide : (ascii "u1").length < 2 ^ 32)
  · show halfFile.length < 2 ^ 32
    rw [length_halfFile]
    decide

/-- The file is pending, its sender is logged in, its recipient has a key, and nothing is stored. -/
structure LargePending (s : ServerState) (c : Conn) (sess : Session) (u : User) : Prop where
  phase : s.phase = .serving c
  pendingInit : c.pendingInit.lookup (ascii "u1") = some largeInit
  pendingData : c.pendingData.lookup (ascii "u1") = some []
  token : c.connToken ≠ []
  session : s.world.sessions.findByToken ⟨c.connToken⟩ = some sess
  valid : sess.isValid 0 = true
  recipient : Backend.sqlite.users.findByUsername s.world.users (ascii "bob") = .ok (some u)
  key : pubkeyExists .sqlite s.world.keys u.id = true
  files : SqliteFileRepository.rows s.world.files = []
  ids : s.world.ids = 2

theorem found_of_join {x : Except Exn (Option User)} {u : User} (h : x.toOption.join = some u) :
    x = .ok (some u) := by
  rcases x with e | found
  · cases h
  · exact congrArg Except.ok h

set_option maxRecDepth 100000 in
theorem largePending_announceLarge :
    ∃ c sess u, LargePending (serverAfter Env.counting announceLarge) c sess u := by
  have hcheck : ((serverAfter Env.counting announceLarge).phase.conn.any fun c =>
      ((serverAfter Env.counting announceLarge).world.sessions.findByToken ⟨c.connToken⟩).any
        fun sess => (Backend.sqlite.users.findByUsername
          (serverAfter Env.counting announceLarge).world.users (ascii "bob")).toOption.join.any
            fun u => decide (c.pendingInit.lookup (ascii "u1") = some largeInit ∧
              c.pendingData.lookup (ascii "u1") = some [] ∧ c.connToken ≠ [] ∧
              sess.isValid 0 = true ∧
              pubkeyExists .sqlite (serverAfter Env.counting announceLarge).world.keys u.id = true ∧
              (serverAfter Env.counting announceLarge).world.files.rows = [] ∧
              (serverAfter Env.counting announceLarge).world.ids = 2)) = true := by
    decide +kernel
  obtain ⟨c, hconn, hcheck⟩ := (Option.any_eq_true _ _).1 hcheck
  obtain ⟨sess, hsess, hcheck⟩ := (Option.any_eq_true _ _).1 hcheck
  obtain ⟨u, hu, hcheck⟩ := (Option.any_eq_true _ _).1 hcheck
  obtain ⟨hinit, hdata, htoken, hvalid, hkey, hfiles, hids⟩ := of_decide_eq_true hcheck
  exact ⟨c, sess, u, Phase.conn_eq_some hconn, hinit, hdata, htoken, hsess, hvalid,
    found_of_join hu, hkey, hfiles, hids⟩

/-- The conn with both halves. -/
def bothHalves (c : Conn) : Conn :=
  (c.appended ⟨ascii "u1", 0, halfFile⟩ []).appended ⟨ascii "u1", 2097150, halfFile⟩ halfFile

theorem serverAfter_bothHalves {c : Conn} {sess : Session} {u : User}
    (h : LargePending (serverAfter Env.counting announceLarge) c sess u) :
    serverAfter Env.counting
        (announceLarge ++ [.frame (sendHalf 0)] ++ [.frame (sendHalf 2097150)]) =
      ⟨(serverAfter Env.counting announceLarge).world, .serving (bothHalves c)⟩ := by
  have hfirst := serverAfter_uploadData (f := sendHalf 0) h.phase rfl (decode_sendHalf 0)
    h.pendingData rfl
  have hpending : (c.appended ⟨ascii "u1", 0, halfFile⟩ []).pendingData.lookup (ascii "u1") =
      some halfFile := AList.lookup_insert _
  have hsecond := serverAfter_uploadData (f := sendHalf 2097150) (by rw [hfirst]) rfl
    (decode_sendHalf _) hpending (by rw [length_halfFile]; decide)
  rw [hsecond, hfirst, bothHalves]

theorem save_of_rows_nil {files : SqliteFileRepository} (h : files.rows = []) (r : FileRecord) :
    ∃ files', files.save r = .ok files' := by
  unfold SqliteFileRepository.save
  refine ⟨_, dif_pos fun x hx => ?_⟩
  rw [h] at hx
  cases hx

/-- What the commit of the two halves hands over. -/
def largeArgs (c : Conn) : UploadArgs := (bothHalves c).uploadArgs largeInit (halfFile ++ halfFile)

theorem validate_largeArgs (c : Conn) :
    PdfFileValidator.validate (largeArgs c).origName (largeArgs c).size
      (uploadHeader (largeArgs c).origName (largeArgs c).opaqueBytes) = .ok () := by
  have hheader : uploadHeader (ascii "a.pdf") (halfFile ++ halfFile) = ascii "%PDF-1.4" := by
    have htake : (halfFile ++ halfFile).take 8 = List.replicate 8 0 := by
      unfold halfFile
      rw [List.replicate_append_replicate, List.take_replicate]
      rfl
    unfold uploadHeader
    rw [htake]
    decide
  show PdfFileValidator.validate (ascii "a.pdf") 4194300
    (uploadHeader (ascii "a.pdf") (halfFile ++ halfFile)) = .ok ()
  rw [hheader]
  decide

theorem upload_large {c : Conn} {sess : Session} {u : User} {s : ServerState} {w₁ w' : World .sqlite}
    {res : Except Exn (Result Transfer)} (h : LargePending s c sess u) (hq : Quiet s.world w₁)
    (hrun : upload Env.counting (largeArgs c) w₁ = (res, w')) :
    ∃ t, res = .ok (.success t) := by
  have hsess : w₁.sessions = s.world.sessions := congrArg Stores.sessions hq.stores
  have husers : w₁.users = s.world.users := congrArg Stores.users hq.stores
  have hkeys : w₁.keys = s.world.keys := congrArg Stores.keys hq.stores
  have hfiles : SqliteFileRepository.rows w₁.files = [] := by
    rw [hq.stores]
    exact h.files
  refine of_wp (upload_success (b := .sqlite) (w := w₁) (s := sess) (u := u) (fun _ _ => rfl) ?_
    h.valid ?_ ?_ (validate_largeArgs c) ?_ ?_ fun now => save_of_rows_nil hfiles _) hrun
  · rw [hsess]
    exact h.session
  · rw [husers]
    exact h.recipient
  · rw [hkeys]
    exact h.key
  · exact (by decide : ascii "u1" ≠ [])
  · show (SqliteFileRepository.rows w₁.files).any _ = false
    rw [hfiles]
    rfl

/-- After the commit the sender may ask for the file. -/
theorem authorised_uploadLarge : ∃ c req fr,
    (serverAfter Env.counting uploadLarge).phase = .serving c ∧
    AuthorisedRequest Env.counting sampleRequest (serverAfter Env.counting uploadLarge).world c req
      fr ∧
    (serverAfter Env.counting uploadLarge).world.blobs.lookup fr.storageId =
      some (halfFile ++ halfFile) := by
  obtain ⟨c, sess, u, h⟩ := largePending_announceLarge
  have hhalves := serverAfter_bothHalves h
  have hsound := sound_of_serverRun Env.counting announceLarge
  generalize hs₀ : serverAfter Env.counting announceLarge = s₀ at h hhalves hsound
  have hvalid : s₀.world.sessions.isValid ⟨c.connToken⟩ 0 = true :=
    MemorySessionStore.isValid_iff.2 ⟨sess, h.session, h.valid⟩
  obtain ⟨hd, ⟨w₁, res, hq, hrun, hconn, -, -⟩, hstep⟩ := serverStep_of_handled Env.counting
    (s := ⟨s₀.world, .serving (bothHalves c)⟩) (c := bothHalves c) rfl
    (handleFrame_uploadCommit (f := commitLarge) rfl (fun _ => rfl)
      h.pendingInit (AList.lookup_insert _) h.token hvalid)
  have hafter : serverAfter Env.counting uploadLarge = ⟨hd.world, .serving hd.conn⟩ := by
    rw [uploadLarge, serverAfter_concat, serverNext, hhalves]
    exact congrArg Prod.snd hstep
  obtain ⟨t, rfl⟩ := upload_large h hq hrun
  obtain ⟨fr, hst, hid⟩ := (of_wp (upload_spec _) hrun).stored_of_success
  rw [hq.ids, h.ids] at hid
  rw [hafter]
  refine ⟨_, ⟨(generateUserId (Env.counting.randomId 2)).value, []⟩, fr, rfl, ?_, ?_⟩
  · refine ⟨rfl, by decide +kernel, ?_, ?_⟩
    · exact Backend.sqlite.fileView.findById_iff.2 ⟨(hst.records fr).2 (.inr rfl), hid⟩
    · -- the record is the sender's, whose session is that of the connection
      obtain ⟨sess', hsess', hvalid', howner⟩ :=
        ((hsound.kept hq.kept).stored_parties hst).1.session
      refine ⟨sess', ?_, hvalid', .inl howner.symm⟩
      rw [hst.sessions, hconn]
      exact hsess'
  · rw [hst.blobs]
    exact AList.lookup_insert _

theorem length_sendHalf (offset : UInt64) : (sendHalf offset).body.length = 2097168 := by
  show (putBytesWithLen (ascii "u1") ++ put64be offset ++ putBytesWithLen halfFile).length = _
  have hname : (ascii "u1").length = 2 := rfl
  rw [List.length_append, List.length_append, length_putBytesWithLen, length_putBytesWithLen,
    length_put64be, length_halfFile, hname]

/-- The frames of the upload are within the limit of `recvFrame` themselves. -/
theorem uploadLarge_receivable {f : Frame} (hf : .frame f ∈ uploadLarge ++ [.frame sampleRequest]) :
    f.body.length ≤ maxBody := by
  have hannounce : (announceLarge.all fun ev => match ev with
      | .frame f => decide (f.body.length ≤ maxBody)
      | _ => true) = true := by
    decide +kernel
  simp only [uploadLarge, List.mem_append, List.mem_singleton, ServerEvent.frame.injEq] at hf
  rcases hf with (((hf | rfl) | rfl) | rfl) | rfl
  · exact of_decide_eq_true (List.all_eq_true.1 hannounce _ hf)
  · rw [length_sendHalf]
    decide
  · rw [length_sendHalf]
    decide
  · decide
  · decide +kernel

theorem large_file_undeliverable :
    (∀ f, .frame f ∈ uploadLarge ++ [.frame sampleRequest] → f.body.length ≤ maxBody) ∧
      ∃ reply ∈ (serverNext Env.counting uploadLarge (.frame sampleRequest)).output.sent,
        ¬ Deliverable reply := by
  refine ⟨fun f hf => uploadLarge_receivable hf, ?_⟩
  obtain ⟨c, req, fr, hphase, hreq, hblob⟩ := authorised_uploadLarge
  obtain ⟨hd, hsent, hstep⟩ :=
    serverStep_of_handled Env.counting hphase (handleFrame_authorised hreq hblob fun _ _ _ => rfl)
  rw [serverNext_output, hstep, hsent]
  refine ⟨_, List.mem_singleton.2 rfl, fun hdel => ?_⟩
  have hle : (halfFile ++ halfFile).length ≤ maxBody := deliverable_iff.1 hdel
  rw [List.length_append, length_halfFile, maxBody] at hle
  omega

end SecureFileTransfer
