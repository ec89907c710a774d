import SecureFileTransfer.ClientTransfers
import SecureFileTransfer.ReplyLimit
import SecureFileTransfer.UploadAssembly

/-!
# UploadDelivery — the client's upload against the server's frame loop

The two programs run together: a frame the client sends is handled by the server, and its reply is
what the client reads next.  In a valid session, the chunks of the client arrive at the offsets the
server expects, the commit names the upload, and `TransferService::upload` is called once, with the
whole ciphertext.
-/

namespace SecureFileTransfer

open Prog Service Handler Calls ClientApp AsioTlsTransport

/-! ## The two programs together -/

/-- What the client talks to: the server, the replies on their way, and the uploads so far. -/
structure Peer where
  server : ServerState
  inbox : List Frame := []
  uploads : List UploadArgs := []

namespace Peer

/-- A frame beyond the limit is not received: the server drops the connection. -/
def eventOf (f : Frame) : ServerEvent := if f.body.length ≤ maxBody then .frame f else .hangup

def send (env : Env) (p : Peer) (f : Frame) : Peer where
  server := (serverStep env p.server (eventOf f)).2
  inbox := p.inbox ++ (serverStep env p.server (eventOf f)).1.sent
  uploads := p.uploads ++ (serverStep env p.server (eventOf f)).1.uploads

/-- The answers to the client's calls.  Those that are not about the network are not made by the
part of an upload that is run here. -/
def act (env : Env) : (c : ClientCall) → Unit → Peer → c.ans × Peer
  | .sendFrame f, _, p => (none, p.send env f)
  | .recvFrame, _, p => (p.inbox.head?, { p with inbox := p.inbox.tail })
  | .randBytes _, _, p => (none, p)
  | .randomId, _, p => (zeroId, p)
  | .createDirectories, _, p => (none, p)
  | .writeFile _ _, _, p => (true, p)
  | .readFile _, _, p => (none, p)
  | .print _, _, p => ((), p)
  | .encrypted _, _, p => ((), p)

end Peer

/-- The frames that were sent. -/
def framesSent (l : List Made) : List Frame :=
  l.filterMap fun made =>
    match made.1 with
    | .sendFrame f => some f
    | _ => none

theorem framesSent_exchange (f : Frame) (reply : Option Frame) (l : List Made) :
    framesSent (⟨.sendFrame f, none⟩ :: ⟨.recvFrame, reply⟩ :: l) = f :: framesSent l := rfl

theorem framesSent_append (l l' : List Made) :
    framesSent (l ++ l') = framesSent l ++ framesSent l' := List.filterMap_append ..

variable {env : Env} {w w' : World .sqlite} {c : Conn}

/-- A frame that the server answers with one reply. -/
theorem run_exchange {f reply : Frame} {out : Output} {p : Peer} {s' : ServerState}
    (k : Option Frame → Client Unit) (hfits : f.body.length ≤ maxBody) (hinbox : p.inbox = [])
    (hstep : serverStep env p.server (.frame f) = (out, s')) (hsent : out.sent = [reply]) :
    let p' : Peer := { server := s', uploads := p.uploads ++ out.uploads }
    (do Client.sendFrame f; k (← Client.recvFrame) : Client Unit).exec (Peer.act env) (fun _ => ()) p =
        (k (some reply)).exec (Peer.act env) (fun _ => ()) p' ∧
      (do Client.sendFrame f; k (← Client.recvFrame) : Client Unit).log (Peer.act env) (fun _ => ()) p =
        ⟨.sendFrame f, none⟩ :: ⟨.recvFrame, some reply⟩ ::
          (k (some reply)).log (Peer.act env) (fun _ => ()) p' := by
  intro p'
  have hsend : p.send env f = { p' with inbox := [reply] } := by
    simp only [Peer.send, Peer.eventOf, if_pos hfits, hstep, hinbox, hsent]
    rfl
  have hread : ∀ q : Peer, q = { p' with inbox := [reply] } →
      (k q.inbox.head?).exec (Peer.act env) (fun _ => ()) { q with inbox := q.inbox.tail } =
          (k (some reply)).exec (Peer.act env) (fun _ => ()) p' ∧
        (⟨.sendFrame f, none⟩ : Made) :: ⟨.recvFrame, q.inbox.head?⟩ ::
            (k q.inbox.head?).log (Peer.act env) (fun _ => ()) { q with inbox := q.inbox.tail } =
          ⟨.sendFrame f, none⟩ :: ⟨.recvFrame, some reply⟩ ::
            (k (some reply)).log (Peer.act env) (fun _ => ()) p' := by
    rintro _ rfl
    exact ⟨rfl, rfl⟩
  exact hread _ hsend

/-! ## The announcement -/

/-- An announcement in a valid session that the validator accepts. -/
theorem handleFrame_uploadInit {f : Frame} {init : UploadInit} (htype : f.type = .UPLOAD_INIT)
    (hdec : decodeUploadInit f.body = .ok init) (hfault : ∀ n, env.fault .isValid n = none)
    (htoken : c.connToken ≠ [])
    (hvalid : w.sessions.isValid ⟨c.connToken⟩ (env.clock w.clockReads) = true)
    (haccept : PdfFileValidator.validate init.origName init.size fakeHdr = .ok ()) :
    wp (handleFrame env f)
      (fun r hd => r = .ok () ∧ hd.world.toStores = w.toStores ∧
        hd.world.clockReads = w.clockReads + 1 ∧ hd.conn = c.announced init ∧
        hd.sent = [okReply f .UPLOAD_INIT] ∧ hd.uploads = [])
      { world := w, conn := c } := by
  rw [handleFrame_init htype, handleUploadInit, hdec]
  refine wp_guarded ?_
  rw [wp_bind, wp_outcome, wpBind_ok, wp_bind, conn, wp_ask, wpBind_ok]
  refine wp_ite (fun h => absurd h htoken) fun _ => ?_
  rw [wp_bind, wp, connTokenValid_of_valid hfault hvalid, wpBind_ok]
  refine wp_ite (fun _ => ?_) fun h => absurd rfl h
  rw [acceptInit, haccept]
  rw [wp_bind, setConn, wp_modifyGet, wpBind_ok, wp_bind, wp_tryCatch]
  -- the lookup of the sender's name is a call more, whatever it answers
  rw [wp_bind, service, wp_zoom]
  refine wp_query (fun e _ => ?_) ?_
  · exact ⟨rfl, rfl, rfl, rfl, rfl, rfl⟩
  · exact ⟨rfl, rfl, rfl, rfl, rfl, rfl⟩

/-! ## The chunks -/

/-- The loop of the client and the branch of the server, chunk by chunk: `pre` are the chunks that
the server has, `ds` those the client still sends. -/
theorem sendAll_delivers (env : Env) {uploadId : Bytes} (pre ds : List UploadData) (hds : Contiguous (pre ++ ds))
    (hwell : ∀ d ∈ ds, d.uploadId = uploadId ∧ d.InRange ∧ (encodeUploadData d).length ≤ maxBody)
    {p : Peer} (hserver : p.server = ⟨w, .serving c⟩) (hinbox : p.inbox = [])
    (hpending : c.pendingData.lookup uploadId = some (chunks pre)) :
    ∃ c', (sendAll ds).exec (Peer.act env) (fun _ => ()) p =
        (.ok (), { p with server := ⟨w, .serving c'⟩ }) ∧
      (c'.pendingData.lookup uploadId = some (chunks (pre ++ ds)) ∧
        c'.pendingInit = c.pendingInit ∧ c'.connToken = c.connToken) ∧
      framesSent ((sendAll ds).log (Peer.act env) (fun _ => ()) p) = ds.map dataFrame ∧
      ∀ tail, acknowledged ((sendAll ds).log (Peer.act env) (fun _ => ()) p ++ tail) =
        ds.map dataFrame ++ acknowledged tail := by
  induction ds generalizing pre c p with
  | nil =>
      refine ⟨c, ?_, ⟨by rw [List.append_nil, hpending], rfl, rfl⟩, rfl, fun tail => rfl⟩
      rw [← hserver]
      rfl
  | cons d ds ih =>
      obtain ⟨hid, hrange, hfits⟩ := hwell d List.mem_cons_self
      have hoffset : d.offset.toNat = (chunks pre).length := hds pre d ds rfl
      have hdec : decodeUploadData (dataFrame d).body = .ok d :=
        (PayloadKind.decode_ok_iff (k := .uploadData)).2 ⟨d, hrange, List.prefix_refl _, rfl⟩
      obtain ⟨hd, rfl, hstep⟩ := serverStep_of_handled env (s := ⟨w, .serving c⟩) rfl
        (handleFrame_uploadData (f := dataFrame d) rfl hdec (by rw [hid]; exact hpending) hoffset)
      have hstep' : serverStep env p.server (.frame (dataFrame d)) =
          (⟨[okReply (dataFrame d) .UPLOAD_DATA], []⟩, ⟨w, .serving (c.appended d (chunks pre))⟩) := by
        rw [hserver]
        exact hstep
      obtain ⟨hexec, hlog⟩ := run_exchange (fun reply =>
        if refused reply then Client.printError (ascii "UPLOAD_DATA failed") else sendAll ds)
        hfits hinbox hstep' rfl
      have hpending' : (c.appended d (chunks pre)).pendingData.lookup uploadId =
          some (chunks (pre ++ [d])) := by
        rw [Conn.appended, hid, AList.lookup_insert]
        simp [chunks]
      obtain ⟨c', hexec', ⟨hdata, hinit, htoken⟩, hframes, hack⟩ := ih (pre ++ [d])
        (by rwa [List.append_assoc]) (fun d' hd' => hwell d' (List.mem_cons_of_mem _ hd'))
        (p := { server := ⟨w, .serving (c.appended d (chunks pre))⟩, uploads := p.uploads ++ [] })
        rfl rfl hpending'
      rw [sendAll, hexec, hlog]
      refine ⟨c', ?_, ⟨?_, hinit, htoken⟩, ?_, fun tail => ?_⟩
      · refine hexec'.trans ?_
        rw [List.append_nil, ← hinbox]
      · rw [hdata, List.append_assoc]
        rfl
      · exact congrArg (dataFrame d :: ·) hframes
      · exact congrArg (dataFrame d :: ·) (hack tail)

/-- The chunks of a file lie one after the other; their offsets do not wrap. -/
theorem contiguous_chunksOf {uploadId cipher : Bytes} (hsize : cipher.length < 2 ^ 64) :
    Contiguous (chunksOf uploadId cipher) := by
  intro pre d post heq
  have hpre : pre = (chunksOf uploadId cipher).take pre.length := by
    rw [heq, List.take_left]
  have hlt : pre.length < chunkCount cipher := by
    rw [← length_chunksOf uploadId, heq]
    simp
  obtain ⟨htake, hlen⟩ := chunkAt_offset uploadId hlt
  have hd : d = chunkAt uploadId cipher pre.length := by
    have hget : (chunksOf uploadId cipher)[pre.length]? = some d := by
      rw [heq]
      simp
    rw [chunksOf, List.getElem?_map, List.getElem?_range hlt] at hget
    exact (Option.some.inj hget).symm
  rw [chunks, hpre, htake, hlen, hd, chunkAt]
  have hbound := lt_chunkCount_iff.1 hlt
  show (UInt64.ofNat (pre.length * chunkSize)).toNat = pre.length * chunkSize
  rw [UInt64.toNat_ofNat_of_lt']
  exact hbound.trans hsize

/-- A chunk with an upload id of the client fits a frame. -/
theorem chunksOf_wellFormed {uploadId cipher : Bytes} (hid : uploadId.length = 36) :
    ∀ d ∈ chunksOf uploadId cipher,
      d.uploadId = uploadId ∧ d.InRange ∧ (encodeUploadData d).length ≤ maxBody := by
  intro d hd
  obtain ⟨i, -, rfl⟩ := List.mem_map.1 hd
  have hchunk : (chunkAt uploadId cipher i).chunk.length ≤ 1048576 := List.length_take_le ..
  have hupload : (chunkAt uploadId cipher i).uploadId.length = 36 := hid
  refine ⟨rfl, ⟨?_, ?_⟩, ?_⟩
  · show (chunkAt uploadId cipher i).uploadId.length < 2 ^ 32
    omega
  · show (chunkAt uploadId cipher i).chunk.length < 2 ^ 32
    omega
  · rw [encodeUploadData, List.length_append, List.length_append, length_putBytesWithLen,
      length_putBytesWithLen, length_put64be, hupload, maxBody]
    omega

/-! ## The commit -/

theorem commitName_putBytesWithLen {uploadId : Bytes} (h : uploadId.length + 4 < 2 ^ 32) :
    commitName (putBytesWithLen uploadId) = uploadId := by
  have hlen : get32be (putBytesWithLen uploadId) 0 = some (UInt32.ofNat uploadId.length) :=
    get32be_eq_some_iff.2 (by rw [List.drop_zero, putBytesWithLen]; exact List.prefix_append _ _)
  have hsum : (UInt32.ofNat uploadId.length + 4).toNat = (putBytesWithLen uploadId).length := by
    rw [length_putBytesWithLen, UInt32.toNat_add,
      UInt32.toNat_ofNat_of_lt' (show uploadId.length < 2 ^ 32 by omega)]
    show (uploadId.length + 4) % 2 ^ 32 = _
    omega
  rw [commitName, hlen]
  simp only [hsum, if_true]
  rw [putBytesWithLen]
  exact List.drop_left' (length_put32be _)

theorem commitFrame_fits {uploadId : Bytes} (hid : uploadId.length = 36) :
    (commitFrame uploadId).body.length ≤ maxBody := by
  show (putBytesWithLen uploadId).length ≤ maxBody
  rw [length_putBytesWithLen, hid]
  decide

theorem resolve_commitFrame {uploadId : Bytes} (h : uploadId.length = 36) :
    c.resolve (commitFrame uploadId).body = uploadId := by
  rw [Conn.resolve, commitFrame, commitName_putBytesWithLen (by omega)]
  cases uploadId with
  | nil => cases h
  | cons b bs => rfl

/-! ## The whole upload -/

/-- The session of the connection is valid when the upload is announced and when it is committed,
and the session store answers. -/
structure ValidSession (env : Env) (w : World .sqlite) (c : Conn) : Prop where
  token : c.connToken ≠ []
  announce : w.sessions.isValid ⟨c.connToken⟩ (env.clock w.clockReads) = true
  commit : w.sessions.isValid ⟨c.connToken⟩ (env.clock (w.clockReads + 1)) = true
  answers : ∀ n, env.fault .isValid n = none

/-- An upload that is announced on this connection, with an id of the client. -/
structure Announceable (env : Env) (w : World .sqlite) (c : Conn) (init : UploadInit) : Prop where
  session : ValidSession env w c
  accepted : PdfFileValidator.validate init.origName init.size fakeHdr = .ok ()
  id : ∃ random : RandomBytes 16, init.uploadId = (generateUserId random).value
  fits : (encodeUploadInit init).length ≤ maxBody

/-- The client's upload, run against a server that has answered everything. -/
def uploadRun (env : Env) (w : World .sqlite) (c : Conn) (init : UploadInit) (cipher : Bytes) :
    Except Exn Unit × Peer :=
  (sendUpload init cipher).exec (Peer.act env) (fun _ => ()) { server := ⟨w, .serving c⟩ }

def uploadLog (env : Env) (w : World .sqlite) (c : Conn) (init : UploadInit) (cipher : Bytes) :
    List Made :=
  (sendUpload init cipher).log (Peer.act env) (fun _ => ()) { server := ⟨w, .serving c⟩ }

/-- The call of `TransferService::upload` with what the client announced. -/
def announcedArgs (c : Conn) (init : UploadInit) (cipher : Bytes) (wrapped : WrappedKey) : UploadArgs where
  senderSess := ⟨c.connToken⟩
  recipientUsername := init.recipient
  origName := init.origName
  opaqueBytes := cipher
  uploadId := init.uploadId
  size := init.size
  digest := init.digest
  wrapped := wrapped

/-- The whole ciphertext arrives: the loop ends, every frame fits, every chunk is acknowledged, and
one upload is made. -/
structure Delivers (env : Env) (w : World .sqlite) (c : Conn) (init : UploadInit) (cipher : Bytes)
    (wrapped : WrappedKey) : Prop where
  ends : (uploadRun env w c init cipher).1 = .ok ()
  frames : framesSent (uploadLog env w c init cipher) =
    initFrame init :: (chunksOf init.uploadId cipher).map dataFrame ++ [commitFrame init.uploadId]
  fit : ∀ f ∈ framesSent (uploadLog env w c init cipher), Deliverable f
  acknowledged : acknowledgedData (uploadLog env w c init cipher) =
    (chunksOf init.uploadId cipher).map dataFrame
  uploads : (uploadRun env w c init cipher).2.uploads = [announcedArgs c init cipher wrapped]

/-- The commit of the upload that is pending. -/
theorem sendCommit_delivers {uploadId cipher : Bytes} {init : UploadInit} (hid : uploadId.length = 36)
    (hinit : c.pendingInit.lookup uploadId = some init)
    (hdata : c.pendingData.lookup uploadId = some cipher) (htoken : c.connToken ≠ [])
    (hfault : ∀ n, env.fault .isValid n = none)
    (hvalid : w.sessions.isValid ⟨c.connToken⟩ (env.clock w.clockReads) = true) {p : Peer}
    (hserver : p.server = ⟨w, .serving c⟩) (hinbox : p.inbox = []) :
    ((sendCommit uploadId).exec (Peer.act env) (fun _ => ()) p).1 = .ok () ∧
      ((sendCommit uploadId).exec (Peer.act env) (fun _ => ()) p).2.uploads =
        p.uploads ++ [c.uploadArgs init cipher] ∧
      framesSent ((sendCommit uploadId).log (Peer.act env) (fun _ => ()) p) = [commitFrame uploadId] ∧
      acknowledgedData ((sendCommit uploadId).log (Peer.act env) (fun _ => ()) p) = [] := by
  have hresolve := resolve_commitFrame (c := c) hid
  obtain ⟨hd, ⟨w₁, res, -, -, -, hsent, huploads⟩, hstep⟩ := serverStep_of_handled env
    (s := ⟨w, .serving c⟩) rfl (handleFrame_uploadCommit (f := commitFrame uploadId) rfl hfault
      (by rw [hresolve]; exact hinit) (by rw [hresolve]; exact hdata) htoken hvalid)
  rw [← hserver] at hstep
  obtain ⟨hexec, hlog⟩ := run_exchange reportCommit (commitFrame_fits hid) hinbox hstep hsent
  have hcommit : (commitFrame uploadId).type ≠ .UPLOAD_DATA :=
    (by decide : MsgType.UPLOAD_COMMIT ≠ .UPLOAD_DATA)
  rw [sendCommit, hexec, hlog, acknowledgedData_exchange hcommit]
  -- either line about the reply is only printed
  rw [reportCommit]
  split
  · exact ⟨rfl, congrArg (p.uploads ++ ·) huploads, rfl, rfl⟩
  · exact ⟨rfl, congrArg (p.uploads ++ ·) huploads, rfl, rfl⟩

/-- The fields of an announcement that fits a frame are in range. -/
theorem inRange_of_fits {init : UploadInit} (hfits : (encodeUploadInit init).length ≤ maxBody) :
    init.InRange := by
  simp only [encodeUploadInit, List.length_append, length_putBytesWithLen, length_put64be,
    maxBody] at hfits
  unfold UploadInit.InRange Fits
  omega

theorem decode_initFrame {init : UploadInit} (hfits : (encodeUploadInit init).length ≤ maxBody) :
    decodeUploadInit (initFrame init).body = .ok init.withAlg :=
  (PayloadKind.decode_ok_iff (k := .uploadInit)).2
    ⟨init, inRange_of_fits hfits, List.prefix_refl _, rfl⟩

/-- The default algorithm is all that decoding adds. -/
theorem withAlg_eq (init : UploadInit) : init.withAlg = { init with wrapped := init.withAlg.wrapped } := by
  unfold UploadInit.withAlg
  split
  · rfl
  · rfl

theorem upload_delivers (env : Env) (w : World .sqlite) (c : Conn) (init : UploadInit)
    (cipher : Bytes) (h : Announceable env w c init) (hsize : cipher.length < 2 ^ 64) :
    Delivers env w c init cipher init.withAlg.wrapped := by
  obtain ⟨random, hrandom⟩ := h.id
  have hid : init.uploadId.length = 36 := by
    rw [hrandom]
    exact length_generateUserId random
  -- the announcement is accepted, and the id is pending without data
  have haccept : PdfFileValidator.validate init.withAlg.origName init.withAlg.size fakeHdr = .ok () := by
    rw [withAlg_eq]
    exact h.accepted
  obtain ⟨hd, ⟨hstores, hclock, hconn, hsent, huploads⟩, hstep⟩ := serverStep_of_handled env
    (s := ⟨w, .serving c⟩) rfl (handleFrame_uploadInit (f := initFrame init) rfl
      (decode_initFrame h.fits) h.session.answers h.session.token h.session.announce haccept)
  obtain ⟨hexec₁, hlog₁⟩ := run_exchange (p := { server := ⟨w, .serving c⟩ }) (fun reply =>
    if refused reply then Client.printError (ascii "UPLOAD_INIT failed")
    else sendAccepted init.uploadId cipher) h.fits rfl hstep hsent
  have hannounced : hd.conn.pendingData.lookup init.uploadId = some [] ∧
      hd.conn.pendingInit.lookup init.uploadId = some init.withAlg ∧
      hd.conn.connToken = c.connToken := by
    rw [hconn, withAlg_eq]
    exact ⟨AList.lookup_insert _, AList.lookup_insert _, rfl⟩
  obtain ⟨hpending, hinit, htoken⟩ := hannounced
  -- the chunks arrive
  obtain ⟨c₂, hexec₂, ⟨hdata₂, hinit₂, htoken₂⟩, hframes₂, hack₂⟩ := sendAll_delivers env
    (w := hd.world) [] (chunksOf init.uploadId cipher)
    (by rw [List.nil_append]; exact contiguous_chunksOf hsize) (chunksOf_wellFormed hid)
    (p := { server := ⟨hd.world, .serving hd.conn⟩, uploads := [] ++ hd.uploads }) rfl rfl hpending
  rw [List.nil_append, chunks, flatMap_chunksOf] at hdata₂
  -- the commit finds them
  have htoken' : c₂.connToken = c.connToken := htoken₂.trans htoken
  have hvalid : hd.world.sessions.isValid ⟨c₂.connToken⟩ (env.clock hd.world.clockReads) = true := by
    rw [hstores, hclock, htoken']
    exact h.session.commit
  obtain ⟨hend, huploads₃, hframes₃, hack₃⟩ := sendCommit_delivers hid
    (by rw [hinit₂]; exact hinit) hdata₂ (by rw [htoken']; exact h.session.token) h.session.answers
    hvalid (p := { server := ⟨hd.world, .serving c₂⟩, uploads := [] ++ hd.uploads }) rfl rfl
  have hok : ¬ refused (some (okReply (initFrame init) .UPLOAD_INIT)) = true := Bool.false_ne_true
  have hrun : uploadRun env w c init cipher = (sendCommit init.uploadId).exec (Peer.act env)
      (fun _ => ()) { server := ⟨hd.world, .serving c₂⟩, uploads := [] ++ hd.uploads } := by
    rw [uploadRun, sendUpload_eq, hexec₁, if_neg hok, sendAccepted, (run_bind _ _ _ _).1, hexec₂,
      resume]
  have hlog : uploadLog env w c init cipher = ⟨.sendFrame (initFrame init), none⟩ ::
      ⟨.recvFrame, some (okReply (initFrame init) .UPLOAD_INIT)⟩ ::
        ((sendAll (chunksOf init.uploadId cipher)).log (Peer.act env) (fun _ => ())
          { server := ⟨hd.world, .serving hd.conn⟩, uploads := [] ++ hd.uploads } ++
        (sendCommit init.uploadId).log (Peer.act env) (fun _ => ())
          { server := ⟨hd.world, .serving c₂⟩, uploads := [] ++ hd.uploads }) := by
    rw [uploadLog, sendUpload_eq, hlog₁, if_neg hok, sendAccepted, (run_bind _ _ _ _).2, hexec₂,
      resume]
  have hframes : framesSent (uploadLog env w c init cipher) = initFrame init ::
      (chunksOf init.uploadId cipher).map dataFrame ++ [commitFrame init.uploadId] := by
    rw [hlog, framesSent_exchange, framesSent_append, hframes₂, hframes₃, List.cons_append]
  refine ⟨by rw [hrun, hend], hframes, ?_, ?_, ?_⟩
  · rw [hframes]
    intro f hf
    refine deliverable_of_le ?_
    rcases List.mem_append.1 hf with hf | hf
    · rcases List.mem_cons.1 hf with rfl | hf
      · exact h.fits
      · obtain ⟨d, hd, rfl⟩ := List.mem_map.1 hf
        exact (chunksOf_wellFormed hid d hd).2.2
    · obtain rfl := List.mem_singleton.1 hf
      exact commitFrame_fits hid
  · rw [hlog, acknowledgedData_exchange (by decide : MsgType.UPLOAD_INIT ≠ .UPLOAD_DATA)]
    exact acknowledgedData_of_append (hack₂ _) hack₃
  · rw [hrun, huploads₃, huploads, Conn.uploadArgs, htoken', withAlg_eq]
    rfl

/-- The server once the client of `sampleEvents` has logged in. -/
def loggedInServer : ServerState := serverAfter Env.counting (sampleEvents.take 6)

/-- The connection of that client. -/
def loggedInConn : Conn := loggedInServer.phase.conn.getD Conn.fresh

/-- An announcement with the given name of the algorithm. -/
def announcement (alg : Bytes) : UploadInit where
  recipient := ascii "bob"
  origName := ascii "a.pdf"
  uploadId := (generateUserId (Env.counting.randomId 7)).value
  size := 3
  digest := zeroDigest
  wrapped := { alg := alg }

set_option maxRecDepth 100000 in
theorem announceable_announcement {alg : Bytes}
    (hfits : (encodeUploadInit (announcement alg)).length ≤ maxBody) :
    Announceable Env.counting loggedInServer.world loggedInConn (announcement alg) where
  session := ⟨by decide +kernel, by decide +kernel, by decide +kernel, fun _ => rfl⟩
  accepted := (by decide +kernel : PdfFileValidator.validate (ascii "a.pdf") 3 fakeHdr = .ok ())
  id := ⟨Env.counting.randomId 7, rfl⟩
  fits := hfits

set_option maxRecDepth 100000 in
theorem upload_delivers_announcement :
    loggedInServer.phase.conn.isSome = true ∧
      Delivers Env.counting loggedInServer.world loggedInConn (announcement defaultAlg) [1, 2, 3]
        (announcement defaultAlg).withAlg.wrapped :=
  ⟨by decide +kernel, upload_delivers _ _ _ _ _ (announceable_announcement (by decide +kernel))
    (by decide)⟩

set_option maxRecDepth 100000 in
/-- An empty name of the algorithm does not arrive as the client put it. -/
theorem empty_alg_replaced :
    Announceable Env.counting loggedInServer.world loggedInConn (announcement []) ∧
      ¬ Delivers Env.counting loggedInServer.world loggedInConn (announcement []) [1, 2, 3]
        (announcement []).wrapped := by
  refine ⟨announceable_announcement (by decide +kernel), fun h => ?_⟩
  have halg : (uploadRun Env.counting loggedInServer.world loggedInConn (announcement [])
      [1, 2, 3]).2.uploads.map (fun a => a.wrapped.alg) = [defaultAlg] := by decide +kernel
  rw [h.uploads] at halg
  exact absurd halg (by decide)

end SecureFileTransfer
