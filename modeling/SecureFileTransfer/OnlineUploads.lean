import SecureFileTransfer.BlobSize
import SecureFileTransfer.OnlineAgreement

/-!
# OnlineUploads — from the file that is picked to the record that is kept

The upload of the menu against the server, with a connection that may break anywhere.  Either the
server keeps nothing, or it keeps one record: of the user who is logged in at the client, for the
recipient that was typed, with the whole ciphertext of the file.  The client reports success only of
an upload that is kept.
-/

namespace SecureFileTransfer

open Prog Service Handler Calls Runs ClientApp AsioTlsTransport ClientCryptoProvider

variable {env : Env} {resolve : Bytes → Bytes} {ssl : OpenSsl} {v : ClientVars}
  {l l₀ l' : Link} {f : Frame}

/-! ## Calls nobody hears of -/

/-- The text of a line that reports a success. -/
def Line.report : Line → Option Bytes
  | .safe msg => some msg
  | .error _ | .plain _ => none

/-- The successes that were reported to the user. -/
def Link.reports (l : Link) : List Bytes := l.printed.filterMap Line.report

/-- Neither the network nor a report, and no encryption. -/
def ClientCall.Unheard : ClientCall → Prop
  | .sendFrame _ | .recvFrame | .encrypted _ | .print (.safe _) => False
  | _ => True

/-- Nothing has happened but on the disk. -/
structure Unheard (l l' : Link) : Prop extends Apart l l' where
  encrypted : l'.disk.encrypted = l.disk.encrypted
  reports : l'.reports = l.reports

theorem unheard_act {c : ClientCall} (hc : c.Unheard) (ρ : Reaction) (h : Unheard l l') :
    Unheard l (Link.act env resolve c ρ l').2 := by
  cases c with
  | sendFrame f => exact hc.elim
  | recvFrame => exact hc.elim
  | encrypted e => exact hc.elim
  | writeFile path data =>
      refine ⟨⟨h.peer, h.inStep⟩, ?_, h.reports⟩
      show (ClientDisk.act resolve (.writeFile path data) ρ l'.disk).2.encrypted = _
      obtain heq | heq : (ClientDisk.act resolve (.writeFile path data) ρ l'.disk).2 = l'.disk ∨ _ :=
        act_writeFile ρ path data
      · rw [heq]
        exact h.encrypted
      · rw [heq]
        exact h.encrypted
  | print line =>
      cases line with
      | safe msg => exact hc.elim
      | error msg =>
          refine ⟨⟨h.peer, h.inStep⟩, h.encrypted, ?_⟩
          show (l'.printed ++ [Line.error msg]).filterMap Line.report = _
          rw [List.filterMap_append]
          exact (List.append_nil _).trans h.reports
      | plain msg =>
          refine ⟨⟨h.peer, h.inStep⟩, h.encrypted, ?_⟩
          show (l'.printed ++ [Line.plain msg]).filterMap Line.report = _
          rw [List.filterMap_append]
          exact (List.append_nil _).trans h.reports
  | _ => exact ⟨⟨h.peer, h.inStep⟩, h.encrypted, h.reports⟩

theorem ends_unheard {α : Type} {x : Client α} {Q : Except Exn α → Link → Prop}
    (hx : x.All ClientCall.Unheard) (hQ : ∀ r l', Unheard l l' → Q r l') :
    Ends env resolve x Q l :=
  wpc_mono (ends_all (fun _ ρ _ hc hl' => unheard_act hc ρ hl') hx ⟨Apart.refl l, rfl, rfl⟩)
    fun r l' _ hl' => hQ r l' hl'

theorem ends_unheard_bind {α β : Type} {x : Client α} {k : α → Client β}
    {Q : Except Exn β → Link → Prop} (hx : x.All ClientCall.Unheard)
    (herror : ∀ e l', Unheard l l' → Q (.error e) l')
    (hk : ∀ a l', Unheard l l' → Ends env resolve (k a) Q l') :
    Ends env resolve (x >>= k) Q l := by
  refine wpc_bind (ends_unheard hx ?_)
  rintro (e | a) l' hl'
  · exact herror e l' hl'
  · exact hk a l' hl'

theorem unheard_ask {c : ClientCall} (hc : c.Unheard) : (ask c : Client c.ans).All ClientCall.Unheard :=
  ⟨hc, fun _ => trivial⟩

/-! ## What the server has of an upload -/

/-- Nothing of the upload has reached the stores, and nothing was reported. -/
structure Untouched (v : ClientVars) (l₀ l : Link) : Prop where
  touch : InTouch v l
  stores : l.world.toStores = l₀.world.toStores
  uploads : l.peer.uploads = l₀.peer.uploads
  encrypted : l.disk.encrypted = l₀.disk.encrypted
  reports : l.reports = l₀.reports

theorem Untouched.unheard (h : Untouched v l₀ l) (hl : Unheard l l') : Untouched v l₀ l' where
  touch := h.touch.apart hl.toApart
  stores := by
    rw [hl.toApart.world]
    exact h.stores
  uploads := by
    rw [hl.peer]
    exact h.uploads
  encrypted := hl.encrypted.trans h.encrypted
  reports := hl.reports.trans h.reports

/-- The connection is gone, and the server did nothing that lasts. -/
theorem Untouched.drop (h : Untouched v l₀ l) : Untouched v l₀ (l.drop env) where
  touch := .of_gone (drop_gone env l) rfl
  stores := by
    rw [drop_world]
    exact h.stores
  uploads := h.uploads
  encrypted := h.encrypted
  reports := h.reports

/-- Whatever becomes of the reply, the frame was handled once or never. -/
inductive Effect (env : Env) (f : Frame) (l : Link) (r : Option Frame) (l' : Link) : Prop
  | missed (world : l'.world = l.world) (uploads : l'.peer.uploads = l.peer.uploads)
      (silent : r = none)
  | handled {c res hd} (serving : l.peer.server.phase = .serving c)
      (run : handleFrame env f { world := l.world, conn := c } = (res, hd))
      (world : l'.world = hd.world) (uploads : l'.peer.uploads = l.peer.uploads ++ hd.uploads)
      (reply : ∀ reply, r = some reply → hd.sent = [reply])

theorem Exchange.effect {r : Option Frame} (hx : Exchange env f l r l') (hstep : l'.inStep = true) :
    Effect env f l r l' ∧ l'.disk = l.disk ∧ l'.reports = l.reports := by
  cases hx with
  | answered _ serving run sent =>
      refine ⟨.handled serving run rfl rfl fun reply hreply => ?_, rfl, rfl⟩
      rw [sent, Option.some.inj hreply]
  | outOfStep rejected =>
      rw [rejected] at hstep
      cases hstep
  | lost _ _ disk printed arrival =>
      refine ⟨?_, disk, congrArg (List.filterMap Line.report) printed⟩
      cases arrival with
      | missed world uploads => exact .missed world uploads rfl
      | handled serving run world uploads =>
          exact .handled serving run world uploads fun reply hreply => by cases hreply

/-- A frame that leaves no trace in the stores, handled or not. -/
theorem Untouched.exchange {r : Option Frame} (h : Untouched v l₀ l) (hauth : f.type ≠ .AUTH)
    (hlogout : f.type ≠ .LOGOUT) (hx : Exchange env f l r l') (hstep : l'.inStep = true)
    (hquiet : ∀ c r hd, l.peer.server.phase = .serving c →
      handleFrame env f { world := l.world, conn := c } = (r, hd) →
      hd.world.toStores = l.world.toStores ∧ hd.uploads = []) : Untouched v l₀ l' := by
  have htouch := h.touch.exchange hauth hlogout hx hstep
  obtain ⟨heffect, hdisk, hreports⟩ := hx.effect hstep
  have hencrypted : l'.disk.encrypted = l₀.disk.encrypted := hdisk ▸ h.encrypted
  cases heffect with
  | missed world uploads _ =>
      refine ⟨htouch, ?_, uploads.trans h.uploads, hencrypted, hreports.trans h.reports⟩
      rw [world]
      exact h.stores
  | handled serving run world uploads _ =>
      obtain ⟨hstores, hnone⟩ := hquiet _ _ _ serving run
      refine ⟨htouch, ?_, ?_, hencrypted, hreports.trans h.reports⟩
      · rw [world]
        exact hstores.trans h.stores
      · rw [uploads, hnone, List.append_nil]
        exact h.uploads

/-! ## The announcement -/

/-- The ways an announcement is answered. -/
inductive InitAnswer (env : Env) (f : Frame) (w : World .sqlite) (c : Conn) :
    Except Exn Unit → Handling → Prop
  | refused {w' text} (quiet : Quiet w w') :
      InitAnswer env f w c (.ok ()) ⟨w', c, [errReply f text], []⟩
  | announced {init w'} (decoded : decodeUploadInit f.body = .ok init) (quiet : Quiet w w') :
      InitAnswer env f w c (.ok ()) ⟨w', c.announced init, [okReply f .UPLOAD_INIT], []⟩

theorem handleFrame_initAnswer (htype : f.type = .UPLOAD_INIT) (w : World .sqlite) (c : Conn) :
    wp (handleFrame env f) (InitAnswer env f w c) { world := w, conn := c } := by
  rw [handleFrame_init htype]
  refine wp_guarded_decode (.refused (Quiet.refl w)) fun init hinit => wp_guarded ?_
  rw [wp_bind, conn, wp_ask, wpBind_ok]
  refine wp_ite (fun _ => .refused (Quiet.refl w)) fun _ => ?_
  refine wp_connTokenValid_bind (fun e w₁ h₁ => .refused h₁) fun w₁ h₁ => ?_
  refine wp_ite (fun _ => ?_) fun _ => .refused h₁
  unfold acceptInit
  cases PdfFileValidator.validate init.origName init.size fakeHdr with
  | error e => exact .refused h₁
  | ok _ =>
      have announced : ∀ w₂, Quiet w₁ w₂ → InitAnswer env f w c (.ok ())
          ⟨w₂, c.announced init, [okReply f .UPLOAD_INIT], []⟩ :=
        fun w₂ h₂ => .announced hinit (h₁.trans h₂)
      rw [wp_bind, setConn, wp_modifyGet, wpBind_ok, wp_bind, wp_tryCatch]
      -- the lookup of the sender's name: both outcomes go on
      refine wp_service_bind fun r w₂ hrun => ?_
      have h₂ : Quiet w₁ w₂ := of_wp (quiet_query.wp w₁) hrun
      rcases r with e | found
      · exact announced w₂ h₂
      · exact announced w₂ h₂

/-- The server has the announcement and `data`. -/
structure Holding (v : ClientVars) (l₀ l : Link) (init : UploadInit) (data : Bytes) (c : Conn) : Prop
    extends Untouched v l₀ l where
  serving : l.peer.server.phase = .serving c
  announced : c.pendingInit.lookup init.uploadId = some init
  held : c.pendingData.lookup init.uploadId = some data

/-- An announcement that was not refused is the one that the server holds. -/
theorem Untouched.announced {init : UploadInit} {r : Option Frame} (h : Untouched v l₀ l)
    (hx : Exchange env (initFrame init) l r l') (hstep : l'.inStep = true) :
    Untouched v l₀ l' ∧ (refused r = false → ∃ c, Holding v l₀ l' init.withAlg [] c) := by
  have hquiet : ∀ c r hd, l.peer.server.phase = .serving c →
      handleFrame env (initFrame init) { world := l.world, conn := c } = (r, hd) →
      hd.world.toStores = l.world.toStores ∧ hd.uploads = [] := by
    rintro c r hd - hrun
    cases of_wp (handleFrame_initAnswer rfl l.world c) hrun with
    | refused quiet => exact ⟨quiet.stores, rfl⟩
    | announced _ quiet => exact ⟨quiet.stores, rfl⟩
  have huntouched := h.exchange (by decide : MsgType.UPLOAD_INIT ≠ .AUTH)
    (by decide : MsgType.UPLOAD_INIT ≠ .LOGOUT) hx hstep hquiet
  refine ⟨huntouched, fun haccepted => ?_⟩
  cases hx with
  | outOfStep rejected =>
      rw [rejected] at hstep
      cases hstep
  | lost _ _ _ _ _ => cases haccepted
  | @answered c reply hd fits _ run sent =>
      cases of_wp (handleFrame_initAnswer rfl l.world c) run with
      | refused _ =>
          obtain rfl := List.singleton_inj.1 sent
          cases haccepted
      | @announced init' w' decoded _ =>
          obtain rfl : init.withAlg = init' := Except.ok.inj ((decode_initFrame fits).symm.trans decoded)
          exact ⟨_, huntouched, rfl, AList.lookup_insert _, AList.lookup_insert _⟩

/-! ## The chunks -/

/-- The server has the chunk, or the connection is gone. -/
theorem Holding.appended {init : UploadInit} {data : Bytes} {c : Conn} {d : UploadData}
    {r : Option Frame} (h : Holding v l₀ l init data c) (hid : d.uploadId = init.uploadId)
    (hrange : d.InRange) (hoffset : d.offset.toNat = data.length)
    (hx : Exchange env (dataFrame d) l r l') (hstep : l'.inStep = true) :
    (refused r = false ∧ ∃ c', Holding v l₀ l' init (data ++ d.chunk) c') ∨
      (refused r = true ∧ Untouched v l₀ l' ∧ l'.peer.server.phase.conn = none) := by
  have hdec : decodeUploadData (dataFrame d).body = .ok d :=
    (PayloadKind.decode_ok_iff (k := .uploadData)).2 ⟨d, hrange, List.prefix_refl _, rfl⟩
  have hhandle : ∀ c' r' hd, l.peer.server.phase = .serving c' →
      handleFrame env (dataFrame d) { world := l.world, conn := c' } = (r', hd) →
      hd = ⟨l.world, c.appended d data, [okReply (dataFrame d) .UPLOAD_DATA], []⟩ := by
    intro c' r' hd hc' hrun
    obtain rfl : c = c' := Phase.serving.inj (h.serving.symm.trans hc')
    exact (of_wp (handleFrame_uploadData (f := dataFrame d) rfl hdec (hid ▸ h.held) hoffset) hrun).2
  have huntouched := h.exchange (by decide : MsgType.UPLOAD_DATA ≠ .AUTH)
    (by decide : MsgType.UPLOAD_DATA ≠ .LOGOUT) hx hstep fun c' r' hd hc' hrun => by
      rw [hhandle c' r' hd hc' hrun]
      exact ⟨rfl, rfl⟩
  cases hx with
  | outOfStep rejected =>
      rw [rejected] at hstep
      cases hstep
  | lost gone _ _ _ _ => exact .inr ⟨rfl, huntouched, gone⟩
  | answered _ serving run sent =>
      obtain rfl := hhandle _ _ _ serving run
      obtain rfl := List.singleton_inj.1 sent
      refine .inl ⟨rfl, _, huntouched, rfl, h.announced, ?_⟩
      rw [← hid]
      exact AList.lookup_insert _

/-- After the loop over the chunks the server has them all, or the connection is gone. -/
def SentAll (v : ClientVars) (l₀ : Link) (init : UploadInit) (data : Bytes) (l : Link) : Prop :=
  l.inStep = true → (∃ c, Holding v l₀ l init data c) ∨
    (Untouched v l₀ l ∧ l.peer.server.phase.conn = none)

theorem sentAll_outOfStep {init : UploadInit} {data : Bytes} (h : l.inStep = false) :
    SentAll v l₀ init data l := by
  intro hstep
  rw [h] at hstep
  cases hstep

theorem ends_sendAll (env : Env) (resolve : Bytes → Bytes) {init : UploadInit} {c : Conn} (pre ds : List UploadData)
    (hds : Contiguous (pre ++ ds)) (hwell : ∀ d ∈ ds, d.uploadId = init.uploadId ∧ d.InRange)
    (hstep : l.inStep = true) (h : Holding v l₀ l init (chunks pre) c) :
    Ends env resolve (sendAll ds) (fun _ l' => SentAll v l₀ init (chunks (pre ++ ds)) l') l := by
  induction ds generalizing pre c l with
  | nil =>
      rw [List.append_nil]
      exact wpc_pure trivial fun _ => .inl ⟨c, h⟩
  | cons d ds ih =>
      obtain ⟨hid, hrange⟩ := hwell d List.mem_cons_self
      refine ends_exchange hstep h.touch.inbox
        (fun _ _ => .inr ⟨h.toUntouched.drop, drop_gone env l⟩) fun r l₁ hx => ?_
      cases hstep₁ : l₁.inStep with
      | false => exact ends_outOfStep hstep₁ fun _ _ => sentAll_outOfStep
      | true =>
          rcases h.appended hid hrange (hds pre d ds rfl) hx hstep₁ with
            ⟨haccepted, c', h'⟩ | ⟨hrefused, huntouched, hgone⟩
          · rw [haccepted]
            have hchunks : chunks pre ++ d.chunk = chunks (pre ++ [d]) := by simp [chunks]
            rw [hchunks] at h'
            have hrest := ih (pre ++ [d]) (by rwa [List.append_assoc])
              (fun d' hd' => hwell d' (List.mem_cons_of_mem _ hd')) hstep₁ h'
            rw [List.append_assoc] at hrest
            exact hrest
          · rw [hrefused]
            refine ends_unheard (unheard_ask trivial) fun _ l₂ h₂ _ => .inr ⟨?_, ?_⟩
            · exact huntouched.unheard h₂
            · rw [h₂.peer]
              exact hgone

/-! ## The commit -/

/-- What the server is asked to upload. -/
def ClientVars.uploadArgs (v : ClientVars) (init : UploadInit) (cipher : Bytes) : UploadArgs where
  senderSess := ⟨v.sessionToken⟩
  recipientUsername := init.recipient
  origName := init.origName
  opaqueBytes := cipher
  uploadId := init.uploadId
  size := init.size
  digest := init.digest
  wrapped := init.wrapped

/-- One upload was made, of the whole ciphertext and for the user who is logged in; what was reported
of it has happened. -/
structure Committed (env : Env) (v : ClientVars) (l₀ : Link) (init : UploadInit) (cipher : Bytes)
    (l : Link) : Prop where
  touch : InTouch v l
  session : SessionOf l₀.world v.sessionToken v.loggedUser
  encrypted : l.disk.encrypted = l₀.disk.encrypted
  uploads : l.peer.uploads = l₀.peer.uploads ++ [v.uploadArgs init cipher]
  outcome : ∃ w res, w.toStores = l₀.world.toStores ∧
    UploadOutcome env (v.uploadArgs init cipher) w res l.world ∧
    (l.reports ≠ l₀.reports → ∃ t, res = .ok (.success t))

theorem Committed.unheard {init : UploadInit} {cipher : Bytes}
    (h : Committed env v l₀ init cipher l) (hl : Unheard l l') :
    Committed env v l₀ init cipher l' where
  touch := h.touch.apart hl.toApart
  session := h.session
  encrypted := hl.encrypted.trans h.encrypted
  uploads := by
    rw [hl.peer]
    exact h.uploads
  outcome := by
    rw [hl.toApart.world, hl.reports]
    exact h.outcome

/-- How the frames of an upload end, unless a reply is rejected. -/
def UploadSent (env : Env) (v : ClientVars) (l₀ : Link) (init : UploadInit) (cipher : Bytes)
    (l : Link) : Prop :=
  l.inStep = true → Untouched v l₀ l ∨ Committed env v l₀ init cipher l

theorem uploadSent_outOfStep {init : UploadInit} {cipher : Bytes} (h : l.inStep = false) :
    UploadSent env v l₀ init cipher l := by
  intro hstep
  rw [h] at hstep
  cases hstep

theorem UploadSent.unheard {init : UploadInit} {cipher : Bytes}
    (h : UploadSent env v l₀ init cipher l) (hl : Unheard l l') :
    UploadSent env v l₀ init cipher l' := by
  intro hstep
  rcases h (hl.inStep ▸ hstep) with huntouched | hcommitted
  · exact .inl (huntouched.unheard hl)
  · exact .inr (hcommitted.unheard hl)

/-- The ways a commit of the upload `a` is answered. -/
inductive CommitAnswer (env : Env) (f : Frame) (w : World .sqlite) (a : UploadArgs) (hd : Handling) :
    Prop
  | nothing (stores : hd.world.toStores = w.toStores) (uploads : hd.uploads = [])
      (other : ∀ reply ∈ hd.sent, reply.type ≠ .UPLOAD_COMMIT)
  | made {w₁ res} (stores : w₁.toStores = w.toStores) (outcome : UploadOutcome env a w₁ res hd.world)
      (sent : hd.sent = [commitReply f res]) (uploads : hd.uploads = [a])

theorem Handled.commitAnswer {init : UploadInit} {cipher : Bytes} {w : World .sqlite} {c : Conn}
    {r : Except Exn Unit} {hd : Handling} (h : Handled env f w c r hd) (htype : f.type = .UPLOAD_COMMIT)
    (hinit : c.pendingInit.lookup (c.resolve f.body) = some init)
    (hdata : c.pendingData.lookup (c.resolve f.body) = some cipher) :
    CommitAnswer env f w (c.uploadArgs init cipher) hd := by
  have other : ∀ {reply : Frame}, reply.type ≠ .UPLOAD_COMMIT →
      ∀ reply' ∈ [reply], reply'.type ≠ .UPLOAD_COMMIT := fun hne reply' hmem =>
    List.mem_singleton.1 hmem ▸ hne
  cases h with
  | refused quiet _ => exact .nothing quiet.stores rfl (other (by decide : MsgType.ERR ≠ _))
  | listed => exact .nothing rfl rfl (other (by decide : MsgType.LIST ≠ _))
  | committed _ pendingInit pendingData _ _ quiet run =>
      obtain rfl := Option.some.inj (hinit.symm.trans pendingInit)
      obtain rfl := Option.some.inj (hdata.symm.trans pendingData)
      exact .made quiet.stores (of_wp (upload_spec _) run) rfl rfl
  | registered type _ _ => cases htype.symm.trans type
  | authenticated type _ _ => cases htype.symm.trans type
  | loggedOut type _ => cases htype.symm.trans type
  | logoutThrew type _ => cases htype.symm.trans type
  | administered type _ _ => rcases type with type | type <;> cases htype.symm.trans type
  | announced type _ _ _ _ => cases htype.symm.trans type
  | appended type _ _ _ => cases htype.symm.trans type
  | downloaded type _ _ => cases htype.symm.trans type

/-- A commit was sent: what the server has made of it, and what the client reads. -/
inductive CommitSent (env : Env) (v : ClientVars) (l₀ : Link) (init : UploadInit) (cipher : Bytes)
    (r : Option Frame) (l : Link) : Prop
  | nothing (untouched : Untouched v l₀ l)
      (other : ∀ reply, r = some reply → reply.type ≠ .UPLOAD_COMMIT)
  | made (f : Frame) {w res} (touch : InTouch v l)
      (session : SessionOf l₀.world v.sessionToken v.loggedUser)
      (encrypted : l.disk.encrypted = l₀.disk.encrypted)
      (uploads : l.peer.uploads = l₀.peer.uploads ++ [v.uploadArgs init cipher])
      (stores : w.toStores = l₀.world.toStores)
      (outcome : UploadOutcome env (v.uploadArgs init cipher) w res l.world)
      (reports : l.reports = l₀.reports) (reply : ∀ reply, r = some reply → reply = commitReply f res)

theorem Holding.commit {init : UploadInit} {cipher : Bytes} {c : Conn} {r : Option Frame}
    (h : Holding v l₀ l init cipher c) (hid : init.uploadId.length = 36) (htoken : v.sessionToken ≠ [])
    (hx : Exchange env (commitFrame init.uploadId) l r l') (hstep : l'.inStep = true) :
    CommitSent env v l₀ init cipher r l' := by
  have htouch := h.touch.exchange (by decide : MsgType.UPLOAD_COMMIT ≠ .AUTH)
    (by decide : MsgType.UPLOAD_COMMIT ≠ .LOGOUT) hx hstep
  obtain ⟨heffect, hdisk, hreports⟩ := hx.effect hstep
  have hencrypted : l'.disk.encrypted = l₀.disk.encrypted := hdisk ▸ h.encrypted
  have hreports' := hreports.trans h.reports
  cases heffect with
  | missed world uploads silent =>
      refine .nothing ⟨htouch, ?_, uploads.trans h.uploads, hencrypted, hreports'⟩ fun reply hreply => ?_
      · rw [world]
        exact h.stores
      · rw [silent] at hreply
        cases hreply
  | @handled c' res hd serving run world uploads reply =>
      obtain rfl : c = c' := Phase.serving.inj (h.serving.symm.trans serving)
      have hresolve := resolve_commitFrame (c := c) hid
      have hargs : c.uploadArgs init cipher = v.uploadArgs init cipher := by
        rw [Conn.uploadArgs, h.touch.token c serving]
        rfl
      cases (of_wp (handleFrame_spec env _ l.world c) run).commitAnswer rfl
        (by rw [hresolve]; exact h.announced) (by rw [hresolve]; exact h.held) with
      | nothing stores none other =>
          refine .nothing ⟨htouch, ?_, ?_, hencrypted, hreports'⟩ fun r' hr' => ?_
          · rw [world, stores]
            exact h.stores
          · rw [uploads, none, List.append_nil]
            exact h.uploads
          · exact other r' (reply r' hr' ▸ List.mem_singleton.2 rfl)
      | made stores outcome sent made =>
          rw [← world, hargs] at outcome
          refine .made (commitFrame init.uploadId) htouch ?_ hencrypted ?_ (stores.trans h.stores)
            outcome hreports' fun r' hr' => ?_
          · exact (h.touch.session c serving htoken).of_eq (congrArg Stores.users h.stores.symm :)
              (congrArg Stores.sessions h.stores.symm :)
          · rw [uploads, made, hargs, h.uploads]
          · exact (List.singleton_inj.1 (sent.symm.trans (reply r' hr'))).symm

/-- A connection that is gone takes no commit. -/
theorem Untouched.commit_gone {init : UploadInit} {cipher : Bytes} {r : Option Frame}
    (h : Untouched v l₀ l) (hgone : l.peer.server.phase.conn = none)
    (hx : Exchange env (commitFrame init.uploadId) l r l') (hstep : l'.inStep = true) :
    CommitSent env v l₀ init cipher r l' := by
  have serves : ∀ {c}, l.peer.server.phase = .serving c → False := fun hc => by
    rw [hc] at hgone
    cases hgone
  refine .nothing ?_ fun reply hreply => ?_
  · exact h.exchange (by decide : MsgType.UPLOAD_COMMIT ≠ .AUTH)
      (by decide : MsgType.UPLOAD_COMMIT ≠ .LOGOUT) hx hstep fun c _ _ hc _ => (serves hc).elim
  · cases hx with
    | answered _ serving _ _ => exact (serves serving).elim
    | lost _ _ _ _ _ => cases hreply
    | outOfStep rejected =>
        rw [rejected] at hstep
        cases hstep

/-- The reply is reported, and success only of an upload that was made. -/
theorem CommitSent.report {init : UploadInit} {cipher : Bytes} {r : Option Frame}
    (h : CommitSent env v l₀ init cipher r l) :
    Ends env resolve (reportCommit r) (fun _ l' => UploadSent env v l₀ init cipher l') l := by
  cases h with
  | nothing untouched other =>
      cases r with
      | none => exact wpc_pure trivial fun _ => .inl untouched
      | some reply =>
          refine wpc_ite (fun htype => absurd htype (other reply rfl)) fun _ => ?_
          exact ends_unheard (unheard_ask trivial) fun _ l' hl' _ => .inl (untouched.unheard hl')
  | @made f w res touch session encrypted uploads stores outcome reports reply =>
      have committed : Committed env v l₀ init cipher l :=
        ⟨touch, session, encrypted, uploads, w, res, stores, outcome, fun hne => absurd reports hne⟩
      cases r with
      | none => exact wpc_pure trivial fun _ => .inr committed
      | some rep =>
          obtain rfl := reply rep rfl
          refine wpc_ite (fun htype => ?_) fun _ => ?_
          · -- success is only reported of a transfer
            obtain ⟨t, rfl⟩ : ∃ t, res = .ok (.success t) := by
              rcases res with e | ⟨t | text⟩
              · cases htype
              · exact ⟨t, rfl⟩
              · cases htype
            refine wpc_ask trivial fun ρ _ => ⟨trivial, fun _ => .inr ?_⟩
            exact ⟨⟨touch.inbox, touch.token, touch.session⟩, session, encrypted, uploads, w, _,
              stores, outcome, fun _ => ⟨t, rfl⟩⟩
          · exact ends_unheard (unheard_ask trivial) fun _ l' hl' _ => .inr (committed.unheard hl')

/-! ## The whole upload -/

section Frames

variable {init : UploadInit} {cipher : Bytes}

theorem ends_sendCommit (hid : init.uploadId.length = 36) (htoken : v.sessionToken ≠ [])
    (h : SentAll v l₀ init cipher l) :
    Ends env resolve (sendCommit init.uploadId) (fun _ l' => UploadSent env v l₀ init cipher l') l := by
  cases hstep : l.inStep with
  | false => exact ends_outOfStep hstep fun _ _ => uploadSent_outOfStep
  | true =>
      have hsent := h hstep
      have huntouched : Untouched v l₀ l := by
        rcases hsent with ⟨c, hholding⟩ | ⟨hgone, -⟩
        · exact hholding.toUntouched
        · exact hgone
      refine ends_exchange hstep huntouched.touch.inbox (fun _ _ => .inl huntouched.drop)
        fun r l₁ hx => ?_
      cases hstep₁ : l₁.inStep with
      | false => exact ends_outOfStep hstep₁ fun _ _ => uploadSent_outOfStep
      | true =>
          rcases hsent with ⟨c, hholding⟩ | ⟨-, hgone⟩
          · exact (hholding.commit hid htoken hx hstep₁).report
          · exact (huntouched.commit_gone hgone hx hstep₁).report

/-- The frames after the announcement. -/
theorem ends_sendAccepted {c : Conn} (hid : init.uploadId.length = 36)
    (hsize : cipher.length < 2 ^ 64) (htoken : v.sessionToken ≠ []) (hstep : l.inStep = true)
    (h : Holding v l₀ l init [] c) :
    Ends env resolve (sendAccepted init.uploadId cipher)
      (fun _ l' => UploadSent env v l₀ init cipher l') l := by
  have hwell : ∀ d ∈ chunksOf init.uploadId cipher, d.uploadId = init.uploadId ∧ d.InRange := by
    intro d hd
    obtain ⟨hname, hrange, -⟩ := chunksOf_wellFormed hid d hd
    exact ⟨hname, hrange⟩
  have hall : Ends env resolve (sendAll (chunksOf init.uploadId cipher))
      (fun _ l' => SentAll v l₀ init cipher l') l := by
    have hchunks := ends_sendAll env resolve [] (chunksOf init.uploadId cipher)
      (by rw [List.nil_append]; exact contiguous_chunksOf hsize) hwell hstep h
    rw [List.nil_append, chunks, flatMap_chunksOf] at hchunks
    exact hchunks
  unfold sendAccepted
  refine wpc_bind (wpc_mono hall ?_)
  rintro (e | _) l₂ _ hsent
  · intro hstep₂
    rcases hsent hstep₂ with ⟨c', hholding⟩ | ⟨hgone, -⟩
    · exact .inl hholding.toUntouched
    · exact .inl hgone
  · exact ends_sendCommit hid htoken hsent

/-- The frames of an upload: it is made with the whole ciphertext, or not at all. -/
theorem ends_sendUpload (hid : init.uploadId.length = 36) (hsize : cipher.length < 2 ^ 64)
    (htoken : v.sessionToken ≠ []) (hstep : l.inStep = true) (h : InTouch v l) :
    Ends env resolve (sendUpload init cipher)
      (fun _ l' => UploadSent env v l init.withAlg cipher l') l := by
  have huntouched : Untouched v l l := ⟨h, rfl, rfl, rfl, rfl⟩
  have huploadId : init.withAlg.uploadId = init.uploadId := by rw [withAlg_eq]
  rw [sendUpload_eq]
  refine ends_exchange hstep h.inbox (fun _ _ => .inl huntouched.drop) fun r l₁ hx => ?_
  cases hstep₁ : l₁.inStep with
  | false => exact ends_outOfStep hstep₁ fun _ _ => uploadSent_outOfStep
  | true =>
      obtain ⟨hannounced, haccepted⟩ := huntouched.announced hx hstep₁
      refine wpc_ite (fun _ => ?_) fun hrefused => ?_
      · exact ends_unheard (unheard_ask trivial) fun _ l₂ h₂ _ => .inl (hannounced.unheard h₂)
      · obtain ⟨c, hholding⟩ := haccepted (Bool.eq_false_iff.2 hrefused)
        rw [← huploadId] at hid ⊢
        exact ends_sendAccepted hid hsize htoken hstep₁ hholding

end Frames

/-! ## The command -/

/-- An encryption of the upload command, to the key that is cached: of the whole file, unless `ρ`
cut the reading of it short. -/
structure Encryption.Made (ssl : OpenSsl) (resolve : Bytes → Bytes) (v : ClientVars) (ρ : Reaction)
    (l : Link) (filePath recipient : Bytes) (e : Encryption) : Prop where
  sentTo : e.recipient = recipient
  read : ∃ data, l.disk.files (resolve filePath) = some data ∧ e.plain = ρ.cut data
  encrypted : ∃ random pub, v.pubCache.lookup recipient = some pub ∧
    encrypt ssl random e.plain ⟨recipient⟩ pub = .ok e.out

/-- What is announced of an encryption. -/
def Encryption.init (e : Encryption) (filePath : Bytes) (uploadId : RandomBytes 16) : UploadInit where
  recipient := e.recipient
  origName := filename filePath
  uploadId := (generateUserId uploadId).value
  size := UInt64.ofNat e.plain.length
  digest := e.out.digest
  wrapped := e.out.wrapped

/-- How an upload command ends, unless a reply is rejected. -/
inductive UploadEnd (env : Env) (ssl : OpenSsl) (resolve : Bytes → Bytes) (v : ClientVars)
    (ρ : Reaction) (filePath recipient : Bytes) (l l' : Link) : Prop
  | nothing (touch : InTouch v l') (stores : l'.world.toStores = l.world.toStores)
      (reports : l'.reports = l.reports)
  | made {e uploadId l₁} (made : e.Made ssl resolve v ρ l filePath recipient)
      (encrypted : l₁.disk.encrypted = l.disk.encrypted ++ [e])
      (peer : l₁.peer = l.peer) (reports : l₁.reports = l.reports)
      (committed : Committed env v l₁ (e.init filePath uploadId).withAlg e.out.cipher l')

theorem UploadEnd.unheard {ρ : Reaction} {filePath recipient : Bytes} {l₁ : Link}
    (h : UploadEnd env ssl resolve v ρ filePath recipient l l₁) (hl : Unheard l₁ l') :
    UploadEnd env ssl resolve v ρ filePath recipient l l' := by
  cases h with
  | nothing touch stores reports =>
      exact .nothing (touch.apart hl.toApart) (hl.toApart.world ▸ stores) (hl.reports.trans reports)
  | made made encrypted peer reports committed =>
      exact .made made encrypted peer reports (committed.unheard hl)

/-- The ciphertext is shorter than 4 GiB: what is encrypted of a file is. -/
theorem length_cipher_of_encrypt (hssl : ssl.Lawful) {random : EncryptRandom} {plain pub : Bytes}
    {rid : UserId} {out : EncryptOut} (h : encrypt ssl random plain rid pub = .ok out) :
    out.cipher.length < 2 ^ 64 := by
  have hpub : pub.length = 32 := by
    by_contra hne
    rw [encrypt, dif_neg hne] at h
    cases h
  obtain ⟨key, rfl⟩ : ∃ key : Key, pub = key.1 := ⟨⟨pub, hpub⟩, rfl⟩
  obtain ⟨dek, nonce, -, -, hout⟩ := encrypted_of_encrypt h
  obtain ⟨input, hinput, hcipher⟩ := bind_eq_ok.1 hout.cipher
  have hlength : input.length < 2 ^ 31 := by
    unfold updateInput intLength at hinput
    split at hinput
    · rename_i n hn
      split at hn
      · cases hn
        cases hinput
        exact (List.length_take_le ..).trans_lt ‹_›
      · cases hn
    · cases hinput
  have hct := hssl.gcm_length dek nonce input
  have htag := (ssl.gcmEncrypt dek nonce input).2.2
  rw [← Except.ok.inj hcipher, List.length_append]
  omega

/-- What `readFile` answers is the file, as far as it could be read. -/
theorem cut_of_readFile {ρ : Reaction} {path plain : Bytes}
    (h : (Link.act env resolve (.readFile path) ρ l).1 = some plain) :
    ∃ data, l.disk.files (resolve path) = some data ∧ plain = ρ.cut data := by
  change (if ρ.opened then (l.disk.files (resolve path)).map ρ.cut else none) = some plain at h
  split at h
  · obtain ⟨data, hdata, rfl⟩ := Option.map_eq_some_iff.1 h
    exact ⟨data, hdata, rfl⟩
  · cases h

/-- The post-condition of the upload command, of which `ρ` is the first reaction. -/
def UploadEnds (env : Env) (ssl : OpenSsl) (resolve : Bytes → Bytes) (v : ClientVars) (ρ : Reaction)
    (filePath recipient : Bytes) (l l' : Link) : Prop :=
  l'.inStep = true → UploadEnd env ssl resolve v ρ filePath recipient l l'

theorem Unheard.trans {l₁ l₂ l₃ : Link} (h : Unheard l₁ l₂) (h' : Unheard l₂ l₃) : Unheard l₁ l₃ :=
  ⟨h.toApart.trans h'.toApart, h'.encrypted.trans h.encrypted, h'.reports.trans h.reports⟩

/-- Calls nobody hears of, before anything is encrypted. -/
theorem InTouch.uploadEnd {ρ : Reaction} {filePath recipient : Bytes} (h : InTouch v l)
    (hl : Unheard l l') : UploadEnds env ssl resolve v ρ filePath recipient l l' := fun _ =>
  .nothing (h.apart hl.toApart) (congrArg (fun w => w.toStores) hl.toApart.world) hl.reports

theorem ends_uploadFile {ρ : Reaction} {filePath recipient : Bytes} (hssl : ssl.Lawful)
    (htoken : v.sessionToken ≠ []) (hstep : l.inStep = true) (h : InTouch v l) :
    EndsFirst env resolve ρ (uploadFile ssl v filePath recipient)
      (fun _ l' => UploadEnds env ssl resolve v ρ filePath recipient l l') l := by
  refine wpcFirst_bind (fun _ _ => trivial) (wpcFirst_ask_bind trivial ?_)
  have hl : Unheard l (Link.act env resolve (.readFile filePath) ρ l).2 := ⟨⟨rfl, rfl⟩, rfl, rfl⟩
  generalize (Link.act env resolve (.readFile filePath) ρ l).2 = l₁ at hl
  cases hread : (Link.act env resolve (.readFile filePath) ρ l).1 with
  | none => exact wpc_throw trivial (h.uploadEnd hl)
  | some plain =>
      refine wpc_pure trivial ?_
      cases hpub : v.pubCache.lookup recipient with
      | none =>
          exact ends_unheard (unheard_ask trivial) fun _ l₂ h₂ => h.uploadEnd (hl.trans h₂)
      | some recipPub =>
          -- the three draws of `encrypt`
          refine ends_unheard_bind (unheard_ask trivial) (fun _ l₂ h₂ => h.uploadEnd (hl.trans h₂))
            fun dek l₂ h₂ => ?_
          have hl₂ := hl.trans h₂
          refine ends_unheard_bind (unheard_ask trivial) (fun _ l₃ h₃ => h.uploadEnd (hl₂.trans h₃))
            fun nonce l₃ h₃ => ?_
          have hl₃ := hl₂.trans h₃
          refine ends_unheard_bind (unheard_ask trivial) (fun _ l₄ h₄ => h.uploadEnd (hl₃.trans h₄))
            fun ephPriv l₄ h₄ => ?_
          have hl₄ := hl₃.trans h₄
          cases henc : encrypt ssl ⟨dek, nonce, ephPriv⟩ plain ⟨recipient⟩ recipPub with
          | error e => exact wpc_throw trivial (h.uploadEnd hl₄)
          | ok enc =>
              have hmade :
                  Encryption.Made ssl resolve v ρ l filePath recipient ⟨recipient, plain, enc⟩ :=
                ⟨rfl, cut_of_readFile hread, _, _, hpub, henc⟩
              refine wpc_ask_bind trivial fun _ _ => wpc_ask_bind trivial fun ρ' _ => ?_
              -- the connection is as it was, and the encryption is noted
              suffices ∀ l₅ : Link, l₅.peer = l₄.peer → l₅.inStep = l₄.inStep →
                  l₅.reports = l₄.reports →
                  l₅.disk.encrypted = l₄.disk.encrypted ++ [⟨recipient, plain, enc⟩] →
                  Ends env resolve
                    (sendUpload (Encryption.init ⟨recipient, plain, enc⟩ filePath ρ'.randomId) enc.cipher)
                    (fun _ l' => UploadEnds env ssl resolve v ρ filePath recipient l l') l₅ from
                this _ rfl rfl rfl rfl
              intro l₅ hpeer hin hreports hencrypted
              have hpeer₅ : l₅.peer = l.peer := hpeer.trans hl₄.peer
              have hin₅ : l₅.inStep = l.inStep := hin.trans hl₄.inStep
              have hworld : l₅.world.toStores = l.world.toStores := by rw [Link.world, hpeer₅]; rfl
              refine wpc_mono (ends_sendUpload (length_generateUserId _)
                (length_cipher_of_encrypt hssl henc) htoken (hin₅.trans hstep)
                (h.apart ⟨hpeer₅, hin₅⟩)) fun _ l' _ hsent hstep' => ?_
              rcases hsent hstep' with huntouched | hcommitted
              · exact .nothing huntouched.touch (huntouched.stores.trans hworld)
                  (huntouched.reports.trans (hreports.trans hl₄.reports))
              · exact .made hmade (hl₄.encrypted ▸ hencrypted) hpeer₅ (hreports.trans hl₄.reports)
                  hcommitted

theorem ends_upload {ρ : Reaction} {filePath recipient answer : Bytes} (hssl : ssl.Lawful)
    (hstep : l.inStep = true) (h : InTouch v l) :
    EndsFirst env resolve ρ (upload ssl v filePath recipient answer)
      (fun _ l' => UploadEnds env ssl resolve v ρ filePath recipient l l') l := by
  refine wpcFirst_ite (fun _ => ?_) fun htoken => wpcFirst_ite (fun _ => ?_) fun _ => ?_
  · have hprinted : Ends env resolve (Client.printError (ascii "Not logged in"))
        (fun _ l' => UploadEnds env ssl resolve v ρ filePath recipient l l') l :=
      ends_unheard (unheard_ask trivial) fun _ _ hl => h.uploadEnd hl
    exact hprinted.first fun _ _ => trivial
  · refine wpcFirst_tryCatch (fun _ _ => trivial)
      (wpcFirst_mono (ends_uploadFile hssl htoken hstep h) ?_)
    rintro (e | _) l₁ _ hend
    · exact ends_unheard (unheard_ask trivial) fun _ l₂ h₂ hstep₂ =>
        (hend (h₂.inStep ▸ hstep₂)).unheard h₂
    · exact hend
  · exact ⟨trivial, h.uploadEnd ⟨Apart.refl l, rfl, rfl⟩⟩

end SecureFileTransfer
