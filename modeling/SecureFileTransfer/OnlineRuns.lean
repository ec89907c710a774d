import SecureFileTransfer.FileParity
import SecureFileTransfer.OnlineUploads

/-!
# OnlineRuns — every run of a client with its server

Two facts about a client that is connected to the server, over every sequence of menu commands and
with a connection that may break at any call.  Client and server never disagree on who is logged in;
and what the server keeps is what the client encrypted, for the one who can decrypt it.
-/

namespace SecureFileTransfer

open Prog Service Handler Calls Runs StdString ClientApp ClientCryptoProvider

abbrev OnlineTransition := Transition OnlineState OnlineInput (Except Exn Unit)

section Runs

variable (env : Env) (ssl : OpenSsl) (resolve : Bytes → Bytes) (w : World .sqlite)
  (files : Bytes → Option Bytes)

def onlineAfter (inputs : List OnlineInput) : OnlineState :=
  final (OnlineState.step env ssl resolve) (.connected w files) inputs

def onlineTrace (inputs : List OnlineInput) : List OnlineTransition :=
  trace (OnlineState.step env ssl resolve) (.connected w files) inputs

end Runs

variable {env : Env} {ssl : OpenSsl} {resolve : Bytes → Bytes} {w : World .sqlite}
  {files : Bytes → Option Bytes} {v : ClientVars} {l l' : Link} {s : OnlineState}

/-! ## One command -/

/-- The triple of the reactions that an input brings. -/
theorem exec_ends {α : Type} {x : Client α} {Q : Except Exn α → Link → Prop}
    (reactions : Nat → Reaction) (h : Ends env resolve x Q l) :
    Q (x.exec (Link.act env resolve) reactions l).1 (x.exec (Link.act env resolve) reactions l).2 :=
  (h.exec fun _ _ _ => trivial).2

/-- The same, when the first reaction is known. -/
theorem exec_endsFirst {α : Type} {x : Client α} {Q : Except Exn α → Link → Prop}
    (reactions : Nat → Reaction) (h : EndsFirst env resolve (reactions 0) x Q l) :
    Q (x.exec (Link.act env resolve) reactions l).1 (x.exec (Link.act env resolve) reactions l).2 :=
  (h.exec fun _ _ _ => trivial).2

/-- What a turn of the menu leaves. -/
def MenuTouches (env : Env) (r : Except Exn (Option ClientVars)) (l : Link) : Prop :=
  ∀ v, r = .ok (some v) → Touching env v l

/-- A command that returns new variables. -/
theorem ends_turn_vars {x : Client ClientVars} (hx : Ends env resolve x (TurnTouches env) l) :
    Ends env resolve (x >>= fun v => pure (some v)) (MenuTouches env) l := by
  refine wpc_bind (wpc_mono hx ?_)
  rintro (e | v') l' _ htouches
  · intro v heq
    cases heq
  · refine wpc_pure trivial fun v heq => ?_
    cases heq
    exact htouches v' rfl

/-- A command that leaves the variables alone. -/
theorem ends_turn_unit {x : Client Unit}
    (hx : Ends env resolve x (fun _ l' => Touching env v l') l) :
    Ends env resolve (x >>= fun _ => pure (some v)) (MenuTouches env) l := by
  refine wpc_bind (wpc_mono hx ?_)
  rintro (e | _) l' _ htouches
  · intro v heq
    cases heq
  · refine wpc_pure trivial fun v' heq => ?_
    cases heq
    exact htouches

theorem UploadEnd.touch {ρ : Reaction} {filePath recipient : Bytes}
    (h : UploadEnd env ssl resolve v ρ filePath recipient l l') : InTouch v l' := by
  cases h with
  | nothing touch _ _ => exact touch
  | made _ _ _ _ committed => exact committed.touch

theorem endsFirst_turn (env : Env) (resolve : Bytes → Bytes) (ρ : Reaction) (hssl : ssl.Lawful)
    (hissued : Issued env l.world) (h : l.inStep = true → InTouch v l) (c : Command) :
    EndsFirst env resolve ρ (turn ssl v c) (MenuTouches env) l := by
  have first : ∀ {x : Client (Option ClientVars)}, Ends env resolve x (MenuTouches env) l →
      EndsFirst env resolve ρ x (MenuTouches env) l := fun hx => hx.first fun _ _ => trivial
  cases hstep : l.inStep with
  | false =>
      refine first (ends_outOfStep hstep fun r l' h' v' _ hstep' => ?_)
      rw [h'] at hstep'
      cases hstep'
  | true =>
      have htouch := h hstep
      cases c with
      | register user email pw answer => exact first (ends_turn_vars (ends_register hstep htouch))
      | login user pw => exact first (ends_turn_vars (ends_login hissued hstep htouch))
      | logout => exact first (ends_turn_vars (ends_logout hstep htouch))
      | upload filePath recipient answer =>
          refine wpcFirst_bind (fun _ _ => trivial)
            (wpcFirst_mono (ends_upload hssl hstep htouch) ?_)
          rintro (e | _) l' _ hend
          · intro v' heq
            cases heq
          · refine wpc_pure trivial fun v' heq => ?_
            cases heq
            exact .of_inStep fun hstep' => (hend hstep').touch
      | download fileId outPath => exact first (ends_turn_unit (ends_download hstep htouch))
      | quit => exact first (wpc_pure trivial fun v' heq => by cases heq)
      | other =>
          refine first (wpc_pure trivial fun v' heq => ?_)
          cases heq
          exact .of_inStep h

/-! ## The server's side of a command -/

/-- What every call of a command does to the stores, the command does. -/
theorem command_world {P : ClientCall → Prop} {R : World .sqlite → World .sqlite → Prop}
    (hrefl : ∀ w, R w w) (htrans : ∀ w₁ w₂ w₃, R w₁ w₂ → R w₂ w₃ → R w₁ w₃)
    (hact : ∀ c ρ l, P c → R l.world (Link.act env resolve c ρ l).2.world) {c : Command}
    (hcalls : ∀ v, (turn ssl v c).All P) (reactions : Nat → Reaction) :
    R s.link.world (s.step env ssl resolve (.command c reactions)).2.link.world := by
  obtain ⟨_ | v, l⟩ := s
  · exact hrefl _
  · have hkept : Ends env resolve (turn ssl v c) (fun _ l' => R l.world l'.world) l :=
      ends_all (R := fun l l' => R l.world l'.world)
        (fun c ρ l' hc hl' => htrans _ _ _ hl' (hact c ρ l' hc)) (hcalls v) (hrefl _)
    have hturn := exec_ends reactions hkept
    simp only [OnlineState.step]
    rcases hrun : (turn ssl v c).exec (Link.act env resolve) reactions l with ⟨e | _ | v', l'⟩
    · rw [hrun] at hturn
      exact (drop_world env l').symm ▸ hturn
    · rw [hrun] at hturn
      exact (drop_world env l').symm ▸ hturn
    · rw [hrun] at hturn
      exact hturn

theorem draws_step (env : Env) (ssl : OpenSsl) (resolve : Bytes → Bytes) (s : OnlineState)
    (i : OnlineInput) : Draws env s.link.world (s.step env ssl resolve i).2.link.world := by
  cases i with
  | pubkey uid pub =>
      have hserved := serverStep_served env s.link.peer.server (.pubkey uid pub)
      show Draws env _ (serverStep env s.link.peer.server (.pubkey uid pub)).2.world
      generalize (serverStep env s.link.peer.server (.pubkey uid pub)).1 = out at hserved
      generalize (serverStep env s.link.peer.server (.pubkey uid pub)).2 = s' at hserved ⊢
      cases hserved with
      | keyed save => exact ⟨le_rfl, id⟩
      | ignored => exact .refl _
  | command c reactions =>
      exact command_world (P := fun _ => True) Draws.refl (fun _ _ _ => Draws.trans)
        (fun c ρ l _ => act_world Draws.refl c ρ l fun f _ => draws_send env l.peer f)
        (fun v => all_true _) reactions

/-! ## Agreement -/

/-- Client and server are in touch as long as the client runs, no reply was rejected and no token
came twice. -/
def OnlineState.Agrees (env : Env) (s : OnlineState) : Prop :=
  ∀ v, s.vars = some v → Touching env v s.link

/-- A key that is written to the directory changes nothing else. -/
theorem touching_pubkey (h : Touching env v l) (uid : UserId) (pub : Bytes) :
    Touching env v { l with
      peer := { l.peer with server := (serverStep env l.peer.server (.pubkey uid pub)).2 } } := by
  intro hstep hfresh
  have hserved := serverStep_served env l.peer.server (.pubkey uid pub)
  revert hfresh
  unfold Link.world
  generalize (serverStep env l.peer.server (.pubkey uid pub)).1 = out at hserved
  generalize (serverStep env l.peer.server (.pubkey uid pub)).2 = s' at hserved ⊢
  intro hfresh
  cases hserved with
  | keyed save =>
      have htouch := h hstep hfresh
      exact ⟨htouch.inbox, htouch.token, fun c hc hne => (htouch.session c hc hne).of_eq rfl rfl⟩
  | ignored => exact h hstep hfresh

theorem OnlineState.Agrees.step (h : s.Agrees env) (hssl : ssl.Lawful)
    (hissued : Issued env s.link.world) (i : OnlineInput) :
    (s.step env ssl resolve i).2.Agrees env := by
  cases i with
  | pubkey uid pub => exact fun v hv => touching_pubkey (h v hv) uid pub
  | command c reactions =>
      intro v' hv' hstep' hfresh'
      -- a token that came twice before the command still has after it
      have hfresh := hfresh'.mono (draws_step env ssl resolve s (.command c reactions)).tokens
      obtain ⟨_ | v, l⟩ := s
      · cases hv'
      · have hturn := exec_endsFirst reactions (endsFirst_turn env resolve (reactions 0) hssl hissued
          (fun hstep => h v rfl hstep hfresh) c)
        revert hv' hstep' hfresh'
        simp only [OnlineState.step]
        rcases hrun : (turn ssl v c).exec (Link.act env resolve) reactions l with ⟨e | _ | v', l'⟩
        · exact fun hv' => by cases hv'
        · exact fun hv' => by cases hv'
        · rw [hrun] at hturn
          rintro ⟨⟩
          exact hturn v' rfl

theorem agrees_connected : (OnlineState.connected w files).Agrees env := by
  rintro _ ⟨⟩ _ _
  refine ⟨rfl, fun c hc => ?_, fun _ _ hne => absurd rfl hne⟩
  cases hc
  rfl

theorem agrees_onlineAfter (hssl : ssl.Lawful) (hissued : Issued env w) (inputs : List OnlineInput) :
    (onlineAfter env ssl resolve w files inputs).Agrees env ∧
      Issued env (onlineAfter env ssl resolve w files inputs).link.world := by
  refine trace_induction (P := fun _ (s : OnlineState) => s.Agrees env ∧ Issued env s.link.world)
    ⟨agrees_connected, hissued⟩ ?_ inputs
  rintro is i ⟨hagrees, hbefore⟩
  exact ⟨hagrees.step hssl hbefore i, (draws_step env ssl resolve _ i).issued hbefore⟩

/-- The server has just started. -/
def bootedWorld : World .sqlite := (serverAfter Env.counting [.boot [] [] []]).world

def menuInput (command : Command) (byte : UInt8) : OnlineInput :=
  .command command (sampleReaction byte {})

/-- Alice and Bob register, Bob's key is written to the directory, and Alice logs in. -/
def loginInputs : List OnlineInput :=
  [ menuInput (.register (ascii "alice") (ascii "a@x") (ascii "password") (ascii "y")) 1,
    menuInput (.register (ascii "bob") (ascii "b@x") (ascii "password") (ascii "y")) 2,
    .pubkey (generateUserId (Env.counting.randomId 1)) (List.replicate 32 2),
    menuInput (.login (ascii "alice") (ascii "password")) 3 ]

/-- Alice uploads a file for Bob. -/
def uploadInput : OnlineInput := menuInput (.upload (ascii "a.pdf") (ascii "bob") (ascii "y")) 4

set_option maxRecDepth 100000 in
theorem loginInputs_state :
    let s := onlineAfter Env.counting sampleSsl id bootedWorld sampleFiles loginInputs
    s.link.inStep = true ∧
      s.vars.any (fun v => v.loggedUser == ascii "alice" && v.sessionToken != []) = true ∧
      s.link.peer.server.phase.conn.isSome = true ∧ s.link.world.tokens = 1 := by
  decide +kernel

theorem issued_bootedWorld : Issued Env.counting bootedWorld := issued_of_empty rfl

theorem freshTokens_one (env : Env) : FreshTokens env 1 := fun i hi j hj _ => by omega

/-- What the server keeps. -/
def OnlineState.world (s : OnlineState) : World .sqlite := s.link.world

/-- The call sends no commit. -/
def ClientCall.NoCommit : ClientCall → Prop
  | .sendFrame f => f.type ≠ .UPLOAD_COMMIT
  | _ => True

/-- Only a commit changes the records. -/
theorem files_send {f : Frame} (hf : f.type ≠ .UPLOAD_COMMIT) (p : Peer) :
    (p.send env f).server.world.files = p.server.world.files := by
  have hsent := sent_send env p f
  generalize p.send env f = p' at hsent
  have quiet : ∀ {c r hd}, handleFrame env f { world := p.server.world, conn := c } = (r, hd) →
      hd.world.files = p.server.world.files := fun {c r hd} hrun => by
    have handled := of_wp (handleFrame_spec env f _ c) hrun
    rcases handled.stores with ⟨hkept, -⟩ | ⟨a, _, _, huploads, -⟩
    · exact hkept.files
    · exact absurd (handled.uploads (a := a) (huploads ▸ List.mem_singleton.2 rfl)).1 hf
  cases hsent with
  | idle _ => rfl
  | refused _ => rfl
  | answered _ _ run _ => exact quiet run
  | threw _ run => exact quiet run

theorem files_act {c : ClientCall} (hc : c.NoCommit) (ρ : Reaction) (l : Link) :
    (Link.act env resolve c ρ l).2.world.files = l.world.files :=
  act_world (R := fun w w' => w'.files = w.files) (fun _ => rfl) c ρ l fun f hf => by
    subst hf
    exact files_send hc l.peer

theorem noCommit_local {α : Type} {x : Client α} (hx : x.All ClientCall.Local) :
    x.All ClientCall.NoCommit :=
  hx.mono fun c hc => by
    cases c with
    | sendFrame f => exact hc.elim
    | _ => trivial

theorem noCommit_ask {c : ClientCall} (hc : c.NoCommit) :
    (ask c : Client c.ans).All ClientCall.NoCommit := ⟨hc, fun _ => trivial⟩

/-- One exchange that is no commit, then code without the network. -/
theorem noCommit_exchange {α : Type} {f : Frame} {k : Option Frame → Client α}
    (hf : f.type ≠ .UPLOAD_COMMIT) (hk : ∀ r, (k r).All ClientCall.Local) :
    (do Client.sendFrame f; k (← Client.recvFrame) : Client α).All ClientCall.NoCommit :=
  all_bind (all_bind (noCommit_ask hf) fun failed => noCommit_local (local_throwing failed)) fun _ =>
    all_bind (noCommit_ask trivial) fun r => noCommit_local (hk r)

theorem local_newKeys (v : ClientVars) (user : Bytes) :
    (newKeys ssl v user).All ClientCall.Local :=
  all_bind (local_generateKeys ssl) fun _ => all_bind (local_savePrivKey user _) fun _ => trivial

theorem noCommit_register {user email pw answer : Bytes} :
    (register ssl v user email pw answer).All ClientCall.NoCommit := by
  unfold register
  split
  · refine all_bind (noCommit_local (local_newKeys v user)) fun _ =>
      all_bind (noCommit_ask trivial) fun _ => noCommit_exchange (by decide : MsgType.REGISTER ≠ _) fun r => ?_
    cases r with
    | none => trivial
    | some resp =>
        refine all_bind ?_ fun _ => trivial
        unfold printReply
        split
        · exact local_ask trivial
        · exact local_ask trivial
  · trivial

theorem local_ensureKeys (v : ClientVars) (user : Bytes) :
    (ensureKeys ssl v user).All ClientCall.Local := by
  refine all_bind (local_loadPrivKey user) fun priv => ?_
  cases priv with
  | some priv =>
      show Calls.All _ _
      cases v.localKeys.lookup user with
      | some kp => trivial
      | none => trivial
  | none =>
      exact all_bind (local_newKeys v user) fun _ => all_bind (local_ask trivial) fun _ => trivial

theorem noCommit_login {user pw : Bytes} : (login ssl v user pw).All ClientCall.NoCommit := by
  refine noCommit_exchange (by decide : MsgType.AUTH ≠ _) fun r => ?_
  cases r with
  | none => trivial
  | some resp =>
      show Calls.All _ (if resp.type = .AUTH then _ else _)
      split
      · exact all_bind (local_ensureKeys _ user) fun _ => all_bind (local_ask trivial) fun _ =>
          all_bind (local_ask trivial) fun _ => trivial
      · exact all_bind (local_ask trivial) fun _ => trivial

theorem noCommit_logout : (logout v).All ClientCall.NoCommit := by
  unfold ClientApp.logout
  split
  · exact all_bind (noCommit_ask trivial) fun _ => trivial
  · refine noCommit_exchange (by decide : MsgType.LOGOUT ≠ _) fun r => ?_
    cases r with
    | none => trivial
    | some resp => exact all_bind (local_ask trivial) fun _ => trivial

theorem noCommit_download {fileId outPath : Bytes} :
    (download v fileId outPath).All ClientCall.NoCommit := by
  unfold ClientApp.download
  split
  · exact noCommit_ask trivial
  · refine all_tryCatch
      (noCommit_exchange (by decide : MsgType.DOWNLOAD_REQ ≠ _) fun r => ?_) fun _ => noCommit_ask trivial
    cases r with
    | none => trivial
    | some resp =>
        show Calls.All _ (if resp.type = .DOWNLOAD_DATA then _ else _)
        split
        · exact local_saveDownload _ _ _
        · split
          · exact local_ask trivial
          · exact local_ask trivial

/-- A choice that is not the upload sends no commit. -/
theorem noCommit_turn {c : Command} (hc : ∀ filePath recipient answer,
    c ≠ .upload filePath recipient answer) : (turn ssl v c).All ClientCall.NoCommit := by
  cases c with
  | upload filePath recipient answer => exact absurd rfl (hc _ _ _)
  | register user email pw answer => exact all_bind noCommit_register fun _ => trivial
  | login user pw => exact all_bind noCommit_login fun _ => trivial
  | logout => exact all_bind noCommit_logout fun _ => trivial
  | download fileId outPath => exact all_bind noCommit_download fun _ => trivial
  | quit => trivial
  | other => trivial

/-! ## What an upload has left -/

/-- The record of one encryption: of the file that was picked, by the user who is logged in, to the
recipient that was typed.  Whoever has the private key of the cached public key reads what was
encrypted, which is shorter than `2 ^ 64` bytes as every vector is. -/
structure RecordOf (ssl : OpenSsl) (resolve : Bytes → Bytes) (v : ClientVars) (ρ : Reaction)
    (filePath recipient : Bytes) (l l' : Link) (e : Encryption) (r : FileRecord) : Prop where
  made : e.Made ssl resolve v ρ l filePath recipient
  noted : l'.disk.encrypted = l.disk.encrypted ++ [e]
  owner : ∃ u, Backend.sqlite.users.findById l'.world.users r.owner = .ok (some u) ∧
    u.username = cstr v.loggedUser
  reader : ∃ u, Backend.sqlite.users.findById l'.world.users r.recipient = .ok (some u) ∧
    u.username = cstr recipient
  blob : l'.world.blobs.lookup r.storageId = some e.out.cipher
  readable : ∀ priv : Key, v.pubCache.lookup recipient = some (ssl.publicKey priv).1 →
    e.plain.length < 2 ^ 64 →
    decryptAndVerify ssl e.out.cipher r.wrapped r.digest priv = .ok e.plain
  only : ∀ r', r' ∉ Backend.sqlite.records l.world.files →
    r' ∈ Backend.sqlite.records l'.world.files → r' = r

/-- Of a wrapped key only the nonce and the sealed bytes are looked at. -/
theorem decryptAndVerify_congr {k k' : WrappedKey} (hnonce : k.nonce = k'.nonce)
    (hbytes : k.bytes = k'.bytes) (cipher : Bytes) (d : Digest) (priv : Key) :
    decryptAndVerify ssl cipher k d priv = decryptAndVerify ssl cipher k' d priv := by
  obtain ⟨id, nonce, bytes, alg⟩ := k
  obtain ⟨id', nonce', bytes', alg'⟩ := k'
  obtain rfl : nonce = nonce' := hnonce
  obtain rfl : bytes = bytes' := hbytes
  rfl

/-- What the table keeps of the key and the digest. -/
theorem stored_key (x : FileRecord) :
    (Backend.sqlite.fileView.stored x).wrapped.nonce = x.wrapped.nonce ∧
      (Backend.sqlite.fileView.stored x).wrapped.bytes = x.wrapped.bytes ∧
      (Backend.sqlite.fileView.stored x).digest = x.digest := by
  refine ⟨FileRow.getD_bindBlob _, FileRow.getD_bindBlob _, ?_⟩
  show hexToDigest (cstr (digestToHex x.digest)) = _
  rw [cstr_of_not_mem (zero_not_mem_digestToHex _), hexToDigest_digestToHex]

theorem withAlg_key (init : UploadInit) :
    init.withAlg.wrapped.nonce = init.wrapped.nonce ∧ init.withAlg.wrapped.bytes = init.wrapped.bytes := by
  unfold UploadInit.withAlg
  split
  · exact ⟨rfl, rfl⟩
  · exact ⟨rfl, rfl⟩

/-- The user of an id that a column keeps. -/
theorem findById_stored {users : Backend.sqlite.users.State} {id : UserId} {u : User} {id' : UserId}
    (h : Backend.sqlite.users.findById users id = .ok (some u)) (hid : id'.value = cstr id.value) :
    Backend.sqlite.users.findById users id' = .ok (some u) := by
  have hvalue := Backend.sqlite.users_accounts.id_of_findById h
  obtain rfl : id' = u.id := congrArg UserId.mk (hid.trans hvalue.symm)
  exact Backend.sqlite.users_accounts.findById_text h

/-- The size that the validator let pass is that of the plaintext. -/
theorem length_plain_of_admitted {e : Encryption} {filePath : Bytes} {uploadId : RandomBytes 16}
    {w : World .sqlite} {senderId recipientId : UserId} (hlength : e.plain.length < 2 ^ 64)
    (h : Admitted env (v.uploadArgs (e.init filePath uploadId).withAlg e.out.cipher) w senderId
      recipientId) : e.plain.length < 2 ^ 32 := by
  have hcap : (e.init filePath uploadId).withAlg.size.toNat ≤ 100 * 1024 * 1024 :=
    size_le_of_validate h.validated
  have hsize : (e.init filePath uploadId).withAlg.size = UInt64.ofNat e.plain.length := by
    rw [withAlg_eq]
    rfl
  rw [hsize, UInt64.toNat_ofNat', Nat.mod_eq_of_lt hlength] at hcap
  omega

theorem UploadEnd.recordOf {ρ : Reaction} {filePath recipient : Bytes} {r : FileRecord}
    (hssl : ssl.Lawful) (h : UploadEnd env ssl resolve v ρ filePath recipient l l')
    (hnot : r ∉ Backend.sqlite.records l.world.files)
    (hmem : r ∈ Backend.sqlite.records l'.world.files) :
    ∃ e, RecordOf ssl resolve v ρ filePath recipient l l' e r := by
  cases h with
  | nothing _ stores _ =>
      rw [show l'.world.files = l.world.files from congrArg Stores.files stores] at hmem
      exact absurd hmem hnot
  | @made e uploadId l₁ made encrypted peer reports committed =>
      have hworld : l₁.world = l.world := congrArg (fun p => p.server.world) peer
      obtain ⟨w₁, res, hstores, outcome, -⟩ := committed.outcome
      rw [hworld] at hstores
      have hfiles : w₁.files = l.world.files := congrArg Stores.files hstores
      have husers : w₁.users = l.world.users := congrArg Stores.users hstores
      rw [← hfiles] at hnot
      obtain ⟨senderId, recipientId, now, admitted, hr, hblob⟩ := outcome.new_record hnot hmem
      obtain ⟨r₀, hst⟩ := outcome.stored_of_mem hnot hmem
      have hr₀ : ∀ r', r' ∉ Backend.sqlite.records w₁.files →
          r' ∈ Backend.sqlite.records l'.world.files → r' = r₀ := fun r' hnot' hmem' =>
        ((hst.records r').1 hmem').resolve_left hnot'
      have husers' : l'.world.users = l.world.users := hst.users.trans husers
      refine ⟨e, made, committed.encrypted.trans encrypted, ?_, ?_, hblob, ?_, fun r' hnot' hmem' => ?_⟩
      · -- the session of the upload is that of the client
        obtain ⟨s, hs, -, hsender⟩ := admitted.session
        obtain ⟨s', u, hs', hu, hname⟩ := committed.session
        rw [hworld] at hs' hu
        have hsame : w₁.sessions.findByToken ⟨v.sessionToken⟩ = some s' := by
          rw [show w₁.sessions = l.world.sessions from congrArg Stores.sessions hstores]
          exact hs'
        obtain rfl : s = s' := Option.some.inj (hs.symm.trans hsame)
        rw [hsender] at hu
        exact ⟨u, husers' ▸ findById_stored hu (by rw [hr]; rfl), hname⟩
      · obtain ⟨u, hu, hid⟩ := admitted.recipient
        have hname := Backend.sqlite.users_named.username trivial hu
        have hfound := Backend.sqlite.users_lawful.findById_of_findByUsername hu
        rw [husers, hid] at hfound
        refine ⟨u, husers' ▸ findById_stored hfound (by rw [hr]; rfl), hname.trans ?_⟩
        show cstr (e.init filePath uploadId).withAlg.recipient = _
        rw [withAlg_eq, ← made.sentTo]
        rfl
      · intro priv hpub hplain
        obtain ⟨random, pub, hcached, henc⟩ := made.encrypted
        obtain rfl : (ssl.publicKey priv).1 = pub := Option.some.inj (hpub.symm.trans hcached)
        obtain ⟨hnonce, hbytes, hdigest⟩ :=
          stored_key (uploadRecord env (v.uploadArgs (e.init filePath uploadId).withAlg e.out.cipher) w₁
            senderId recipientId now)
        obtain ⟨hnonce', hbytes'⟩ := withAlg_key (e.init filePath uploadId)
        have hdigest' : r.digest = e.out.digest := by
          rw [hr, hdigest]
          show (e.init filePath uploadId).withAlg.digest = _
          rw [withAlg_eq]
          rfl
        have hnonce₀ : r.wrapped.nonce = e.out.wrapped.nonce := by
          rw [hr]
          exact hnonce.trans hnonce'
        have hbytes₀ : r.wrapped.bytes = e.out.wrapped.bytes := by
          rw [hr]
          exact hbytes.trans hbytes'
        rw [hdigest', decryptAndVerify_congr hnonce₀ hbytes₀]
        exact decryptAndVerify_encrypt hssl (length_plain_of_admitted hplain admitted) henc
      · rw [← hfiles] at hnot'
        exact (hr₀ r' hnot' hmem').trans (hr₀ r hnot hmem).symm

/-- Success is reported of a record only. -/
theorem UploadEnd.reported {ρ : Reaction} {filePath recipient : Bytes}
    (h : UploadEnd env ssl resolve v ρ filePath recipient l l') (hreports : l'.reports ≠ l.reports) :
    ∃ r, r ∉ Backend.sqlite.records l.world.files ∧ r ∈ Backend.sqlite.records l'.world.files := by
  cases h with
  | nothing _ _ reports => exact absurd reports hreports
  | made _ _ peer reports committed =>
      obtain ⟨w₁, res, hstores, outcome, hreport⟩ := committed.outcome
      rw [reports] at hreport
      obtain ⟨t, rfl⟩ := hreport hreports
      obtain ⟨r, hst, -⟩ := outcome.stored_of_success
      refine ⟨r, ?_, (hst.records r).2 (.inr rfl)⟩
      have hfiles : w₁.files = l.world.files :=
        (congrArg Stores.files hstores).trans (congrArg (fun p => p.server.world.files) peer)
      rw [← hfiles]
      exact hst.new

theorem UploadEnd.drop {ρ : Reaction} {filePath recipient : Bytes}
    (h : UploadEnd env ssl resolve v ρ filePath recipient l l') :
    UploadEnd env ssl resolve v ρ filePath recipient l (l'.drop env) := by
  have hworld := drop_world env l'
  have htouch : InTouch v (l'.drop env) := .of_gone (drop_gone env l') rfl
  cases h with
  | nothing _ stores reports => exact .nothing htouch (hworld ▸ stores) reports
  | made made encrypted peer reports committed =>
      refine .made made encrypted peer reports
        ⟨htouch, committed.session, committed.encrypted, committed.uploads, ?_⟩
      rw [hworld]
      exact committed.outcome

theorem upload_step (hssl : ssl.Lawful) (hv : s.vars = some v)
    (h : s.link.inStep = true → InTouch v s.link) (filePath recipient answer : Bytes)
    (reactions : Nat → Reaction) :
    let s' := (s.step env ssl resolve (.command (.upload filePath recipient answer) reactions)).2
    s'.link.inStep = true →
      UploadEnd env ssl resolve v (reactions 0) filePath recipient s.link s'.link := by
  obtain ⟨vars, l⟩ := s
  obtain rfl : vars = some v := hv
  intro s' hstep
  -- the command ends as an upload does, and so does the turn
  have hturn : EndsFirst env resolve (reactions 0) (turn ssl v (.upload filePath recipient answer))
      (fun _ l' => UploadEnds env ssl resolve v (reactions 0) filePath recipient l l') l := by
    cases hl : l.inStep with
    | false =>
        have hout : Ends env resolve (turn ssl v (.upload filePath recipient answer))
            (fun _ l' => UploadEnds env ssl resolve v (reactions 0) filePath recipient l l') l :=
          ends_outOfStep hl fun r l' h' hstep' => by
            rw [h'] at hstep'
            cases hstep'
        exact hout.first fun _ _ => trivial
    | true =>
        refine wpcFirst_bind (fun _ _ => trivial) (wpcFirst_mono (ends_upload hssl hl (h hl)) ?_)
        rintro (e | _) l' _ hend
        · exact hend
        · exact wpc_pure trivial hend
  have hend := exec_endsFirst reactions hturn
  revert hstep
  simp only [s', OnlineState.step]
  rcases hrun : (turn ssl v (.upload filePath recipient answer)).exec (Link.act env resolve) reactions l
    with ⟨e | _ | v', l'⟩
  · rw [hrun] at hend
    exact fun hstep => (hend hstep).drop
  · rw [hrun] at hend
    exact fun hstep => (hend hstep).drop
  · rw [hrun] at hend
    exact hend

/-- Only the upload of the menu adds a record. -/
theorem files_step (env : Env) (ssl : OpenSsl) (resolve : Bytes → Bytes) (s : OnlineState)
    {i : OnlineInput} (hi : ∀ filePath recipient answer reactions,
    i ≠ .command (.upload filePath recipient answer) reactions) :
    (s.step env ssl resolve i).2.link.world.files = s.link.world.files := by
  cases i with
  | pubkey uid pub =>
      have hserved := serverStep_served env s.link.peer.server (.pubkey uid pub)
      show (serverStep env s.link.peer.server (.pubkey uid pub)).2.world.files = _
      rcases hserved.stores with ⟨hkept, -⟩ | ⟨a, _, _, huploads, -⟩
      · exact hkept.files
      · rcases hserved.output with hout | ⟨f, _, _, _, hf, -⟩
        · rw [hout] at huploads
          cases huploads
        · cases hf
  | command c reactions =>
      exact command_world (R := fun w w' => w'.files = w.files) (fun _ => rfl)
        (fun _ _ _ h h' => h'.trans h) (fun c ρ l hc => files_act hc ρ l)
        (fun v => noCommit_turn fun filePath recipient answer hc =>
          hi filePath recipient answer reactions (by rw [hc])) reactions

/-- A record that appears is that of the encryption of an upload command, and success is reported of
such a command only. -/
structure UploadArrives (ssl : OpenSsl) (resolve : Bytes → Bytes) (t : OnlineTransition) : Prop where
  record : ∀ r, Creates OnlineState.world t r →
    ∃ filePath recipient answer reactions v e,
      t.input = .command (.upload filePath recipient answer) reactions ∧ t.before.vars = some v ∧
        RecordOf ssl resolve v (reactions 0) filePath recipient t.before.link t.after.link e r
  reported : ∀ filePath recipient answer reactions,
    t.input = .command (.upload filePath recipient answer) reactions →
    t.after.link.reports ≠ t.before.link.reports →
    ∃ r, Creates OnlineState.world t r

theorem OnlineState.uploadArrives
    (h : ∀ v, s.vars = some v → s.link.inStep = true → InTouch v s.link)
    (hssl : ssl.Lawful) (i : OnlineInput)
    (hstep : (s.step env ssl resolve i).2.link.inStep = true) :
    UploadArrives ssl resolve (.of (OnlineState.step env ssl resolve) s i) where
  record r hcr := by
    by_cases hi : ∃ filePath recipient answer reactions,
        i = .command (.upload filePath recipient answer) reactions
    · obtain ⟨filePath, recipient, answer, reactions, rfl⟩ := hi
      cases hv : s.vars with
      | none =>
          -- the client has ended
          have hsame : (s.step env ssl resolve
              (.command (.upload filePath recipient answer) reactions)).2 = s := by
            simp only [OnlineState.step, hv]
          exact absurd (hsame ▸ hcr.2) hcr.1
      | some v =>
          obtain ⟨e, hrecord⟩ := (upload_step hssl hv (h v hv) filePath recipient answer reactions
            hstep).recordOf hssl hcr.1 hcr.2
          exact ⟨filePath, recipient, answer, reactions, v, e, rfl, hv, hrecord⟩
    · have hfiles := files_step env ssl resolve s fun filePath recipient answer reactions hi' =>
        hi ⟨filePath, recipient, answer, reactions, hi'⟩
      have hmem : r ∈ Backend.sqlite.records (s.step env ssl resolve i).2.link.world.files := hcr.2
      rw [hfiles] at hmem
      exact absurd hmem hcr.1
  reported filePath recipient answer reactions hi hreports := by
    obtain rfl : i = _ := hi
    cases hv : s.vars with
    | none =>
        have hsame : (s.step env ssl resolve
            (.command (.upload filePath recipient answer) reactions)).2 = s := by
          simp only [OnlineState.step, hv]
        exact absurd (congrArg (fun s : OnlineState => s.link.reports) hsame) hreports
    | some v =>
        exact (upload_step hssl hv (h v hv) filePath recipient answer reactions hstep).reported hreports

/-- In every run of a client with its server, a record that appears is of the file that was picked,
under the two names that the client knows, and readable with the recipient's key; and no success is
reported without a record. -/
theorem uploads_arrive (env : Env) (ssl : OpenSsl) (resolve : Bytes → Bytes) (w : World .sqlite)
    (files : Bytes → Option Bytes) (inputs : List OnlineInput) (hssl : ssl.Lawful)
    (hissued : Issued env w)
    (hfresh : FreshTokens env (onlineAfter env ssl resolve w files inputs).link.world.tokens) :
    ∀ t ∈ onlineTrace env ssl resolve w files inputs, t.after.link.inStep = true →
      UploadArrives ssl resolve t := by
  revert hfresh
  refine trace_induction (P := fun h (s : OnlineState) => FreshTokens env s.link.world.tokens →
    ∀ t ∈ h, t.after.link.inStep = true → UploadArrives ssl resolve t) ?_ ?_ inputs
  · exact fun _ t ht => by cases ht
  · intro is i hbefore hfresh t ht hstep
    have hfresh' : FreshTokens env (onlineAfter env ssl resolve w files is).link.world.tokens :=
      hfresh.mono (draws_step env ssl resolve _ i).tokens
    rcases List.mem_append.1 ht with ht | ht
    · exact hbefore hfresh' t ht hstep
    · obtain rfl := List.mem_singleton.1 ht
      have hagrees : (onlineAfter env ssl resolve w files is).Agrees env :=
        (agrees_onlineAfter hssl hissued is).1
      exact OnlineState.uploadArrives (fun v hv hin => hagrees v hv hin hfresh') hssl i hstep

theorem mem_onlineTrace_concat (inputs : List OnlineInput) (i : OnlineInput) :
    .of (OnlineState.step env ssl resolve) (onlineAfter env ssl resolve w files inputs) i ∈
      onlineTrace env ssl resolve w files (inputs ++ [i]) := by
  rw [onlineTrace, trace_concat]
  exact List.mem_append_right _ (List.mem_singleton.2 rfl)

theorem after_onlineAfter (inputs : List OnlineInput) (i : OnlineInput) :
    (Transition.of (OnlineState.step env ssl resolve)
      (onlineAfter env ssl resolve w files inputs) i).after =
      onlineAfter env ssl resolve w files (inputs ++ [i]) :=
  (final_concat inputs i).symm

/-- The upload of Alice, after the inputs before it. -/
def uploadTransition : OnlineTransition :=
  .of (OnlineState.step Env.counting sampleSsl id)
    (onlineAfter Env.counting sampleSsl id bootedWorld sampleFiles loginInputs) uploadInput

set_option maxRecDepth 100000 in
theorem uploadTransition_state :
    uploadTransition.after.link.inStep = true ∧
      (Backend.sqlite.records (OnlineState.world uploadTransition.before).files).isEmpty = true ∧
      (Backend.sqlite.records (OnlineState.world uploadTransition.after).files).isEmpty = false ∧
      uploadTransition.after.link.world.tokens = 1 := by
  decide +kernel

theorem uploads_arrive_uploadInput :
    uploadTransition ∈
        onlineTrace Env.counting sampleSsl id bootedWorld sampleFiles (loginInputs ++ [uploadInput]) ∧
      (∃ r, Creates OnlineState.world uploadTransition r) ∧
      UploadArrives sampleSsl id uploadTransition := by
  have hmem : uploadTransition ∈
      onlineTrace Env.counting sampleSsl id bootedWorld sampleFiles (loginInputs ++ [uploadInput]) :=
    mem_onlineTrace_concat loginInputs uploadInput
  obtain ⟨hstep, hbefore, hafter, htokens⟩ := uploadTransition_state
  have hfresh : FreshTokens Env.counting (onlineAfter Env.counting sampleSsl id bootedWorld
      sampleFiles (loginInputs ++ [uploadInput])).link.world.tokens := by
    have hlast : uploadTransition.after = onlineAfter Env.counting sampleSsl id bootedWorld
        sampleFiles (loginInputs ++ [uploadInput]) :=
      after_onlineAfter loginInputs uploadInput
    rw [← hlast, htokens]
    exact freshTokens_one _
  refine ⟨hmem, ?_, uploads_arrive Env.counting sampleSsl id bootedWorld sampleFiles
    (loginInputs ++ [uploadInput]) sampleSsl_lawful issued_bootedWorld hfresh uploadTransition hmem
    hstep⟩
  obtain ⟨r, hr⟩ := List.exists_mem_of_ne_nil _ (List.isEmpty_eq_false_iff.1 hafter)
  refine ⟨r, ?_, hr⟩
  rw [List.isEmpty_iff.1 hbefore]
  exact List.not_mem_nil

end SecureFileTransfer
