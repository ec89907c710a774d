import SecureFileTransfer.LiveSessions
import SecureFileTransfer.Online
import SecureFileTransfer.OneUser
import SecureFileTransfer.Privilege

/-!
# OnlineAgreement — client and server agree on who is logged in

The client keeps the token it was given and the name that was typed; the server keeps the token of
the connection and the user of the session.  After every command, and wherever the connection broke
on the way, a server that still serves the client has the client's token, and its session is that
of the user with the client's name.  A login whose audit record throws leaves a session that nobody
is told of: it does no harm as long as its token is a new one.
-/

namespace SecureFileTransfer

open Prog Service Handler Calls Runs ClientApp AsioTlsTransport

variable {env : Env} {w w' : World .sqlite}

/-! ## Whose session it is -/

/-- The token is known, and its user has the name, as far as a column keeps it. -/
def SessionOf (w : World .sqlite) (token name : Bytes) : Prop :=
  ∃ s u, w.sessions.findByToken ⟨token⟩ = some s ∧
    Backend.sqlite.users.findById w.users s.userId = .ok (some u) ∧ u.username = cstr name

section SessionOf

variable {token name : Bytes}

theorem SessionOf.of_eq (h : SessionOf w token name) (husers : w'.users = w.users)
    (hsessions : w'.sessions = w.sessions) : SessionOf w' token name := by
  rw [SessionOf, husers, hsessions]
  exact h

/-- A rewrite that leaves the names alone. -/
theorem SessionOf.rewrites {id : UserId} {g : User → User} (h : SessionOf w token name)
    (hrw : Backend.sqlite.users.Rewrites id g w.users w'.users)
    (hg : ∀ v, (g v).username = v.username) (hsessions : w'.sessions = w.sessions) :
    SessionOf w' token name := by
  obtain ⟨s, u, hs, hu, hname⟩ := h
  refine ⟨s, _, hsessions ▸ hs, hrw.findById_some hu, ?_⟩
  rw [← hname, User.rewrite]
  split
  · exact hg u
  · rfl

theorem exists_invalidate {st : MemorySessionStore} {tok tok' : SessionId} {s : Session}
    (h : st.findByToken tok = some s) :
    ∃ s', (st.invalidate tok').findByToken tok = some s' ∧ s'.userId = s.userId := by
  unfold MemorySessionStore.invalidate
  cases hfind : st.findByToken tok' with
  | none => exact ⟨s, h, rfl⟩
  | some s₀ =>
      simp only [MemorySessionStore.findByToken, Table.lookup_insert_eq]
      split
      · rename_i heq
        -- the two tokens have one entry
        have hsame : st.findByToken tok = st.findByToken tok' := by
          unfold MemorySessionStore.findByToken
          rw [heq]
        rw [h, hfind] at hsame
        cases hsame
        exact ⟨_, rfl, rfl⟩
      · exact ⟨s, h, rfl⟩

theorem exists_invalidateAllForUser {st : MemorySessionStore} {tok : SessionId} {s : Session}
    (u : UserId) (h : st.findByToken tok = some s) :
    ∃ s', (st.invalidateAllForUser u).findByToken tok = some s' ∧ s'.userId = s.userId := by
  refine ⟨MemorySessionStore.revokeFor u s, ?_, MemorySessionStore.userId_revokeFor u s⟩
  have hlookup : st.byHash.lookup (MemorySessionStore.hashToken tok.value) = some s := h
  show (st.byHash.mapValues _).lookup _ = _
  rw [Table.lookup_mapValues, hlookup]
  rfl

/-- A session of the same user in the place of the session. -/
theorem SessionOf.of_sessions (h : SessionOf w token name) (husers : w'.users = w.users)
    (hsessions : ∀ s, w.sessions.findByToken ⟨token⟩ = some s →
      ∃ s', w'.sessions.findByToken ⟨token⟩ = some s' ∧ s'.userId = s.userId) :
    SessionOf w' token name := by
  obtain ⟨s, u, hs, hu, hname⟩ := h
  obtain ⟨s', hs', hid⟩ := hsessions s hs
  exact ⟨s', u, hs', by rw [husers, hid]; exact hu, hname⟩

/-- No call but one that opens a session can take the session away. -/
theorem AccountStep.sessionOf {call : ServiceCall} (h : AccountStep env w w' call)
    (hcall : ∀ u pw, call ≠ .login u pw) (hs : SessionOf w token name) :
    SessionOf w' token name := by
  cases h with
  | kept users sessions => exact hs.of_eq users sessions
  | registered _ _ adds sessions =>
      obtain ⟨s, u, hfind, hu, hname⟩ := hs
      exact ⟨s, u, sessions ▸ hfind, adds.findById_some hu, hname⟩
  | counted => exact absurd rfl (hcall _ _)
  | opened => exact absurd rfl (hcall _ _)
  | loggedOut users sessions =>
      refine hs.of_sessions users fun s hfind => ?_
      rw [sessions]
      exact exists_invalidate hfind
  | activated _ _ rewrites sessions => exact hs.rewrites rewrites (fun _ => rfl) sessions
  | @deactivated _ tgt user call found notLast rewrites sessions =>
      rcases sessions with hall | ⟨hsame, -⟩
      · have hrewritten : SessionOf { w' with sessions := w.sessions } token name :=
          hs.rewrites rewrites (fun _ => rfl) rfl
        refine hrewritten.of_sessions rfl fun s hfind => ?_
        rw [hall]
        exact exists_invalidateAllForUser tgt hfind
      · exact hs.rewrites rewrites (fun _ => rfl) hsame

/-- Nor can a frame that is no login. -/
theorem Handled.sessionOf {f : Frame} {c : Conn} {r : Except Exn Unit} {hd : Handling}
    (h : Handled env f w c r hd) (htype : f.type ≠ .AUTH) (hs : SessionOf w token name) :
    SessionOf hd.world token name := by
  have quiet : ∀ {w'}, Quiet w w' → SessionOf w' token name := fun hq =>
    hs.of_eq (congrArg Stores.users hq.stores :) (congrArg Stores.sessions hq.stores :)
  cases h with
  | refused hq _ => exact quiet hq
  | listed => exact hs
  | registered _ _ run =>
      exact (of_wp (registerUser_account _ _ _ _) run).sessionOf (fun _ _ heq => by cases heq) hs
  | authenticated type _ _ => exact absurd type htype
  | loggedOut _ run =>
      exact (of_wp (logout_spec _) run).account.sessionOf (fun _ _ heq => by cases heq) hs
  | logoutThrew _ run =>
      exact (of_wp (logout_spec _) run).account.sessionOf (fun _ _ heq => by cases heq) hs
  | administered _ _ run =>
      unfold adminAction at run
      split at run
      · exact (of_wp (activate_account _ _) run).sessionOf (fun _ _ heq => by cases heq) hs
      · exact (of_wp (deactivate_account _ _) run).sessionOf (fun _ _ heq => by cases heq) hs
  | announced _ _ _ _ hq => exact quiet hq
  | appended _ _ _ _ => exact hs
  | committed _ _ _ _ _ hq run =>
      obtain ⟨husers, hsessions⟩ := (of_wp (upload_spec _) run).accounts_eq
      exact (quiet hq).of_eq husers hsessions
  | downloaded _ _ run => exact quiet (of_wp (download_spec _ _) run).quiet

/-- A login that does not succeed leaves the sessions of others, if the tokens it draws are new; one
that does opens a session of the user with the name that was typed. -/
theorem LoginOutcome.sessionOf {u pw : Bytes} {r : Except Exn (Result SessionId)}
    (h : LoginOutcome env u pw w r w') :
    (∃ tok, r = .ok (.success tok) ∧ tok.value ≠ [] ∧ SessionOf w' tok.value u) ∨
      (Failed r ∧ (Issued env w → FreshTokens env w'.tokens →
        ∀ token name, SessionOf w token name → SessionOf w' token name)) := by
  cases h with
  | refused failed stores _ =>
      refine .inr ⟨failed, fun _ _ token name hs => ?_⟩
      exact hs.of_eq (congrArg Stores.users stores :) (congrArg Stores.sessions stores :)
  | @counted user users now failed found write stores _ =>
      refine .inr ⟨failed, fun _ _ token name hs => ?_⟩
      have hfound := Backend.sqlite.users_lawful.findById_of_findByUsername found
      have husers : w'.users = users := congrArg Stores.users stores
      rcases write with hwrite | hwrite
      · obtain ⟨s', hs', hrw⟩ := Backend.sqlite.users_accounts.recordLoginFailure now hfound
        obtain rfl : users = s' := Except.ok.inj (hwrite.symm.trans hs')
        rw [← husers] at hrw
        exact hs.rewrites hrw (fun _ => rfl) (congrArg Stores.sessions stores :)
      · obtain ⟨s', hs', hrw⟩ := Backend.sqlite.users_accounts.resetLoginFailures hfound
        obtain rfl : users = s' := Except.ok.inj (hwrite.symm.trans hs')
        rw [← husers] at hrw
        exact hs.rewrites hrw (fun _ => rfl) (congrArg Stores.sessions stores :)
  | @opened user users st admitted write create stores _ htokens _ result =>
      have hfound := Backend.sqlite.users_lawful.findById_of_findByUsername admitted.found
      obtain ⟨s', hs', hrw⟩ := Backend.sqlite.users_accounts.resetLoginFailures hfound
      obtain rfl : users = s' := Except.ok.inj (write.symm.trans hs')
      have husers : w'.users = users := congrArg Stores.users stores
      have hsessions : w'.sessions = st := congrArg Stores.sessions stores
      rw [← husers] at hrw
      rcases result with rfl | ⟨e, rfl, -⟩
      · refine .inl ⟨_, rfl, ?_, ?_⟩
        · intro hnil
          have hlength := length_sessionToken (env.randomToken w.tokens)
          rw [hnil] at hlength
          cases hlength
        have hname := Backend.sqlite.users_named.username trivial admitted.found
        obtain ⟨s, hnew, huser, -⟩ := MemorySessionStore.findByToken_createForUser create
        refine ⟨s, user.setLockout 0 0, ?_, ?_, hname⟩
        · rw [hsessions]
          exact hnew
        · rw [huser]
          have hrewritten := hrw.findById_some hfound
          rw [User.rewrite, if_pos rfl] at hrewritten
          exact hrewritten
      · -- the event was not recorded: the session is there, and its token is lost
        refine .inr ⟨by simp [Failed], fun hissued hfresh token name hs => ?_⟩
        have hrewritten : SessionOf { w' with sessions := w.sessions } token name :=
          hs.rewrites hrw (fun _ => rfl) rfl
        refine hrewritten.of_sessions rfl fun s hfind => ⟨s, ?_, rfl⟩
        rw [hsessions]
        exact lookup_createForUser_of_fresh create hissued (htokens ▸ hfresh) hfind

end SessionOf

/-! ## Tokens -/

/-- No token is taken back, and the sessions stay under tokens that were drawn. -/
structure Draws (env : Env) (w w' : World .sqlite) : Prop where
  tokens : w.tokens ≤ w'.tokens
  issued : Issued env w → Issued env w'

theorem Draws.refl (w : World .sqlite) : Draws env w w := ⟨le_rfl, id⟩

theorem Draws.trans {w₁ w₂ w₃ : World .sqlite} (h : Draws env w₁ w₂) (h' : Draws env w₂ w₃) :
    Draws env w₁ w₃ :=
  ⟨h.tokens.trans h'.tokens, fun hissued => h'.issued (h.issued hissued)⟩

theorem Handled.tokens_le {f : Frame} {c : Conn} {r : Except Exn Unit} {hd : Handling}
    (h : Handled env f w c r hd) : w.tokens ≤ hd.world.tokens := by
  cases h with
  | refused hq _ => exact hq.tokens.ge
  | listed => exact le_rfl
  | registered _ _ run => exact (of_wp (registerUser_spec _ _ _ _) run).tokens_le
  | authenticated _ _ run => exact (of_wp (login_spec _ _) run).tokens_le
  | loggedOut _ run => exact (of_wp (logout_spec _) run).tokens_le
  | logoutThrew _ run => exact (of_wp (logout_spec _) run).tokens_le
  | administered _ _ run =>
      unfold adminAction at run
      split at run
      · exact (of_wp (activate_spec _ _) run).1.tokens_le
      · exact (of_wp (deactivate_spec _ _) run).1.tokens_le
  | announced _ _ _ _ hq => exact hq.tokens.ge
  | appended _ _ _ _ => exact le_rfl
  | committed _ _ _ _ _ hq run => exact hq.tokens.ge.trans (of_wp (upload_spec _) run).tokens_le
  | downloaded _ _ run => exact (of_wp (download_spec _ _) run).quiet.tokens.ge

theorem Handled.draws {f : Frame} {c : Conn} {r : Except Exn Unit} {hd : Handling}
    (h : Handled env f w c r hd) : Draws env w hd.world := by
  obtain ⟨call, -, hstep⟩ := h.account
  exact ⟨h.tokens_le, hstep.issued h.tokens_le⟩

theorem draws_send (env : Env) (p : Peer) (f : Frame) :
    Draws env p.server.world (p.send env f).server.world := by
  have hsent := sent_send env p f
  generalize p.send env f = p' at hsent
  cases hsent with
  | idle _ => exact .refl _
  | refused _ => exact .refl _
  | answered _ _ run _ => exact (of_wp (handleFrame_spec env f _ _) run).draws
  | threw _ run => exact (of_wp (handleFrame_spec env f _ _) run).draws

/-! ## In touch -/

variable {resolve : Bytes → Bytes} {ssl : OpenSsl} {v v' : ClientVars} {l l' : Link} {f : Frame}

/-- Between two commands: nothing is unread, and a server that serves the client has its token, of
a session in the client's name. -/
structure InTouch (v : ClientVars) (l : Link) : Prop where
  inbox : l.peer.inbox = []
  token : ∀ c, l.peer.server.phase = .serving c → c.connToken = v.sessionToken
  session : ∀ c, l.peer.server.phase = .serving c → v.sessionToken ≠ [] →
    SessionOf l.world v.sessionToken v.loggedUser

/-- A connection that is gone has nothing to agree on. -/
theorem InTouch.of_gone (hgone : l.peer.server.phase.conn = none) (hinbox : l.peer.inbox = []) :
    InTouch v l where
  inbox := hinbox
  token c hc := by
    rw [hc] at hgone
    cases hgone
  session c hc := by
    rw [hc] at hgone
    cases hgone

theorem InTouch.of_vars (h : InTouch v l) (htoken : v'.sessionToken = v.sessionToken)
    (huser : v'.loggedUser = v.loggedUser) : InTouch v' l where
  inbox := h.inbox
  token := by
    rw [htoken]
    exact h.token
  session := by
    rw [htoken, huser]
    exact h.session

theorem InTouch.apart (h : InTouch v l) (hl : Apart l l') : InTouch v l' := by
  obtain ⟨disk', peer', printed', inStep'⟩ := l'
  obtain rfl : peer' = l.peer := hl.peer
  exact ⟨h.inbox, h.token, h.session⟩

/-- The token of a connection changes with a login or a logout only. -/
theorem Handled.connToken {c : Conn} {r : Except Exn Unit} {hd : Handling}
    (h : Handled env f w c r hd) (hauth : f.type ≠ .AUTH) (hlogout : f.type ≠ .LOGOUT) :
    hd.conn.connToken = c.connToken := by
  cases h with
  | authenticated type _ _ => exact absurd type hauth
  | loggedOut type _ => exact absurd type hlogout
  | @committed init data w₁ r w' _ _ _ _ _ _ _ =>
      unfold Conn.committed
      split
      · rfl
      · rfl
  | _ => rfl

/-- The client and the server are in touch, unless a reply was rejected or a token came twice. -/
def Touching (env : Env) (v : ClientVars) (l : Link) : Prop :=
  l.inStep = true → FreshTokens env l.world.tokens → InTouch v l

/-- An exchange about something else keeps them in touch. -/
theorem InTouch.exchange {r : Option Frame} (h : InTouch v l) (hauth : f.type ≠ .AUTH)
    (hlogout : f.type ≠ .LOGOUT) (hx : Exchange env f l r l') (hstep : l'.inStep = true) :
    InTouch v l' := by
  cases hx with
  | @answered c reply hd _ serving run sent =>
      have handled := of_wp (handleFrame_spec env f l.world c) run
      refine ⟨rfl, fun c' hc' => ?_, fun c' hc' hne => ?_⟩
      · obtain rfl : hd.conn = c' := Phase.serving.inj hc'
        exact (handled.connToken hauth hlogout).trans (h.token c serving)
      · exact handled.sessionOf hauth (h.session c serving hne)
  | lost gone inbox _ _ _ => exact .of_gone gone inbox
  | outOfStep rejected =>
      rw [rejected] at hstep
      cases hstep

/-- What a command has to show of the variables it returns. -/
def TurnTouches (env : Env) (r : Except Exn ClientVars) (l : Link) : Prop :=
  ∀ v, r = .ok v → Touching env v l

theorem turnTouches_error (e : Exn) : TurnTouches env (.error e) l := by
  intro v h
  cases h

theorem turnTouches_ok (h : Touching env v l) : TurnTouches env (.ok v) l := by
  intro v' h'
  cases h'
  exact h

theorem Touching.of_inStep (h : l.inStep = true → InTouch v l) : Touching env v l :=
  fun hstep _ => h hstep

theorem Touching.apart (h : Touching env v l) (hl : Apart l l') : Touching env v l' :=
  fun hstep hfresh => (h (hl.inStep ▸ hstep) (hl.world ▸ hfresh)).apart hl

/-! ## Register, Login, Logout, Download -/

/-- Code without the network that ends a command with the variables as they are. -/
theorem ends_local_vars {x : Client Unit} (hx : x.All ClientCall.Local) (h : Touching env v l) :
    Ends env resolve (do x; pure v) (TurnTouches env) l :=
  ends_local_bind hx (fun _ _ _ => turnTouches_error _) fun _ _ hl =>
    wpc_pure trivial (turnTouches_ok (h.apart hl))

/-- New keys are not the server's business. -/
theorem ends_newKeys_bind {β : Type} {k : ClientVars → Client β} {Q : Except Exn β → Link → Prop}
    {user : Bytes} (herror : ∀ e l', Apart l l' → Q (.error e) l')
    (hk : ∀ kp l', Apart l l' → Ends env resolve (k (v.setKeys user kp)) Q l') :
    Ends env resolve (newKeys ssl v user >>= k) Q l := by
  refine wpc_bind (ends_local_bind (local_generateKeys ssl) herror fun kp l₁ h₁ => ?_)
  refine ends_local_bind (local_savePrivKey user kp.priv) (fun e l₂ h₂ => herror e l₂ (h₁.trans h₂))
    fun _ l₂ h₂ => ?_
  exact wpc_pure trivial (hk kp l₂ (h₁.trans h₂))

theorem ends_register {user email pw answer : Bytes} (hstep : l.inStep = true) (h : InTouch v l) :
    Ends env resolve (register ssl v user email pw answer) (TurnTouches env) l := by
  refine wpc_ite (fun _ => ?_) fun _ => wpc_pure trivial (turnTouches_ok fun _ _ => h)
  refine ends_newKeys_bind (fun _ _ _ => turnTouches_error _) fun kp l₁ h₁ => ?_
  refine ends_local_bind (local_ask trivial) (fun _ _ _ => turnTouches_error _) fun _ l₂ h₂ => ?_
  have hl := h₁.trans h₂
  have h₃ : InTouch (v.setKeys user kp) l₂ := (h.apart hl).of_vars rfl rfl
  refine ends_exchange (hl.inStep.trans hstep) h₃.inbox (fun _ => turnTouches_error _)
    fun r l₃ hx => ?_
  have hkept : Touching env _ l₃ := .of_inStep (h₃.exchange (by decide : MsgType.REGISTER ≠ .AUTH)
    (by decide : MsgType.REGISTER ≠ .LOGOUT) hx)
  cases r with
  | none => exact wpc_pure trivial (turnTouches_ok hkept)
  | some resp =>
      refine ends_local_vars ?_ hkept
      unfold printReply
      split
      · exact local_ask trivial
      · exact local_ask trivial

theorem ends_ensureKeys_bind {β : Type} {k : ClientVars → Client β}
    {Q : Except Exn β → Link → Prop} {user : Bytes} (herror : ∀ e l', Apart l l' → Q (.error e) l')
    (hk : ∀ v' l', v'.sessionToken = v.sessionToken → v'.loggedUser = v.loggedUser → Apart l l' →
      Ends env resolve (k v') Q l') :
    Ends env resolve (ensureKeys ssl v user >>= k) Q l := by
  refine wpc_bind (ends_local_bind (local_loadPrivKey user) herror fun priv l₁ h₁ => ?_)
  cases priv with
  | some priv =>
      show wpc _ _ _ _ _ l₁
      cases v.localKeys.lookup user with
      | some kp => exact wpc_pure trivial (hk _ l₁ rfl rfl h₁)
      | none => exact wpc_pure trivial (hk _ l₁ rfl rfl h₁)
  | none =>
      refine ends_newKeys_bind (fun e l₂ h₂ => herror e l₂ (h₁.trans h₂)) fun kp l₂ h₂ => ?_
      refine ends_local_bind (local_ask trivial)
        (fun e l₃ h₃ => herror e l₃ ((h₁.trans h₂).trans h₃)) fun _ l₃ h₃ => ?_
      exact wpc_pure trivial (hk _ l₃ rfl rfl ((h₁.trans h₂).trans h₃))

/-- The frame of a login. -/
def loginFrame (user pw : Bytes) : Frame where
  type := .AUTH
  requestId := 2
  body := encodeLogin ⟨user, pw⟩

/-- What the client keeps of the reply to a login. -/
def ClientVars.afterLogin (v : ClientVars) (user : Bytes) : Option Frame → ClientVars
  | some resp =>
      if resp.type = .AUTH then { v with sessionToken := resp.body, loggedUser := user } else v
  | none => v

theorem decode_loginFrame {user pw : Bytes} (hfits : (loginFrame user pw).body.length ≤ maxBody) :
    decodeLogin (loginFrame user pw).body = .ok ⟨user, pw⟩ := by
  refine (PayloadKind.decode_ok_iff (k := .login)).2 ⟨⟨user, pw⟩, ?_, List.prefix_refl _, rfl⟩
  have hlength : (encodeLogin ⟨user, pw⟩).length ≤ maxBody := hfits
  simp only [encodeLogin, List.length_append, length_putBytesWithLen, maxBody] at hlength
  show Fits user ∧ Fits pw
  unfold Fits
  omega

/-- A login keeps client and server in touch: both take the new token, or neither does. -/
theorem InTouch.login {user pw : Bytes} {r : Option Frame} (h : InTouch v l)
    (hissued : Issued env l.world) (hx : Exchange env (loginFrame user pw) l r l') :
    Touching env (v.afterLogin user r) l' := by
  intro hstep hfresh
  cases hx with
  | lost gone inbox _ _ _ => exact .of_gone gone inbox
  | outOfStep rejected =>
      rw [rejected] at hstep
      cases hstep
  | @answered c reply hd fits serving run sent =>
      -- a reply of another type, and the connection and its session as they were
      have unchanged : reply.type ≠ .AUTH → hd.conn = c →
          (v.sessionToken ≠ [] → SessionOf hd.world v.sessionToken v.loggedUser) →
          InTouch (v.afterLogin user (some reply)) (l.answered hd) := by
        intro htype hconn hsession
        rw [ClientVars.afterLogin, if_neg htype]
        refine ⟨rfl, fun c' hc' => ?_, fun _ _ => hsession⟩
        obtain rfl : hd.conn = c' := Phase.serving.inj hc'
        rw [hconn]
        exact h.token c serving
      have quiet : ∀ {w'}, Quiet l.world w' → v.sessionToken ≠ [] →
          SessionOf w' v.sessionToken v.loggedUser := fun hq hne =>
        (h.session c serving hne).of_eq (congrArg Stores.users hq.stores :)
          (congrArg Stores.sessions hq.stores :)
      cases of_wp (handleFrame_spec env _ l.world c) run with
      | refused hq _ =>
          obtain rfl := List.singleton_inj.1 sent
          exact unchanged (by decide : MsgType.ERR ≠ .AUTH) rfl (quiet hq)
      | listed =>
          obtain rfl := List.singleton_inj.1 sent
          exact unchanged (by decide : MsgType.LIST ≠ .AUTH) rfl (h.session c serving)
      | @authenticated pl res w' _ decoded login =>
          obtain rfl := List.singleton_inj.1 sent
          obtain rfl : ⟨user, pw⟩ = pl := Except.ok.inj ((decode_loginFrame fits).symm.trans decoded)
          rcases (of_wp (login_spec user pw) login).sessionOf with
            ⟨tok, rfl, hne, hsession⟩ | ⟨failed, hkept⟩
          · -- the token of the reply is that of the connection
            refine ⟨rfl, fun c' hc' => ?_, fun _ _ _ => hsession⟩
            obtain rfl : c.authenticated (.ok (.success tok)) = c' := Phase.serving.inj hc'
            rfl
          · refine unchanged ?_ ?_ fun hne => hkept hissued hfresh _ _ (h.session c serving hne)
            · rcases res with e | ⟨tok | text⟩
              · exact (by decide : MsgType.ERR ≠ .AUTH)
              · exact absurd rfl (failed tok)
              · exact (by decide : MsgType.ERR ≠ .AUTH)
            · rcases res with e | ⟨tok | text⟩
              · rfl
              · exact absurd rfl (failed tok)
              · rfl
      | registered type _ _ => cases type
      | loggedOut type _ => cases type
      | administered type _ _ => rcases type with type | type <;> cases type
      | announced type _ _ _ _ => cases type
      | appended type _ _ _ => cases type
      | committed type _ _ _ _ _ _ => cases type
      | downloaded type _ _ => cases type

/-- A known token is logged out, unless a call throws. -/
theorem logout_known {tok : SessionId} (hknown : (w.sessions.findByToken tok).isSome = true) :
    wp (Service.logout env tok) (fun r _ => ∀ ok, r = .ok ok → ok = true) w := by
  unfold Service.logout
  refine wp_invalidate_bind (fun e w₁ _ ok h => by cases h) fun w₁ _ _ => ?_
  refine wp_ite (fun _ => ?_) fun hunknown => absurd hknown hunknown
  refine wp_record_success fun r w' _ hr ok hok => ?_
  rcases hr with rfl | ⟨e, rfl, -⟩
  · exact (Except.ok.inj hok).symm
  · cases hok

theorem handleLogout_conn (htype : f.type = .LOGOUT) {c : Conn}
    (hknown : (w.sessions.findByToken ⟨f.body⟩).isSome = true) :
    wp (handleFrame env f) (fun r hd => r = .ok () → hd.conn = c.loggedOut f.body true)
      { world := w, conn := c } := by
  rw [handleFrame_logout htype, handleLogout]
  refine wp_service_bind fun r w' hrun => ?_
  rcases r with e | ok
  · exact fun h => by cases h
  · obtain rfl : ok = true := of_wp (logout_known hknown) hrun ok rfl
    rw [wpBind_ok, if_pos rfl]
    rw [wp_bind, Handler.sendFrame, wp_modifyGet, wpBind_ok, wp_bind, conn, wp_ask, wpBind_ok]
    refine wp_ite (fun htok _ => ?_) fun htok _ => ?_
    · rw [Conn.loggedOut, if_pos ⟨rfl, htok⟩]
      rfl
    · rw [Conn.loggedOut, if_neg (fun h => htok h.2)]
      rfl

theorem ends_login {user pw : Bytes} (hissued : Issued env l.world) (hstep : l.inStep = true)
    (h : InTouch v l) :
    Ends env resolve (login ssl v user pw) (TurnTouches env) l := by
  refine ends_exchange (f := loginFrame user pw) hstep h.inbox (fun _ => turnTouches_error _)
    fun r l₁ hx => ?_
  have hkept := h.login hissued hx
  cases r with
  | none => exact wpc_pure trivial (turnTouches_ok hkept)
  | some resp =>
      rw [ClientVars.afterLogin] at hkept
      refine wpc_ite (fun htype => ?_) fun htype => ?_
      · rw [if_pos htype] at hkept
        refine ends_ensureKeys_bind (fun _ _ _ => turnTouches_error _) fun v' l₂ htoken huser h₂ => ?_
        have hsame : Touching env v' l₂ := fun hs hfresh =>
          (hkept.apart h₂ hs hfresh).of_vars htoken huser
        exact ends_local_bind (local_ask trivial) (fun _ _ _ => turnTouches_error _) fun _ l₃ h₃ =>
          ends_local_vars (local_ask trivial) (hsame.apart h₃)
      · rw [if_neg htype] at hkept
        exact ends_local_vars (local_ask trivial) hkept

theorem ends_logout (hstep : l.inStep = true) (h : InTouch v l) :
    Ends env resolve (logout v) (TurnTouches env) l := by
  refine wpc_ite (fun _ => ends_local_vars (local_ask trivial) fun _ _ => h) fun hne => ?_
  refine ends_exchange (f := { type := .LOGOUT, requestId := 3, body := v.sessionToken }) hstep
    h.inbox (fun _ => turnTouches_error _) fun r l₁ hx => ?_
  have hgone : l₁.peer.server.phase.conn = none → l₁.peer.inbox = [] → ∀ v' : ClientVars,
      Touching env v' l₁ := fun hgone hinbox v' _ _ => .of_gone hgone hinbox
  cases hx with
  | lost gone inbox _ _ _ => exact wpc_pure trivial (turnTouches_ok (hgone gone inbox v))
  | outOfStep rejected =>
      refine ends_outOfStep rejected fun r l₂ h₂ v' _ hstep' => ?_
      rw [h₂] at hstep'
      cases hstep'
  | @answered c reply hd _ serving run sent =>
      refine ends_local_bind (local_ask trivial) (fun _ _ _ => turnTouches_error _) fun _ l₂ h₂ => ?_
      refine wpc_pure trivial
        (turnTouches_ok (Touching.apart (l := l.answered hd) (fun _ _ => ?_) h₂))
      -- the session is known, so the token of the connection is dropped with the client's
      obtain ⟨s, -, hs, -⟩ := h.session c serving hne
      have hconn := of_wp (handleLogout_conn (w := l.world) (c := c)
        (f := { type := .LOGOUT, requestId := 3, body := v.sessionToken }) rfl
        (by rw [hs]; rfl)) run rfl
      rw [Conn.loggedOut, if_pos ⟨rfl, h.token c serving⟩] at hconn
      refine ⟨rfl, fun c' hc' => ?_, fun _ _ hne' => absurd rfl hne'⟩
      obtain rfl : hd.conn = c' := Phase.serving.inj hc'
      rw [hconn]

/-- Code without the network, in a command that leaves the variables alone. -/
theorem ends_local_touching {α : Type} {x : Client α} (hx : x.All ClientCall.Local)
    (h : Touching env v l) : Ends env resolve x (fun _ l' => Touching env v l') l :=
  wpc_mono (ends_local hx) fun _ _ _ hl => h.apart hl

theorem local_saveDownload (v : ClientVars) (outPath body : Bytes) :
    (saveDownload v outPath body).All ClientCall.Local := by
  unfold saveDownload
  split
  · exact local_ask trivial
  · refine all_bind (local_loadPrivKey _) fun priv => ?_
    split
    · exact local_ask trivial
    · exact all_bind (local_writeFileBytes _ _) fun _ => local_ask trivial

theorem touching_drop : Touching env v (l.drop env) :=
  fun _ _ => .of_gone (drop_gone env l) rfl

theorem ends_download {fileId outPath : Bytes} (hstep : l.inStep = true) (h : InTouch v l) :
    Ends env resolve (download v fileId outPath) (fun _ l' => Touching env v l') l := by
  refine wpc_ite (fun _ => ends_local_touching (local_ask trivial) fun _ _ => h) fun _ => ?_
  refine wpc_tryCatch (wpc_mono (Q := fun _ l' => Touching env v l') ?_ ?_)
  · refine ends_exchange
      (f := { type := .DOWNLOAD_REQ, requestId := 5, body := encodeDownloadReq ⟨fileId, v.sessionToken⟩ })
      hstep h.inbox (fun _ => touching_drop) fun r l₁ hx => ?_
    have hkept : Touching env v l₁ :=
      .of_inStep (h.exchange (by decide : MsgType.DOWNLOAD_REQ ≠ .AUTH)
        (by decide : MsgType.DOWNLOAD_REQ ≠ .LOGOUT) hx)
    cases r with
    | none => exact wpc_pure trivial hkept
    | some resp =>
        refine wpc_ite (fun _ => ends_local_touching (local_saveDownload _ _ _) hkept) fun _ => ?_
        refine wpc_ite (fun _ => ?_) fun _ => ?_
        · exact ends_local_touching (local_ask trivial) hkept
        · exact ends_local_touching (local_ask trivial) hkept
  · rintro (e | _) l₁ _ hkept
    · exact ends_local_touching (local_ask trivial) hkept
    · exact hkept

end SecureFileTransfer
