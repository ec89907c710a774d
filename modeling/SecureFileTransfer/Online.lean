import SecureFileTransfer.AccountSteps
import SecureFileTransfer.ClientKeys
import SecureFileTransfer.OneReply
import SecureFileTransfer.UploadDelivery

/-!
# Online — the menu of the client with the server at the other end

A command of the menu, every call of it: what it sends is handled by the server, the reply waits
until it reads it, and the connection can break at any call.  A reply beyond the limit is rejected
by the client's transport, which goes on reading in the middle of it, so that anything may come of
the calls after that.  As long as this has not happened, client and server agree on the session.
-/

namespace SecureFileTransfer

open Prog Service Handler Calls Runs ClientApp AsioTlsTransport

/-! ## Client and server together -/

/-- What the calls of the client act on. -/
structure Link where
  disk : ClientDisk
  peer : Peer
  printed : List Line := []
  /-- No reply was rejected so far. -/
  inStep : Bool := true

namespace Link

def world (l : Link) : World .sqlite := l.peer.server.world

/-- The connection breaks: the server's next `recvFrame` is refused. -/
def drop (env : Env) (l : Link) : Link :=
  { l with
    peer :=
      { l.peer with
        server := (serverStep env l.peer.server .hangup).2
        inbox := [] } }

/-- `transport.recvFrame`, on a connection that holds. -/
def receive (l : Link) : Option Frame × Link :=
  match l.peer.inbox with
  | [] => (none, l)
  | reply :: rest =>
      if reply.body.length ≤ maxBody then
        (some reply, { l with peer := { l.peer with inbox := rest } })
      else
        (none, { l with peer := { l.peer with inbox := rest }, inStep := false })

/-- A call that is not about the network. -/
def onDisk (resolve : Bytes → Bytes) (c : ClientCall) (ρ : Reaction) (l : Link) : c.ans × Link :=
  ((ClientDisk.act resolve c ρ l.disk).1, { l with disk := (ClientDisk.act resolve c ρ l.disk).2 })

/-- The answer to a call.  A send or receive that fails is a connection that breaks. -/
def act (env : Env) (resolve : Bytes → Bytes) : (c : ClientCall) → Reaction → Link → c.ans × Link
  | .sendFrame f, ρ, l =>
      match ρ.failure with
      | none => (none, { l with peer := l.peer.send env f })
      | some text => (some text, l.drop env)
  | .recvFrame, ρ, l =>
      if l.inStep then
        match ρ.failure with
        | none => l.receive
        | some _ => (none, l.drop env)
      else
        (ρ.received, l)
  | .print line, _, l => ((), { l with printed := l.printed ++ [line] })
  | .randBytes n, ρ, l => l.onDisk resolve (.randBytes n) ρ
  | .randomId, ρ, l => l.onDisk resolve .randomId ρ
  | .createDirectories, ρ, l => l.onDisk resolve .createDirectories ρ
  | .writeFile path data, ρ, l => l.onDisk resolve (.writeFile path data) ρ
  | .readFile path, ρ, l => l.onDisk resolve (.readFile path) ρ
  | .encrypted e, ρ, l => l.onDisk resolve (.encrypted e) ρ

end Link

/-- `vars` is `none` when the client's `run` has ended. -/
structure OnlineState where
  vars : Option ClientVars
  link : Link

/-- A choice from the menu, or a public key that is written to the server's directory. -/
inductive OnlineInput
  | command (c : Command) (reactions : Nat → Reaction)
  | pubkey (uid : UserId) (pub : Bytes)

namespace OnlineState

/-- The server has accepted the client. -/
def connected (w : World .sqlite) (files : Bytes → Option Bytes) : OnlineState :=
  ⟨some {}, { disk := ⟨files, []⟩, peer := { server := ⟨w, .serving Conn.fresh⟩ } }⟩

def step (env : Env) (ssl : OpenSsl) (resolve : Bytes → Bytes) (s : OnlineState) :
    OnlineInput → Except Exn Unit × OnlineState
  | .command c reactions =>
      match s.vars with
      | none => (.ok (), s)
      | some v =>
          match (turn ssl v c).exec (Link.act env resolve) reactions s.link with
          | (.ok (some v'), l) => (.ok (), ⟨some v', l⟩)
          -- `run` ends, and the connection with it
          | (.ok none, l) => (.ok (), ⟨none, l.drop env⟩)
          | (.error e, l) => (.error e, ⟨none, l.drop env⟩)
  | .pubkey uid pub =>
      (.ok (),
        { s with
          link :=
            { s.link with
              peer :=
                { s.link.peer with
                  server := (serverStep env s.link.peer.server (.pubkey uid pub)).2 } } })

end OnlineState

/-! ## One exchange -/

/-- Whatever can be stopped and however the environment reacts, the run of `x` ends in `Q`. -/
abbrev Ends {α : Type} (env : Env) (resolve : Bytes → Bytes) (x : Client α)
    (Q : Except Exn α → Link → Prop) (l : Link) : Prop :=
  wpc (Link.act env resolve) (fun _ _ _ => True) (fun _ => True) x Q l

/-- As `Ends`, when the first call meets the reaction `ρ`. -/
abbrev EndsFirst {α : Type} (env : Env) (resolve : Bytes → Bytes) (ρ : Reaction) (x : Client α)
    (Q : Except Exn α → Link → Prop) (l : Link) : Prop :=
  wpcFirst (Link.act env resolve) (fun _ _ _ => True) (fun _ => True) ρ x Q l

/-- What becomes of the other end when a frame is sent. -/
inductive Sent (env : Env) (p : Peer) (f : Frame) : Peer → Prop
  | idle (gone : p.server.phase.conn = none) : Sent env p f p
  | refused {c} (serving : p.server.phase = .serving c) :
      Sent env p f { p with server := ⟨p.server.world, .listening⟩ }
  | answered {c reply hd} (fits : f.body.length ≤ maxBody) (serving : p.server.phase = .serving c)
      (run : handleFrame env f { world := p.server.world, conn := c } = (.ok (), hd))
      (sent : hd.sent = [reply]) :
      Sent env p f ⟨⟨hd.world, .serving hd.conn⟩, p.inbox ++ [reply], p.uploads ++ hd.uploads⟩
  | threw {c e hd} (serving : p.server.phase = .serving c)
      (run : handleFrame env f { world := p.server.world, conn := c } = (.error e, hd)) :
      Sent env p f ⟨⟨hd.world, .listening⟩, p.inbox, p.uploads ++ hd.uploads⟩

theorem sent_send (env : Env) (p : Peer) (f : Frame) : Sent env p f (p.send env f) := by
  obtain ⟨⟨w, phase⟩, inbox, uploads⟩ := p
  have idle : ∀ s : ServerState, s.phase.conn = none →
      Sent env ⟨s, inbox, uploads⟩ f (Peer.send env ⟨s, inbox, uploads⟩ f) := by
    rintro s hgone
    have hstep : serverStep env s (Peer.eventOf f) = ({}, s) := by
      obtain ⟨w, phase⟩ := s
      unfold Peer.eventOf
      cases phase with
      | serving c => cases hgone
      | down => split <;> rfl
      | listening => split <;> rfl
    have hsend : Peer.send env ⟨s, inbox, uploads⟩ f = ⟨s, inbox, uploads⟩ := by
      simp only [Peer.send, hstep, List.append_nil]
    rw [hsend]
    exact .idle hgone
  cases phase with
  | down => exact idle _ rfl
  | listening => exact idle _ rfl
  | serving c =>
      by_cases hfits : f.body.length ≤ maxBody
      · rcases hrun : handleFrame env f { world := w, conn := c } with ⟨e | _, hd⟩
        · have hsent : hd.sent = [] := by
            cases of_wp (handleFrame_spec env f w c) hrun
            rfl
          have hsend : Peer.send env ⟨⟨w, .serving c⟩, inbox, uploads⟩ f =
              ⟨⟨hd.world, .listening⟩, inbox, uploads ++ hd.uploads⟩ := by
            simp only [Peer.send, Peer.eventOf, if_pos hfits, serverStep, hrun, hsent,
              List.append_nil]
          rw [hsend]
          exact .threw rfl hrun
        · obtain ⟨reply, hreply, -⟩ := (of_wp (handleFrame_spec env f w c) hrun).one_reply
          have hsend : Peer.send env ⟨⟨w, .serving c⟩, inbox, uploads⟩ f =
              ⟨⟨hd.world, .serving hd.conn⟩, inbox ++ [reply], uploads ++ hd.uploads⟩ := by
            simp only [Peer.send, Peer.eventOf, if_pos hfits, serverStep, hrun, hreply]
          rw [hsend]
          exact .answered hfits rfl hrun hreply
      · have hsend : Peer.send env ⟨⟨w, .serving c⟩, inbox, uploads⟩ f =
            ⟨⟨w, .listening⟩, inbox, uploads⟩ := by
          simp only [Peer.send, Peer.eventOf, if_neg hfits, serverStep, List.append_nil]
        rw [hsend]
        exact .refused (c := c) rfl

/-- What the frame did to the server, if it arrived. -/
inductive Arrival (env : Env) (f : Frame) (l l' : Link) : Prop
  | missed (world : l'.world = l.world) (uploads : l'.peer.uploads = l.peer.uploads)
  | handled {c r hd} (serving : l.peer.server.phase = .serving c)
      (run : handleFrame env f { world := l.world, conn := c } = (r, hd))
      (world : l'.world = hd.world) (uploads : l'.peer.uploads = l.peer.uploads ++ hd.uploads)

/-- The link after a frame that was answered. -/
def Link.answered (l : Link) (hd : Handling) : Link :=
  { l with
    peer :=
      { server := ⟨hd.world, .serving hd.conn⟩
        inbox := []
        uploads := l.peer.uploads ++ hd.uploads } }

/-- How an exchange can end. -/
inductive Exchange (env : Env) (f : Frame) (l : Link) : Option Frame → Link → Prop
  | answered {c reply hd} (fits : f.body.length ≤ maxBody) (serving : l.peer.server.phase = .serving c)
      (run : handleFrame env f { world := l.world, conn := c } = (.ok (), hd))
      (sent : hd.sent = [reply]) : Exchange env f l (some reply) (l.answered hd)
  /-- The connection is gone. -/
  | lost {l'} (gone : l'.peer.server.phase.conn = none) (inbox : l'.peer.inbox = [])
      (disk : l'.disk = l.disk) (printed : l'.printed = l.printed)
      (arrival : Arrival env f l l') : Exchange env f l none l'
  | outOfStep {r l'} (rejected : l'.inStep = false) : Exchange env f l r l'

section Rules

variable {env : Env} {resolve : Bytes → Bytes} {l : Link} {f : Frame}

theorem drop_gone (env : Env) (l : Link) : (l.drop env).peer.server.phase.conn = none := by
  obtain ⟨disk, ⟨⟨w, phase⟩, inbox, uploads⟩, printed, inStep⟩ := l
  cases phase with
  | serving c => rfl
  | down => rfl
  | listening => rfl

theorem drop_world (env : Env) (l : Link) : (l.drop env).world = l.world := by
  obtain ⟨disk, ⟨⟨w, phase⟩, inbox, uploads⟩, printed, inStep⟩ := l
  cases phase with
  | serving c => rfl
  | down => rfl
  | listening => rfl

theorem receive_world (l : Link) : l.receive.2.world = l.world := by
  unfold Link.receive
  split
  · rfl
  · split
    · rfl
    · rfl

/-- Only a frame that arrives does anything to the stores. -/
theorem act_world {R : World .sqlite → World .sqlite → Prop} (hrefl : ∀ w, R w w) (c : ClientCall)
    (ρ : Reaction) (l : Link)
    (hsend : ∀ f, c = .sendFrame f → R l.world (l.peer.send env f).server.world) :
    R l.world (Link.act env resolve c ρ l).2.world := by
  cases c with
  | sendFrame f =>
      simp only [Link.act]
      cases ρ.failure with
      | none => exact hsend f rfl
      | some text =>
          rw [drop_world]
          exact hrefl _
  | recvFrame =>
      simp only [Link.act]
      split
      · cases ρ.failure with
        | none =>
            rw [receive_world]
            exact hrefl _
        | some text =>
            rw [drop_world]
            exact hrefl _
      · exact hrefl _
  | _ => exact hrefl _

/-- What is left of the frame when the connection breaks. -/
theorem Sent.arrival {p' : Peer} (h : Sent env l.peer f p') {l' : Link}
    (hworld : l'.world = p'.server.world) (huploads : l'.peer.uploads = p'.uploads) :
    Arrival env f l l' := by
  cases h with
  | idle _ => exact .missed hworld huploads
  | refused _ => exact .missed hworld huploads
  | answered _ serving run _ => exact .handled serving run hworld huploads
  | threw serving run => exact .handled serving run hworld huploads

theorem exchange_act (hstep : l.inStep = true) (hinbox : l.peer.inbox = []) (ρ : Reaction) :
    Exchange env f l (Link.act env resolve .recvFrame ρ { l with peer := l.peer.send env f }).1
      (Link.act env resolve .recvFrame ρ { l with peer := l.peer.send env f }).2 := by
  have hsent := sent_send env l.peer f
  generalize l.peer.send env f = p' at hsent
  simp only [Link.act, if_pos hstep]
  cases ρ.failure with
  | some text =>
      have hworld := drop_world env { l with peer := p' }
      exact .lost (drop_gone env _) rfl rfl rfl (hsent.arrival hworld rfl)
  | none =>
      have silent : p'.inbox = [] → p'.server.phase.conn = none →
          Exchange env f l (Link.receive { l with peer := p' }).1
            (Link.receive { l with peer := p' }).2 := by
        intro hnil hgone
        have hreceive : Link.receive { l with peer := p' } = (none, { l with peer := p' }) := by
          simp only [Link.receive, hnil]
        rw [hreceive]
        exact .lost hgone hnil rfl rfl (hsent.arrival rfl rfl)
      cases hsent with
      | idle gone => exact silent hinbox gone
      | refused _ => exact silent hinbox rfl
      | threw _ _ => exact silent hinbox rfl
      | @answered c reply hd fits serving run sent =>
          rw [hinbox]
          by_cases hfits : reply.body.length ≤ maxBody
          · have hreceive : Link.receive { l with peer :=
                ⟨⟨hd.world, .serving hd.conn⟩, [] ++ [reply], l.peer.uploads ++ hd.uploads⟩ } =
                  (some reply, l.answered hd) := by
              simp only [Link.receive, List.nil_append, if_pos hfits]
              rfl
            rw [hreceive]
            exact .answered fits serving run sent
          · refine .outOfStep ?_
            simp only [Link.receive, List.nil_append, if_neg hfits]

/-- A frame and its reply, then the rest. -/
theorem ends_exchange {β : Type} {k : Option Frame → Client β} {Q : Except Exn β → Link → Prop}
    (hstep : l.inStep = true) (hinbox : l.peer.inbox = [])
    (hfailed : ∀ text, Q (.error ⟨.runtime, text⟩) (l.drop env))
    (hk : ∀ r l', Exchange env f l r l' → Ends env resolve (k r) Q l') :
    Ends env resolve (do Client.sendFrame f; k (← Client.recvFrame)) Q l := by
  refine wpc_bind (wpc_ask_bind trivial fun ρ _ => ?_)
  simp only [Link.act]
  cases ρ.failure with
  | some text => exact wpc_throw trivial (hfailed text)
  | none =>
      refine wpc_pure trivial ?_
      exact wpc_ask_bind trivial fun ρ' _ => hk _ _ (exchange_act hstep hinbox ρ')

/-- Once out of step, always out of step. -/
theorem ends_outOfStep {α : Type} {x : Client α} {Q : Except Exn α → Link → Prop}
    (hstep : l.inStep = false) (hQ : ∀ r l', l'.inStep = false → Q r l') :
    Ends env resolve x Q l := by
  have hkeep : ∀ (c : ClientCall) (ρ : Reaction) (l : Link), l.inStep = false →
      (Link.act env resolve c ρ l).2.inStep = false := by
    intro c ρ l hl
    cases c with
    | sendFrame f =>
        simp only [Link.act]
        cases ρ.failure with
        | none => exact hl
        | some text => exact hl
    | recvFrame =>
        simp only [Link.act, hl]
        exact hl
    | _ => exact hl
  have hstays : wpc (Link.act env resolve) (fun _ _ _ => True) (fun l => l.inStep = false) x
      (fun _ l => l.inStep = false) l :=
    wpc_of_all (fun c ρ l _ _ hl => hkeep c ρ l hl) (all_true x) hstep
  refine wpc_weaken (wpc_mono hstays fun r l' _ hl' => hQ r l' hl') fun _ _ => trivial

/-- A relation to the state at the start that every call keeps. -/
theorem ends_all {α : Type} {P : ClientCall → Prop} {R : Link → Link → Prop} {x : Client α}
    (hact : ∀ c ρ l', P c → R l l' → R l (Link.act env resolve c ρ l').2) (hx : x.All P)
    (hl : R l l) : Ends env resolve x (fun _ l' => R l l') l := by
  have hkept : wpc (Link.act env resolve) (fun _ _ _ => True) (R l) x (fun _ => R l) l :=
    wpc_of_all (fun c ρ l' hc _ hl' => hact c ρ l' hc hl') hx hl
  exact wpc_weaken hkept fun _ _ => trivial

/-! ## Calls without the network -/

/-- The call is not about the network. -/
def ClientCall.Local : ClientCall → Prop
  | .sendFrame _ | .recvFrame => False
  | _ => True

/-- Nothing has happened on the connection. -/
structure Apart (l l' : Link) : Prop where
  peer : l'.peer = l.peer
  inStep : l'.inStep = l.inStep

theorem Apart.refl (l : Link) : Apart l l := ⟨rfl, rfl⟩

theorem Apart.trans {l₁ l₂ l₃ : Link} (h : Apart l₁ l₂) (h' : Apart l₂ l₃) : Apart l₁ l₃ :=
  ⟨h'.peer.trans h.peer, h'.inStep.trans h.inStep⟩

theorem Apart.world {l' : Link} (h : Apart l l') : l'.world = l.world :=
  congrArg (fun p => p.server.world) h.peer

theorem ends_local {α : Type} {x : Client α} (hx : x.All ClientCall.Local) :
    Ends env resolve x (fun _ l' => Apart l l') l := by
  refine ends_all (fun c ρ l' hc hl' => ?_) hx (Apart.refl l)
  cases c with
  | sendFrame f => exact hc.elim
  | recvFrame => exact hc.elim
  | _ => exact ⟨hl'.peer, hl'.inStep⟩

/-- Code without the network, then the rest. -/
theorem ends_local_bind {α β : Type} {x : Client α} {k : α → Client β}
    {Q : Except Exn β → Link → Prop} (hx : x.All ClientCall.Local)
    (herror : ∀ e l', Apart l l' → Q (.error e) l')
    (hk : ∀ a l', Apart l l' → Ends env resolve (k a) Q l') :
    Ends env resolve (x >>= k) Q l := by
  refine wpc_bind (wpc_mono (ends_local hx) ?_)
  rintro (e | a) l' _ hl'
  · exact herror e l' hl'
  · exact hk a l' hl'

end Rules

section LocalCode

theorem local_ask {c : ClientCall} (hc : c.Local) : (ask c : Client c.ans).All ClientCall.Local :=
  ⟨hc, fun _ => trivial⟩

theorem local_throwing (failed : Option Bytes) : (Client.throwing failed).All ClientCall.Local := by
  cases failed with
  | none => trivial
  | some text => trivial

theorem local_outcome {α : Type} (r : Except Exn α) : (Client.outcome r).All ClientCall.Local := by
  cases r with
  | ok a => trivial
  | error e => trivial

theorem local_savePrivKey (user : Bytes) (priv : Key) :
    (savePrivKey user priv).All ClientCall.Local :=
  all_bind (all_bind (local_ask trivial) local_throwing) fun _ =>
    all_bind (local_ask trivial) fun _ => trivial

theorem local_generateKeys (ssl : OpenSsl) : (generateKeys ssl).All ClientCall.Local :=
  all_bind (local_ask trivial) fun _ => local_outcome _

theorem local_loadPrivKey (user : Bytes) : (loadPrivKey user).All ClientCall.Local :=
  all_bind (local_ask trivial) fun _ => trivial

theorem local_writeFileBytes (path data : Bytes) : (writeFileBytes path data).All ClientCall.Local := by
  refine all_bind (local_ask trivial) fun opened => ?_
  cases opened with
  | true => trivial
  | false => trivial

end LocalCode

end SecureFileTransfer
