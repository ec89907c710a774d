import SecureFileTransfer.Lib.Relational
import SecureFileTransfer.OneReply
import SecureFileTransfer.ReplyLimit

/-!
# WireServer — the server on the bytes of its connections

The accept loop with `recvFrame` and `sendFrame` in it: reads come in, encodings of replies go out.
It refines the server that is given whole frames.  A connection is over with the first call of
`recvFrame` that is refused, so where the reads fall does not show: not in a stream of frames, and
not in one that is no stream of frames.
-/

namespace SecureFileTransfer

open Prog Service Handler Runs AsioTlsTransport Reassembly

/-! ## The accept loop -/

theorem recvFrame_pending_lt {rx rx' : Rx} {f : Frame} (h : recvFrame rx = (.got f, rx')) :
    rx'.pending.length < rx.pending.length :=
  recv_got_pending_lt poll_stable rx.reads rx.buf h

/-- The inner loop of `run`, on the connection `c` whose transport is `rx`. -/
def serveConn (env : Env) (w : World .sqlite) (c : Conn) (rx : Rx) : List Output × World .sqlite :=
  match _h : recvFrame rx with
  | (.got f, rx') =>
      match handleFrame env f { world := w, conn := c } with
      | (.ok _, h) =>
          let (outs, w') := serveConn env h.world h.conn rx'
          (⟨h.sent, h.uploads⟩ :: outs, w')
      -- the exception is caught outside of the loop
      | (.error _, h) => ([⟨h.sent, h.uploads⟩], h.world)
  | (.refused, _) | (.fault, _) => ([], w)
termination_by rx.pending.length
decreasing_by exact recvFrame_pending_lt _h

/-- The process between two connections; it is `up` once `run` waits for the first. -/
structure WireState where
  world : World .sqlite
  up : Bool

def WireState.initial : WireState := ⟨World.empty .sqlite, false⟩

/-- The process is (re)started, a client connects and sends what the reads return before the end
of the stream, or a public key is written to the directory. -/
inductive WireEvent
  | boot (u e p : Bytes)
  | connection (reads : List Bytes)
  | pubkey (uid : UserId) (pub : Bytes)

def wireStep (env : Env) (s : WireState) : WireEvent → List Output × WireState
  | .boot u e p =>
      match boot env u e p s.world with
      | (.ok _, w) => ([], ⟨w, true⟩)
      | (.error _, w) => ([], ⟨w, false⟩)
  | .connection reads =>
      if s.up then
        let (outs, w) := serveConn env s.world Conn.fresh ⟨[], reads⟩
        (outs, ⟨w, true⟩)
      else
        ([], s)
  | .pubkey uid pub =>
      match savePubkey .sqlite uid pub s.world.keys with
      | .ok keys => ([], { s with world := { s.world with keys := keys } })
      | .error _ => ([], s)

/-- What the calls of `sendFrame` write to the socket. -/
def wireBytes (outs : List Output) : Bytes := (outs.flatMap Output.sent).flatMap encodeFrame

/-! ## One connection -/

section Connection

variable {env : Env} {rx : Rx}

/-- A transport whose pending bytes start with a frame delivers it. -/
theorem recvFrame_of_headFrame (hne : ∀ r ∈ rx.reads, r ≠ []) {f : Frame} {rest : Bytes}
    (hhead : headFrame rx.pending = some (f, rest)) :
    ∃ rx', recvFrame rx = (.got f, rx') ∧ rx'.pending = rest ∧ rx'.reads <:+ rx.reads := by
  obtain ⟨hitem, hpend⟩ := headFrame_eq_some_iff.1 hhead
  obtain ⟨rx', hrecv, hrest, hsuffix⟩ := recv_item poll_stable rx.reads rx.buf hne hitem
  refine ⟨rx', hrecv, ?_, hsuffix⟩
  have hdrop : rx'.pending = rx.pending.drop (encodeFrame f).length := hrest
  rw [hdrop, hpend, List.drop_left]

/-- Without a frame at the start of the pending bytes the call is refused. -/
theorem recvFrame_of_headFrame_none (hne : ∀ r ∈ rx.reads, r ≠ [])
    (hhead : headFrame rx.pending = none) : (recvFrame rx).1 = .refused := by
  cases hrecv : recvFrame rx with
  | mk o rx' =>
      cases o with
      | refused => rfl
      | fault =>
          have hfault := recv_ne_fault poll_stable rx.reads rx.buf
          exact absurd (congrArg Prod.fst hrecv) hfault
      | got f =>
          obtain ⟨n, hitem⟩ := item_of_recv_got poll_stable rx.reads rx.buf hne hrecv
          obtain ⟨hf, ⟨rest, hrest⟩, rfl⟩ := poll_item_iff.1 hitem
          have hsome : headFrame rx.pending = some (f, rest) :=
            headFrame_eq_some_iff.2 ⟨hitem, hrest.symm⟩
          rw [hhead] at hsome
          cases hsome

theorem serveConn_got {w : World .sqlite} {c : Conn} {f : Frame} {rx' : Rx}
    (hrecv : recvFrame rx = (.got f, rx')) :
    serveConn env w c rx =
      match handleFrame env f { world := w, conn := c } with
      | (.ok _, h) =>
          (⟨h.sent, h.uploads⟩ :: (serveConn env h.world h.conn rx').1,
            (serveConn env h.world h.conn rx').2)
      | (.error _, h) => ([⟨h.sent, h.uploads⟩], h.world) := by
  rw [serveConn]
  split
  · next heq =>
      rw [hrecv] at heq
      cases heq
      rfl
  · next heq =>
      rw [hrecv] at heq
      cases heq
  · next heq =>
      rw [hrecv] at heq
      cases heq

theorem serveConn_refused {w : World .sqlite} {c : Conn} (hrecv : (recvFrame rx).1 = .refused) :
    serveConn env w c rx = ([], w) := by
  rw [serveConn]
  split
  · next heq =>
      rw [heq] at hrecv
      cases hrecv
  · rfl
  · rfl

/-- A server that serves nobody lets frames pass. -/
theorem frames_ignored (env : Env) {ω : Type} {view : Output → List ω} (hview : view {} = [])
    (s : ServerState) (hphase : s.phase.conn = none) (fs : List Frame) :
    final (serverStep env) s (fs.map .frame ++ [.hangup]) = s ∧
      (outputs (serverStep env) s (fs.map .frame ++ [.hangup])).flatMap view = [] := by
  have hstep : ∀ ev, ev = .hangup ∨ (∃ f, ev = .frame f) → serverStep env s ev = ({}, s) := by
    rcases s with ⟨w, phase⟩
    rintro ev (rfl | ⟨f, rfl⟩)
    · cases phase with
      | serving c => cases hphase
      | _ => rfl
    · cases phase with
      | serving c => cases hphase
      | _ => rfl
  induction fs with
  | nil =>
      obtain ⟨hfinal, houts⟩ := run_cons (hstep .hangup (.inl rfl)) []
      refine ⟨hfinal, ?_⟩
      rw [List.map_nil, List.nil_append, houts, List.flatMap_cons, hview]
      rfl
  | cons f fs ih =>
      obtain ⟨hfinal, houts⟩ := run_cons (hstep (.frame f) (.inr ⟨f, rfl⟩))
        (fs.map .frame ++ [.hangup])
      refine ⟨hfinal.trans ih.1, ?_⟩
      rw [List.map_cons, List.cons_append, houts, List.flatMap_cons, hview]
      exact ih.2

/-- The frames of a connection, and its end. -/
def connEvents (s : Bytes) : List ServerEvent := (parseFrames s).map .frame ++ [.hangup]

theorem connEvents_some {s rest : Bytes} {f : Frame} (h : headFrame s = some (f, rest)) :
    connEvents s = .frame f :: connEvents rest := by
  rw [connEvents, parseFrames_some h]
  rfl

theorem connEvents_none {s : Bytes} (h : headFrame s = none) : connEvents s = [.hangup] := by
  rw [connEvents, parseFrames_none h]
  rfl

/-- What a connection does is what its frames do, up to the first malformed or incomplete one. -/
theorem serveConn_spec (env : Env) {ω : Type} (view : Output → List ω) (hview : view {} = []) (n : Nat) :
    ∀ (w : World .sqlite) (c : Conn) (rx : Rx), rx.pending.length = n → (∀ r ∈ rx.reads, r ≠ []) →
      final (serverStep env) ⟨w, .serving c⟩ (connEvents rx.pending) =
          ⟨(serveConn env w c rx).2, .listening⟩ ∧
        (outputs (serverStep env) ⟨w, .serving c⟩ (connEvents rx.pending)).flatMap view =
          (serveConn env w c rx).1.flatMap view := by
  induction n using Nat.strongRecOn with
  | ind n ih =>
      intro w c rx hn hne
      cases hhead : headFrame rx.pending with
      | none =>
          rw [connEvents_none hhead, serveConn_refused (recvFrame_of_headFrame_none hne hhead)]
          refine ⟨rfl, ?_⟩
          show view {} ++ [] = []
          rw [hview]
          rfl
      | some fr =>
          obtain ⟨f, rest⟩ := fr
          obtain ⟨rx', hrecv, hrest, hsuffix⟩ := recvFrame_of_headFrame hne hhead
          have hlt : rx'.pending.length < n := hn ▸ recvFrame_pending_lt hrecv
          rw [connEvents_some hhead, serveConn_got hrecv, ← hrest]
          rcases hrun : handleFrame env f { world := w, conn := c } with ⟨e | _, h⟩
          · -- the loop is left, and the frames behind this one are not read
            have hstep : serverStep env ⟨w, .serving c⟩ (.frame f) =
                (⟨h.sent, h.uploads⟩, ⟨h.world, .listening⟩) := by
              simp only [serverStep, hrun]
            obtain ⟨hfinal, houts⟩ := run_cons hstep (connEvents rx'.pending)
            obtain ⟨hrest, hquiet⟩ := frames_ignored env hview
              ⟨h.world, .listening⟩ rfl (parseFrames rx'.pending)
            refine ⟨hfinal.trans hrest, ?_⟩
            rw [houts]
            exact congrArg (view _ ++ ·) hquiet
          · have hstep : serverStep env ⟨w, .serving c⟩ (.frame f) =
                (⟨h.sent, h.uploads⟩, ⟨h.world, .serving h.conn⟩) := by
              simp only [serverStep, hrun]
            obtain ⟨hfinal, houts⟩ := run_cons hstep (connEvents rx'.pending)
            obtain ⟨hrest, hmore⟩ := ih _ hlt h.world h.conn rx' rfl
              fun r hr => hne r (hsuffix.subset hr)
            refine ⟨hfinal.trans hrest, ?_⟩
            rw [houts]
            exact congrArg (view _ ++ ·) hmore

end Connection

/-! ## Every run -/

/-- The server that is given frames, where this one stands. -/
def WireState.framed (s : WireState) : ServerState := ⟨s.world, if s.up then .listening else .down⟩

namespace WireEvent

/-- The frames an event brings. -/
def events : WireEvent → List ServerEvent
  | .boot u e p => [.boot u e p]
  | .connection reads => .accept :: connEvents reads.flatten
  | .pubkey uid pub => [.pubkey uid pub]

/-- No read of a connection returns nothing before the end of the stream. -/
def Readable : WireEvent → Prop
  | .connection reads => ∀ r ∈ reads, r ≠ []
  | .boot .. | .pubkey .. => True

end WireEvent

section WireRuns

variable {env : Env} {ω : Type} {view : Output → List ω}

/-- A step without output is one of the other server, too. -/
theorem expands_of_silent (hview : view {} = []) {s : WireState} {ev : WireEvent} (s' : WireState)
    (ev' : ServerEvent) (hevents : ev.events = [ev']) (hwire : wireStep env s ev = ([], s'))
    (hstep : serverStep env s.framed ev' = ({}, s'.framed)) :
    Expands (wireStep env) (serverStep env) WireState.framed WireEvent.events
      (fun outs => outs.flatMap view) view s ev := by
  obtain ⟨hfinal, houts⟩ := run_cons hstep []
  constructor
  · rw [hevents, hwire]
    exact hfinal
  · rw [hevents, hwire, houts, List.flatMap_cons, hview]
    rfl

/-- A step is the run on its frames. -/
theorem wireStep_expands (env : Env) (hview : view {} = []) (s : WireState) (ev : WireEvent)
    (hev : ev.Readable) :
    Expands (wireStep env) (serverStep env) WireState.framed WireEvent.events
      (fun outs => outs.flatMap view) view s ev := by
  obtain ⟨w, up⟩ := s
  cases ev with
  | boot u e p =>
      rcases hboot : boot env u e p w with ⟨ex | _, w'⟩
      · refine expands_of_silent hview ⟨w', false⟩ _ rfl ?_ ?_
        · simp only [wireStep, hboot]
        · simp only [serverStep, WireState.framed, hboot]
          rfl
      · refine expands_of_silent hview ⟨w', true⟩ _ rfl ?_ ?_
        · simp only [wireStep, hboot]
        · simp only [serverStep, WireState.framed, hboot]
          rfl
  | connection reads =>
      cases up with
      | true =>
          have haccept : serverStep env ⟨w, .listening⟩ .accept =
              ({}, ⟨w, .serving Conn.fresh⟩) := rfl
          obtain ⟨hfinal, houts⟩ := run_cons haccept (connEvents reads.flatten)
          obtain ⟨hrest, hmore⟩ := serveConn_spec env view hview _ w Conn.fresh ⟨[], reads⟩ rfl hev
          constructor
          · exact hfinal.trans hrest
          · show (outputs (serverStep env) ⟨w, .listening⟩ (.accept :: _)).flatMap view = _
            rw [houts, List.flatMap_cons, hview]
            exact hmore
      | false =>
          -- nobody accepts
          have haccept : serverStep env ⟨w, .down⟩ .accept = ({}, ⟨w, .down⟩) := rfl
          obtain ⟨hfinal, houts⟩ := run_cons haccept (connEvents reads.flatten)
          obtain ⟨hrest, hmore⟩ := frames_ignored env hview ⟨w, .down⟩ rfl
            (parseFrames reads.flatten)
          constructor
          · exact hfinal.trans hrest
          · show (outputs (serverStep env) ⟨w, .down⟩ (.accept :: _)).flatMap view = _
            rw [houts, List.flatMap_cons, hview]
            exact hmore
  | pubkey uid pub =>
      cases hsave : savePubkey .sqlite uid pub w.keys with
      | ok keys =>
          refine expands_of_silent hview ⟨{ w with keys := keys }, up⟩ _ rfl ?_ ?_
          · simp only [wireStep, hsave]
          · simp only [serverStep, WireState.framed, hsave]
      | error e =>
          refine expands_of_silent hview ⟨w, up⟩ (.pubkey uid pub) rfl ?_ ?_
          · simp only [wireStep, hsave]
          · simp only [serverStep, WireState.framed, hsave]

end WireRuns

/-- The server after the events on the wire. -/
def wireAfter (env : Env) (evs : List WireEvent) : WireState :=
  final (wireStep env) WireState.initial evs

/-- What the frame loops did, event by event. -/
def wireOutputs (env : Env) (evs : List WireEvent) : List (List Output) :=
  outputs (wireStep env) WireState.initial evs

def serverOutputs (env : Env) (evs : List ServerEvent) : List Output :=
  outputs (serverStep env) ServerState.initial evs

theorem wire_run {env : Env} {ω : Type} (view : Output → List ω) (hview : view {} = [])
    {evs : List WireEvent} (hreads : ∀ ev ∈ evs, ev.Readable) :
    serverAfter env (evs.flatMap WireEvent.events) = (wireAfter env evs).framed ∧
      (serverOutputs env (evs.flatMap WireEvent.events)).flatMap view =
        (wireOutputs env evs).flatten.flatMap view := by
  have hrun := run_of_expands (fun s ev hev => wireStep_expands env hview s ev (hreads ev hev))
    WireState.initial
  rw [wireOutputs, List.flatten_eq_flatMap, List.flatMap_assoc]
  exact hrun

/-- A run on bytes ends where the run on their frames ends; it sends the same replies and makes the
same uploads, in the same order. -/
theorem wire_run_refines (env : Env) (evs : List WireEvent) (hreads : ∀ ev ∈ evs, ev.Readable) :
    serverAfter env (evs.flatMap WireEvent.events) = (wireAfter env evs).framed ∧
      (serverOutputs env (evs.flatMap WireEvent.events)).flatMap Output.sent =
        (wireOutputs env evs).flatten.flatMap Output.sent ∧
      (serverOutputs env (evs.flatMap WireEvent.events)).flatMap Output.uploads =
        (wireOutputs env evs).flatten.flatMap Output.uploads :=
  ⟨(wire_run Output.sent rfl hreads).1, (wire_run Output.sent rfl hreads).2,
    (wire_run Output.uploads rfl hreads).2⟩

/-- A frame, then bytes that are none. -/
def brokenStream : Bytes := encodeFrame ⟨MsgType.LIST, 7, []⟩ ++ [0, 0, 0, 0, 9]

/-- A client that sends them byte by byte, and one that sends nothing. -/
def sampleWireEvents : List WireEvent :=
  [.boot [] [] [], .connection (singles brokenStream), .connection []]

theorem singles_readable (bs : Bytes) : (WireEvent.connection (singles bs)).Readable :=
  fun r hr => (bounded_singles Nat.one_pos bs r hr).1

theorem parseFrames_brokenStream : parseFrames brokenStream = [⟨MsgType.LIST, 7, []⟩] := by
  rw [brokenStream, parseFrames_some (headFrame_encodeFrame (by decide) _),
    parseFrames_none (by decide)]

theorem wire_run_refines_sampleWireEvents :
    (wireOutputs Env.counting sampleWireEvents).flatten.flatMap Output.sent =
      [⟨MsgType.LIST, 7, []⟩] := by
  have hreadable : ∀ ev ∈ sampleWireEvents, ev.Readable := by
    simp only [sampleWireEvents, List.mem_cons, List.not_mem_nil, or_false]
    rintro ev (rfl | rfl | rfl)
    · trivial
    · exact singles_readable _
    · exact fun r hr => by cases hr
  obtain ⟨-, hsent, -⟩ := wire_run_refines Env.counting sampleWireEvents hreadable
  have hevents : sampleWireEvents.flatMap WireEvent.events =
      [.boot [] [] [], .accept, .frame ⟨MsgType.LIST, 7, []⟩, .hangup, .accept, .hangup] := by
    simp only [sampleWireEvents, List.flatMap_cons, WireEvent.events, connEvents, flatten_singles,
      parseFrames_brokenStream, List.flatten_nil, parseFrames_none (s := []) rfl]
    rfl
  rw [← hsent, hevents]
  decide +kernel

/-! ## Where the reads fall -/

/-- The events bring the same bytes, cut in one way or another. -/
inductive SameBytes : WireEvent → WireEvent → Prop
  | boot (u e p : Bytes) : SameBytes (.boot u e p) (.boot u e p)
  | connection {reads reads' : List Bytes} (same : reads.flatten = reads'.flatten)
      (readable : ∀ r ∈ reads, r ≠ []) (readable' : ∀ r ∈ reads', r ≠ []) :
      SameBytes (.connection reads) (.connection reads')
  | pubkey (uid : UserId) (pub : Bytes) : SameBytes (.pubkey uid pub) (.pubkey uid pub)

/-- The same frames are sent, and so the same bytes written. -/
def SameReplies (outs outs' : List Output) : Prop :=
  outs.flatMap Output.sent = outs'.flatMap Output.sent ∧ wireBytes outs = wireBytes outs' ∧
    outs.flatMap Output.uploads = outs'.flatMap Output.uploads

theorem SameReplies.refl (outs : List Output) : SameReplies outs outs := ⟨rfl, rfl, rfl⟩

theorem wireStep_sameBytes {env : Env} {s : WireState} {ev ev' : WireEvent} (h : SameBytes ev ev') :
    SameReplies (wireStep env s ev).1 (wireStep env s ev').1 ∧
      (wireStep env s ev).2 = (wireStep env s ev').2 := by
  cases h with
  | boot u e p => exact ⟨.refl _, rfl⟩
  | pubkey uid pub => exact ⟨.refl _, rfl⟩
  | @connection reads reads' same readable readable' =>
      obtain ⟨w, up⟩ := s
      cases up with
      | false => exact ⟨.refl _, rfl⟩
      | true =>
          have onBytes := fun {ω : Type} (view : Output → List ω) (hview : view {} = []) =>
            serveConn_spec env view hview _ w Conn.fresh ⟨[], reads⟩ rfl readable
          have onBytes' := fun {ω : Type} (view : Output → List ω) (hview : view {} = []) =>
            serveConn_spec env view hview _ w Conn.fresh ⟨[], reads'⟩ rfl readable'
          have hpending : Rx.pending ⟨[], reads⟩ = Rx.pending ⟨[], reads'⟩ := same
          have hsent := (onBytes Output.sent rfl).2
          have huploads := (onBytes Output.uploads rfl).2
          have hfinal := (onBytes Output.sent rfl).1
          rw [hpending, (onBytes' _ rfl).2] at hsent huploads
          rw [hpending, (onBytes' Output.sent rfl).1] at hfinal
          refine ⟨⟨hsent.symm, congrArg (List.flatMap encodeFrame) hsent.symm, huploads.symm⟩, ?_⟩
          exact congrArg (fun s : ServerState => WireState.mk s.world true) hfinal.symm

/-- Whatever bytes the clients send, where the network cuts them makes no difference: neither to
what is answered on each connection nor to what the server keeps. -/
theorem cuts_do_not_show (env : Env) (evs evs' : List WireEvent)
    (h : List.Forall₂ SameBytes evs evs') :
    List.Forall₂ SameReplies (wireOutputs env evs) (wireOutputs env evs') ∧
      wireAfter env evs = wireAfter env evs' := by
  have hstep : ∀ s s' ev ev', s = s' → SameBytes ev ev' →
      SameReplies (wireStep env s ev).1 (wireStep env s' ev').1 ∧
        (wireStep env s ev).2 = (wireStep env s' ev').2 := by
    rintro s _ ev ev' rfl hev
    exact wireStep_sameBytes hev
  exact outputs_of_related hstep h rfl

theorem cuts_do_not_show_brokenStream :
    let evs := [.boot [] [] [], .connection [brokenStream], .connection [brokenStream]]
    let evs' := [.boot [] [] [], .connection (singles brokenStream), .connection [brokenStream]]
    List.Forall₂ SameReplies (wireOutputs Env.counting evs) (wireOutputs Env.counting evs') ∧
      wireAfter Env.counting evs = wireAfter Env.counting evs' := by
  have hne : ∀ r ∈ [brokenStream], r ≠ [] := by decide
  refine cuts_do_not_show Env.counting _ _ (.cons (.boot _ _ _) (.cons ?_ (.cons ?_ .nil)))
  · exact .connection (by simp) hne (singles_readable _)
  · exact .connection rfl hne hne

/-! ## Requests and replies -/

theorem parseFrames_encode {fs : List Frame} (hfs : ∀ f ∈ fs, f.body.length ≤ maxBody) :
    parseFrames (fs.flatMap encodeFrame) = fs := by
  induction fs with
  | nil => exact parseFrames_none rfl
  | cons f fs ih =>
      rw [List.flatMap_cons, parseFrames_some (headFrame_encodeFrame (hfs f List.mem_cons_self) _),
        ih fun g hg => hfs g (List.mem_cons_of_mem _ hg)]

/-- No call that `AuthService::logout` makes throws. -/
structure LogoutWorks (env : Env) : Prop where
  invalidate : ∀ n, env.fault .invalidate n = none
  record : ∀ n, env.fault (.record .LOGOUT) n = none

theorem LogoutWorks.not_throws {env : Env} (h : LogoutWorks env) (w : World .sqlite) (f : Frame) :
    ¬ LogoutThrows env w f := by
  rintro ⟨-, hinvalidate | ⟨-, hrecord⟩⟩
  · rw [h.invalidate] at hinvalidate
    cases hinvalidate
  · rw [h.record] at hrecord
    cases hrecord

/-- The replies on a connection, in order, carry the ids of the requests. -/
theorem requestIds_of_frames {env : Env} (hlogout : LogoutWorks env) (fs : List Frame)
    (w : World .sqlite) (c : Conn) :
    ((outputs (serverStep env) ⟨w, .serving c⟩ (fs.map .frame ++ [.hangup])).flatMap
      Output.sent).map Frame.requestId = fs.map Frame.requestId := by
  induction fs generalizing w c with
  | nil => rfl
  | cons f fs ih =>
      obtain ⟨⟨reply, hreply, hid⟩, c', hphase⟩ := (answeredOnce_iff env w c f).2 (hlogout.not_throws w f)
      rcases hstep : serverStep env ⟨w, .serving c⟩ (.frame f) with ⟨out, s'⟩
      rw [hstep] at hreply hphase
      obtain ⟨w', phase⟩ := s'
      obtain rfl : phase = .serving c' := hphase
      obtain ⟨-, houts⟩ := run_cons hstep (fs.map .frame ++ [.hangup])
      rw [List.map_cons, List.cons_append, houts, List.flatMap_cons, List.map_append, ih, hreply]
      exact congrArg (· :: fs.map Frame.requestId) hid

/-- What a client gets for its requests: it is read as whole frames and is all there is, one for
each request and in their order, and it is what the server answers when it is given the frames. -/
structure Exchanged (env : Env) (s : ServerState) (fs : List Frame) (replies : List Bytes) : Prop where
  received : ∃ got : List Frame,
    got = (outputs (serverStep env) s (.accept :: (fs.map .frame ++ [.hangup]))).flatMap Output.sent ∧
    got.map Frame.requestId = fs.map Frame.requestId ∧
    ∃ rx, recvFrames got.length ⟨[], replies⟩ = (got.map .got, rx) ∧ rx.buf = [] ∧
      recvFrame rx = (.refused, rx)

/-- Requests within the limit, sent over a network that cuts as it likes, come back as replies. -/
theorem wire_exchange (env : Env) (evs : List WireEvent) (fs : List Frame)
    (reads replies : List Bytes) (hevs : ∀ ev ∈ evs, ev.Readable)
    (hup : (wireAfter env evs).up = true) (hfs : ∀ f ∈ fs, f.body.length ≤ maxBody)
    (hreads : Bounded maxRead reads) (hrequests : reads.flatten = fs.flatMap encodeFrame)
    (hreplies : Bounded maxRead replies)
    (hwritten : replies.flatten =
      wireBytes (wireStep env (wireAfter env evs) (.connection reads)).1)
    (hlogout : LogoutWorks env)
    (hread : ∀ n e, env.fault .read n = some e → e.what.length ≤ maxBody)
    (hfit : ∀ t ∈ serverTrace env ((evs ++ [WireEvent.connection reads]).flatMap WireEvent.events),
      RepliesFit env t) :
    Exchanged env (serverAfter env (evs.flatMap WireEvent.events)) fs replies := by
  have hne : ∀ r ∈ reads, r ≠ [] := fun r hr => (hreads r hr).1
  have hframed : serverAfter env (evs.flatMap WireEvent.events) =
      ⟨(wireAfter env evs).world, .listening⟩ := by
    rw [(wire_run Output.sent rfl hevs).1, WireState.framed, hup]
    rfl
  have hevents : (WireEvent.connection reads).events =
      .accept :: (fs.map .frame ++ [.hangup]) := by
    rw [WireEvent.events, connEvents, hrequests, parseFrames_encode hfs]
  rw [hframed]
  generalize hgot : (outputs (serverStep env) ⟨(wireAfter env evs).world, .listening⟩
    (.accept :: (fs.map .frame ++ [.hangup]))).flatMap Output.sent = got
  -- what is written are the encodings of these replies
  have hsent : (wireStep env (wireAfter env evs) (.connection reads)).1.flatMap Output.sent = got := by
    have hempty : Output.sent {} = [] := rfl
    have hviewed := (wireStep_expands env hempty (wireAfter env evs) (.connection reads) hne).viewed
    rw [WireState.framed, hup, hevents] at hviewed
    exact hviewed.symm.trans hgot
  have hbytes : Rx.pending ⟨[], replies⟩ = (got.map encodeFrame).flatten := by
    show replies.flatten = _
    rw [hwritten, wireBytes, hsent, List.flatMap_def]
  have hids : got.map Frame.requestId = fs.map Frame.requestId := by
    have haccept : serverStep env ⟨(wireAfter env evs).world, .listening⟩ .accept =
        ({}, ⟨(wireAfter env evs).world, .serving Conn.fresh⟩) := rfl
    rw [← hgot, (run_cons haccept _).2]
    exact requestIds_of_frames hlogout fs _ Conn.fresh
  have hbodies : ∀ reply ∈ got, reply.body.length ≤ maxBody := by
    intro reply hreply
    rw [← hgot] at hreply
    obtain ⟨out, hout, hmem⟩ := List.mem_flatMap.1 hreply
    obtain ⟨t, ht, rfl⟩ := List.mem_map.1 hout
    have hdeliverable := (replies_deliverable_of_run env _ hread hfit).1
    refine deliverable_iff.1 (hdeliverable t ?_ reply hmem)
    rw [List.flatMap_append, List.flatMap_cons, List.flatMap_nil, List.append_nil, hevents,
      serverTrace, trace_append]
    refine List.mem_append_right _ ?_
    have hbefore : final (serverStep env) ServerState.initial (evs.flatMap WireEvent.events) =
        ⟨(wireAfter env evs).world, .listening⟩ := hframed
    rw [hbefore]
    exact ht
  obtain ⟨rx, hrecv, hpend, hsuffix⟩ :=
    recvFrames_flatten got hbodies ⟨[], replies⟩ (fun r hr => (hreplies r hr).1) hbytes
  obtain rfl : rx = ⟨[], []⟩ :=
    pending_eq_nil (fun r hr => (hreplies r (hsuffix.subset hr)).1) hpend
  exact ⟨got, hgot.symm, hids, ⟨[], []⟩, hrecv, rfl, rfl⟩

/-- A client registers, logs in with a wrong password and asks for the list. -/
def sampleRequests : List Frame :=
  [ { type := .REGISTER
      requestId := 1
      body := encodeRegister ⟨ascii "alice", ascii "a@x", ascii "password"⟩ },
    { type := .AUTH, requestId := 2, body := encodeLogin ⟨ascii "alice", ascii "passwort"⟩ },
    { type := .LIST, requestId := 3, body := [] } ]

set_option maxRecDepth 100000 in
theorem wire_exchange_sampleRequests :
    let reads := singles (sampleRequests.flatMap encodeFrame)
    let replies := singles
      (wireBytes (wireStep Env.counting (wireAfter Env.counting [.boot [] [] []]) (.connection reads)).1)
    Exchanged Env.counting (serverAfter Env.counting [.boot [] [] []]) sampleRequests replies ∧
      ((outputs (serverStep Env.counting) (serverAfter Env.counting [.boot [] [] []])
        (.accept :: (sampleRequests.map .frame ++ [.hangup]))).flatMap Output.sent).map Frame.type =
          [MsgType.REGISTER, MsgType.ERR, MsgType.LIST] := by
  intro reads replies
  have hfs : ∀ f ∈ sampleRequests, f.body.length ≤ maxBody := by decide +kernel
  have hevents : ([WireEvent.boot [] [] []] ++ [WireEvent.connection reads]).flatMap
      WireEvent.events = .boot [] [] [] :: .accept :: (sampleRequests.map .frame ++ [.hangup]) := by
    simp only [reads, List.cons_append, List.nil_append, List.flatMap_cons, List.flatMap_nil,
      WireEvent.events, connEvents, flatten_singles, parseFrames_encode hfs, List.append_nil]
  have hbelow : (serverTrace Env.counting
      (.boot [] [] [] :: .accept :: (sampleRequests.map .frame ++ [.hangup]))).all belowLimit = true := by
    decide +kernel
  refine ⟨wire_exchange Env.counting [.boot [] [] []] sampleRequests reads replies ?_ ?_ hfs ?_ ?_
    ?_ ?_ ⟨fun _ => rfl, fun _ => rfl⟩ (fun n e h => by cases h) ?_, by decide +kernel⟩
  · simp only [List.mem_singleton]
    rintro ev rfl
    trivial
  · rfl
  · exact bounded_singles (by decide) _
  · exact flatten_singles _
  · exact bounded_singles (by decide) _
  · exact flatten_singles _
  · rw [hevents]
    exact fun t ht => repliesFit_of_belowLimit (List.all_eq_true.1 hbelow t ht)

end SecureFileTransfer
