import SecureFileTransfer.ServerRuns

/-!
# UploadAssembly — what a commit uploads

On one connection, a commit hands over the chunks that were accepted since the last accepted
announcement of its upload id, in order, under that announcement.  The history of the connection is
its list of transitions; whether a frame was accepted is read off the reply.
-/

namespace SecureFileTransfer

open Prog Runs

variable {env : Env} {h : List ServerTransition} {t : ServerTransition} {x : Bytes}

/-! ## Accepted frames -/

/-- The payload of a frame of type `type`, if it was answered with that same type. -/
def accepted {α : Type} (type : MsgType) (decode : Bytes → Except Exn α) (t : ServerTransition) :
    Option α :=
  match t.input with
  | .frame f =>
      if f.type = type ∧ t.output.sent.any (·.type = type) then (decode f.body).toOption else none
  | _ => none

def acceptedInit : ServerTransition → Option UploadInit := accepted .UPLOAD_INIT decodeUploadInit

def acceptedData : ServerTransition → Option UploadData := accepted .UPLOAD_DATA decodeUploadData

/-- The last announcement of `x`, with the chunks for `x` since. -/
def assemble (x : Bytes) (sofar : Option (UploadInit × List UploadData)) (t : ServerTransition) :
    Option (UploadInit × List UploadData) :=
  match acceptedInit t, acceptedData t with
  | some init, _ => if init.uploadId = x then some (init, []) else sofar
  | none, some data =>
      if data.uploadId = x then sofar.map fun p => (p.1, p.2 ++ [data]) else sofar
  | none, none => sofar

def assembled (x : Bytes) (h : List ServerTransition) : Option (UploadInit × List UploadData) :=
  h.foldl (assemble x) none

/-- The bytes of the chunks. -/
def chunks (ds : List UploadData) : Bytes := ds.flatMap UploadData.chunk

/-- Every chunk starts where the ones before it end. -/
def Contiguous (ds : List UploadData) : Prop :=
  ∀ pre d post, ds = pre ++ d :: post → d.offset.toNat = (chunks pre).length

theorem contiguous_nil : Contiguous [] := by
  intro pre d post heq
  simp at heq

theorem Contiguous.concat {ds : List UploadData} {d : UploadData} (hds : Contiguous ds)
    (hd : d.offset.toNat = (chunks ds).length) : Contiguous (ds ++ [d]) := by
  intro pre d' post heq
  rcases List.eq_nil_or_concat post with rfl | ⟨post', last, rfl⟩
  · obtain ⟨rfl, hlast⟩ := List.append_inj' heq rfl
    cases hlast
    exact hd
  · refine hds pre d' post' ?_
    have heq' : ds ++ [d] = (pre ++ d' :: post') ++ [last] := by simpa using heq
    exact (List.append_inj' heq' rfl).1

theorem assembled_concat (x : Bytes) (h : List ServerTransition) (t : ServerTransition) :
    assembled x (h ++ [t]) = assemble x (assembled x h) t := by
  simp [assembled]

/-! ## What a frame does to the pending maps -/

/-- The frame is neither an accepted announcement nor an accepted chunk. -/
def Unaccepted (f : Frame) (sent : List Frame) : Prop :=
  ∀ type, type = .UPLOAD_INIT ∨ type = .UPLOAD_DATA → f.type = type → ∀ r ∈ sent, r.type ≠ type

theorem unaccepted_of_type {f : Frame} {sent : List Frame} {type : MsgType} (hf : f.type = type)
    (hinit : type ≠ .UPLOAD_INIT) (hdata : type ≠ .UPLOAD_DATA) : Unaccepted f sent := by
  rintro _ (rfl | rfl) htype
  · exact absurd (hf.symm.trans htype) hinit
  · exact absurd (hf.symm.trans htype) hdata

theorem unaccepted_of_reply {f r : Frame} (type : MsgType) (hr : r.type = type)
    (hinit : type ≠ .UPLOAD_INIT) (hdata : type ≠ .UPLOAD_DATA) : Unaccepted f [r] := by
  rintro _ (rfl | rfl) - r' hr'
  · rwa [List.mem_singleton.1 hr', hr]
  · rwa [List.mem_singleton.1 hr', hr]

/-- The pending maps after a frame: an announcement, a chunk, or at most a removal. -/
inductive PendingStep (f : Frame) (c : Conn) (sent : List Frame) (c' : Conn) : Prop
  | announced (init : UploadInit) (type : f.type = .UPLOAD_INIT)
      (decoded : decodeUploadInit f.body = .ok init) (reply : sent = [okReply f .UPLOAD_INIT])
      (pendingInit : c'.pendingInit = c.pendingInit.insert init.uploadId init)
      (pendingData : c'.pendingData = c.pendingData.insert init.uploadId [])
  | appended (data : UploadData) (sofar : Bytes) (type : f.type = .UPLOAD_DATA)
      (decoded : decodeUploadData f.body = .ok data) (reply : sent = [okReply f .UPLOAD_DATA])
      (pending : c.pendingData.lookup data.uploadId = some sofar)
      (offset : data.offset.toNat = sofar.length)
      (pendingInit : c'.pendingInit = c.pendingInit)
      (pendingData : c'.pendingData = c.pendingData.insert data.uploadId (sofar ++ data.chunk))
  | removed (id : Bytes) (type : f.type = .UPLOAD_COMMIT)
      (pendingInit : c'.pendingInit = c.pendingInit.erase id)
      (pendingData : c'.pendingData = c.pendingData.erase id)
  | same (unaccepted : Unaccepted f sent) (pendingInit : c'.pendingInit = c.pendingInit)
      (pendingData : c'.pendingData = c.pendingData)

theorem Conn.authenticated_pending (c : Conn) (r : Except Exn (Result SessionId)) :
    (c.authenticated r).pendingInit = c.pendingInit ∧
      (c.authenticated r).pendingData = c.pendingData := by
  unfold Conn.authenticated
  split
  · exact ⟨rfl, rfl⟩
  · exact ⟨rfl, rfl⟩

theorem Conn.loggedOut_pending (c : Conn) (tok : Bytes) (ok : Bool) :
    (c.loggedOut tok ok).pendingInit = c.pendingInit ∧
      (c.loggedOut tok ok).pendingData = c.pendingData := by
  unfold Conn.loggedOut
  split
  · exact ⟨rfl, rfl⟩
  · exact ⟨rfl, rfl⟩

theorem Handled.pendingStep {f : Frame} {w : World .sqlite} {c : Conn} {r : Except Exn Unit}
    {hd : Handling} (h : Handled env f w c r hd) : PendingStep f c hd.sent hd.conn := by
  cases h with
  | refused _ _ => exact .same (unaccepted_of_reply .ERR rfl (by decide) (by decide)) rfl rfl
  | listed => exact .same (unaccepted_of_reply .LIST rfl (by decide) (by decide)) rfl rfl
  | registered type _ _ =>
      exact .same (unaccepted_of_type type (by decide) (by decide)) rfl rfl
  | @authenticated _ r _ type _ _ =>
      have hpending := c.authenticated_pending r
      exact .same (unaccepted_of_type type (by decide) (by decide)) hpending.1
        hpending.2
  | @loggedOut ok _ type _ =>
      have hpending := c.loggedOut_pending f.body ok
      exact .same (unaccepted_of_type type (by decide) (by decide)) hpending.1
        hpending.2
  | logoutThrew type _ =>
      exact .same (unaccepted_of_type type (by decide) (by decide)) rfl rfl
  | administered type _ _ =>
      rcases type with type | type
      · exact .same (unaccepted_of_type type (by decide) (by decide)) rfl rfl
      · exact .same (unaccepted_of_type type (by decide) (by decide)) rfl rfl
  | @announced init _ type decoded _ _ _ => exact .announced init type decoded rfl rfl rfl
  | @appended data sofar type decoded pending offset =>
      exact .appended data sofar type decoded rfl pending offset rfl rfl
  | @committed _ _ _ r _ type _ _ _ _ _ _ =>
      have same : Unaccepted f [commitReply f r] :=
        unaccepted_of_type type (by decide) (by decide)
      rcases r with e | ⟨t | text⟩
      · exact .same same rfl rfl
      · exact .removed (c.resolve f.body) type rfl rfl
      · exact .same same rfl rfl
  | downloaded type _ _ =>
      exact .same (unaccepted_of_type type (by decide) (by decide)) rfl rfl

/-! ## The history determines the pending maps -/

structure Tracks (h : List ServerTransition) (c : Conn) : Prop where
  keys : ∀ k, k ∈ c.pendingInit ↔ k ∈ c.pendingData
  pending : ∀ x init, c.pendingInit.lookup x = some init → init.uploadId = x ∧
    ∃ ds, assembled x h = some (init, ds) ∧ c.pendingData.lookup x = some (chunks ds) ∧
      Contiguous ds

theorem tracks_fresh : Tracks h Conn.fresh where
  keys k := by simp [Conn.fresh]
  pending x init hx := by simp [Conn.fresh] at hx

theorem accepted_none {α : Type} {type : MsgType} {decode : Bytes → Except Exn α} {f : Frame}
    (hinput : t.input = .frame f)
    (h : f.type = type → ∀ r ∈ t.output.sent, r.type ≠ type) : accepted type decode t = none := by
  unfold accepted
  rw [hinput]
  refine if_neg ?_
  rintro ⟨htype, hany⟩
  obtain ⟨r, hr, heq⟩ := List.any_eq_true.1 hany
  exact h htype r hr (by simpa using heq)

theorem accepted_of_unsent {α : Type} {type : MsgType} {decode : Bytes → Except Exn α}
    (h : t.output.sent = []) : accepted type decode t = none := by
  unfold accepted
  rw [h]
  split
  · simp
  · rfl

theorem accepted_some {α : Type} {type : MsgType} {decode : Bytes → Except Exn α} {f : Frame} {a : α}
    (hinput : t.input = .frame f) (htype : f.type = type) (hsent : t.output.sent = [okReply f type])
    (hdec : decode f.body = .ok a) : accepted type decode t = some a := by
  unfold accepted
  rw [hinput, hsent]
  simp [htype, okReply, hdec, Except.toOption]

theorem assemble_init {init : UploadInit} {sofar : Option (UploadInit × List UploadData)}
    (h : acceptedInit t = some init) :
    assemble x sofar t = if init.uploadId = x then some (init, []) else sofar := by
  unfold assemble
  rw [h]

theorem assemble_data {data : UploadData} {sofar : Option (UploadInit × List UploadData)}
    (hinit : acceptedInit t = none) (hdata : acceptedData t = some data) :
    assemble x sofar t =
      if data.uploadId = x then sofar.map fun p => (p.1, p.2 ++ [data]) else sofar := by
  unfold assemble
  rw [hinit, hdata]

theorem assemble_other {sofar : Option (UploadInit × List UploadData)}
    (hinit : acceptedInit t = none) (hdata : acceptedData t = none) : assemble x sofar t = sofar := by
  unfold assemble
  rw [hinit, hdata]

theorem Tracks.same {c c' : Conn} (ht : Tracks h c) (hinit : acceptedInit t = none)
    (hdata : acceptedData t = none) (hpi : c'.pendingInit = c.pendingInit)
    (hpd : c'.pendingData = c.pendingData) : Tracks (h ++ [t]) c' where
  keys := by
    rw [hpi, hpd]
    exact ht.keys
  pending := by
    intro x init hx
    rw [assembled_concat, assemble_other hinit hdata, hpd]
    rw [hpi] at hx
    exact ht.pending x init hx

theorem Tracks.removed {c c' : Conn} {id : Bytes} (ht : Tracks h c) (hinit : acceptedInit t = none)
    (hdata : acceptedData t = none) (hpi : c'.pendingInit = c.pendingInit.erase id)
    (hpd : c'.pendingData = c.pendingData.erase id) : Tracks (h ++ [t]) c' where
  keys := by
    intro k
    rw [hpi, hpd, AList.mem_erase, AList.mem_erase, ht.keys]
  pending := by
    intro x init hx
    rw [hpi, Table.lookup_erase_eq] at hx
    split at hx
    · cases hx
    · rename_i hne
      rw [assembled_concat, assemble_other hinit hdata, hpd, Table.lookup_erase_eq, if_neg hne]
      exact ht.pending x init hx

theorem Tracks.announced {c c' : Conn} {init : UploadInit} (ht : Tracks h c)
    (hinit : acceptedInit t = some init)
    (hpi : c'.pendingInit = c.pendingInit.insert init.uploadId init)
    (hpd : c'.pendingData = c.pendingData.insert init.uploadId []) : Tracks (h ++ [t]) c' where
  keys := by
    intro k
    rw [hpi, hpd, AList.mem_insert, AList.mem_insert, ht.keys]
  pending := by
    intro x init' hx
    rw [hpi, Table.lookup_insert_eq] at hx
    rw [assembled_concat, assemble_init hinit, hpd, Table.lookup_insert_eq]
    split at hx
    · rename_i heq
      cases hx
      rw [if_pos heq.symm, if_pos heq]
      exact ⟨heq.symm, [], rfl, rfl, contiguous_nil⟩
    · rename_i hne
      rw [if_neg (Ne.symm hne), if_neg hne]
      exact ht.pending x init' hx

theorem Tracks.appended {c c' : Conn} {data : UploadData} {sofar : Bytes} (ht : Tracks h c)
    (hinit : acceptedInit t = none) (hdata : acceptedData t = some data)
    (hlookup : c.pendingData.lookup data.uploadId = some sofar)
    (hoff : data.offset.toNat = sofar.length) (hpi : c'.pendingInit = c.pendingInit)
    (hpd : c'.pendingData = c.pendingData.insert data.uploadId (sofar ++ data.chunk)) :
    Tracks (h ++ [t]) c' where
  keys := by
    intro k
    have hmem : data.uploadId ∈ c.pendingData := AList.lookup_isSome.1 (by rw [hlookup]; rfl)
    rw [hpi, hpd, AList.mem_insert, ht.keys]
    exact ⟨.inr, fun hk => hk.elim (fun heq => heq ▸ hmem) fun hk => hk⟩
  pending := by
    intro x init hx
    rw [hpi] at hx
    obtain ⟨hid, ds, hds, hbytes, hcont⟩ := ht.pending x init hx
    rw [assembled_concat, assemble_data hinit hdata, hpd, Table.lookup_insert_eq]
    by_cases heq : x = data.uploadId
    · rw [if_pos heq.symm, if_pos heq, hds]
      -- the bytes so far are those of the chunks so far
      rw [heq, hlookup] at hbytes
      obtain rfl : sofar = chunks ds := Option.some.inj hbytes
      refine ⟨hid, ds ++ [data], rfl, ?_, hcont.concat hoff⟩
      simp [chunks]
    · rw [if_neg (Ne.symm heq), if_neg heq]
      exact ⟨hid, ds, hds, hbytes, hcont⟩

/-- A step of the pending maps, with what it counts as in the history. -/
inductive AcceptedStep (t : ServerTransition) (c c' : Conn) : Prop
  | announced (init : UploadInit) (accepted : acceptedInit t = some init)
      (pendingInit : c'.pendingInit = c.pendingInit.insert init.uploadId init)
      (pendingData : c'.pendingData = c.pendingData.insert init.uploadId [])
  | appended (data : UploadData) (sofar : Bytes) (noInit : acceptedInit t = none)
      (accepted : acceptedData t = some data)
      (pending : c.pendingData.lookup data.uploadId = some sofar)
      (offset : data.offset.toNat = sofar.length)
      (pendingInit : c'.pendingInit = c.pendingInit)
      (pendingData : c'.pendingData = c.pendingData.insert data.uploadId (sofar ++ data.chunk))
  | removed (id : Bytes) (noInit : acceptedInit t = none) (noData : acceptedData t = none)
      (pendingInit : c'.pendingInit = c.pendingInit.erase id)
      (pendingData : c'.pendingData = c.pendingData.erase id)
  | same (noInit : acceptedInit t = none) (noData : acceptedData t = none)
      (pendingInit : c'.pendingInit = c.pendingInit) (pendingData : c'.pendingData = c.pendingData)

theorem PendingStep.accepted {f : Frame} {c c' : Conn} (hinput : t.input = .frame f)
    (hstep : PendingStep f c t.output.sent c') : AcceptedStep t c c' := by
  have ofOther : ∀ {α : Type} {type : MsgType} {decode : Bytes → Except Exn α} {type' : MsgType},
      f.type = type' → type' ≠ type → SecureFileTransfer.accepted type decode t = none :=
    fun htype hne => accepted_none hinput fun heq => absurd (htype.symm.trans heq) hne
  cases hstep with
  | announced init type decoded reply hpi hpd =>
      exact .announced init (accepted_some hinput type reply decoded) hpi hpd
  | appended data sofar type decoded reply pending offset hpi hpd =>
      exact .appended data sofar (ofOther type (by decide)) (accepted_some hinput type reply decoded)
        pending offset hpi hpd
  | removed id type hpi hpd =>
      exact .removed id (ofOther type (by decide)) (ofOther type (by decide)) hpi hpd
  | same unaccepted hpi hpd =>
      exact .same (accepted_none hinput (unaccepted _ (.inl rfl)))
        (accepted_none hinput (unaccepted _ (.inr rfl))) hpi hpd

theorem Tracks.step {c c' : Conn} (ht : Tracks h c) (hstep : AcceptedStep t c c') :
    Tracks (h ++ [t]) c' := by
  cases hstep with
  | announced init accepted hpi hpd => exact ht.announced accepted hpi hpd
  | appended data sofar noInit accepted pending offset hpi hpd =>
      exact ht.appended noInit accepted pending offset hpi hpd
  | removed id noInit noData hpi hpd => exact ht.removed noInit noData hpi hpd
  | same noInit noData hpi hpd => exact ht.same noInit noData hpi hpd

/-! ## Every run -/

theorem tracks_of_run (env : Env) {s₀ : ServerState} (h₀ : ∀ c, s₀.phase = .serving c → Tracks [] c)
    (evs : List ServerEvent) : ∀ c, (final (serverStep env) s₀ evs).phase = .serving c →
      Tracks (trace (serverStep env) s₀ evs) c := by
  refine trace_induction (P := fun h s => ∀ c, s.phase = .serving c → Tracks h c) h₀ ?_ evs
  intro is ev ih
  generalize final (serverStep env) s₀ is = s at ih
  generalize trace (serverStep env) s₀ is = h at ih
  intro c hc
  -- the transition, with its step spelled out
  generalize ht : Transition.of (serverStep env) s ev = t
  have hinput : t.input = ev := by rw [← ht]; rfl
  have hserved : Served env s ev t.output t.after := by
    rw [← ht]
    exact serverStep_served env s ev
  have hafter : t.after.phase = .serving c := by
    rw [← ht]
    exact hc
  have quiet : t.output.sent = [] → s.phase = t.after.phase → Tracks (h ++ [t]) c := by
    intro hsent hphase
    exact (ih c (hphase.trans hafter)).same (accepted_of_unsent hsent) (accepted_of_unsent hsent)
      rfl rfl
  generalize hout : t.output = out at hserved
  generalize hs' : t.after = s' at hserved hafter
  cases hserved with
  | booted run => cases hafter
  | bootThrew run => cases hafter
  | accepted phase =>
      cases hafter
      exact tracks_fresh
  | handled phase handled =>
      cases hafter
      refine (ih _ phase).step (PendingStep.accepted hinput ?_)
      rw [hout]
      exact handled.pendingStep
  | dropped phase handled => cases hafter
  | hungup phase => cases hafter
  | keyed save => exact quiet (by rw [hout]) (by rw [hs'])
  | ignored => exact quiet (by rw [hout]) (by rw [hs'])

/-- A commit that uploads the chunks of its upload id, under the announcement they follow. -/
structure CommitsAssembled (h : List ServerTransition) (f : Frame) (c : Conn) (a : UploadArgs) :
    Prop where
  type : f.type = .UPLOAD_COMMIT
  resolves : c.resolve f.body = a.uploadId
  history : ∃ init ds, assembled a.uploadId h = some (init, ds) ∧ Contiguous ds ∧
    a.opaqueBytes = chunks ds ∧ a.recipientUsername = init.recipient ∧
    a.origName = init.origName ∧ a.size = init.size ∧ a.digest = init.digest ∧
    a.wrapped = init.wrapped

/-- What a transition after the history `h` of its connection does with uploads. -/
structure AssemblesUpload (h : List ServerTransition) (t : ServerTransition) : Prop where
  commit : ∀ a ∈ t.output.uploads, ∃ f c, t.input = .frame f ∧ t.before.phase = .serving c ∧
    CommitsAssembled h f c a
  refused : ∀ f c, t.input = .frame f → f.type = .UPLOAD_DATA → t.before.phase = .serving c →
    (∃ r ∈ t.output.sent, r.type = .ERR) → ∃ c', t.after.phase = .serving c' ∧
      c'.pendingInit = c.pendingInit ∧ c'.pendingData = c.pendingData
  keys : ∀ c, t.before.phase = .serving c ∨ t.after.phase = .serving c →
    ∀ k, k ∈ c.pendingInit ↔ k ∈ c.pendingData

/-- A commit that uploads does so with what is pending under the id it resolves to. -/
theorem Handled.uploads {f : Frame} {w : World .sqlite} {c : Conn} {r : Except Exn Unit}
    {hd : Handling} (h : Handled env f w c r hd) {a : UploadArgs} (ha : a ∈ hd.uploads) :
    f.type = .UPLOAD_COMMIT ∧ ∃ init data, c.pendingInit.lookup (c.resolve f.body) = some init ∧
      c.pendingData.lookup (c.resolve f.body) = some data ∧ a = c.uploadArgs init data := by
  cases h with
  | committed type hinit hdata _ _ _ _ =>
      exact ⟨type, _, _, hinit, hdata, List.mem_singleton.1 ha⟩
  | _ => cases ha

theorem Tracks.commitsAssembled {f : Frame} {w : World .sqlite} {c : Conn} {r : Except Exn Unit}
    {hd : Handling} {a : UploadArgs} (ht : Tracks h c) (handled : Handled env f w c r hd)
    (ha : a ∈ hd.uploads) : CommitsAssembled h f c a := by
  obtain ⟨type, init, data, hinit, hdata, rfl⟩ := handled.uploads ha
  obtain ⟨hid, ds, hds, hbytes, hcont⟩ := ht.pending _ _ hinit
  rw [hdata] at hbytes
  rw [← hid] at hds
  exact ⟨type, hid.symm, init, ds, hds, hcont, Option.some.inj hbytes, rfl, rfl, rfl, rfl, rfl⟩

/-- A chunk that is answered with `ERR` leaves the connection alone. -/
theorem Handled.conn_of_refused {f : Frame} {w : World .sqlite} {c : Conn} {r : Except Exn Unit}
    {hd : Handling} (h : Handled env f w c r hd) (htype : f.type = .UPLOAD_DATA)
    (hsent : ∃ reply ∈ hd.sent, reply.type = .ERR) :
    hd.conn.pendingInit = c.pendingInit ∧ hd.conn.pendingData = c.pendingData := by
  cases h.pendingStep with
  | announced _ type => exact absurd (type.symm.trans htype) (by decide)
  | appended _ _ _ _ reply =>
      obtain ⟨x, hx, hxtype⟩ := hsent
      rw [reply, List.mem_singleton] at hx
      rw [hx] at hxtype
      cases hxtype
  | removed _ type => exact absurd (type.symm.trans htype) (by decide)
  | same _ hpi hpd => exact ⟨hpi, hpd⟩

theorem assemblesUpload_of_run (env : Env) (w₀ : World .sqlite) (fs : List Frame) (f : Frame) :
    AssemblesUpload (trace (serverStep env) ⟨w₀, .serving Conn.fresh⟩ (fs.map .frame))
      (.of (serverStep env) (final (serverStep env) ⟨w₀, .serving Conn.fresh⟩ (fs.map .frame))
        (.frame f)) := by
  have h₀ : ∀ c, (⟨w₀, .serving Conn.fresh⟩ : ServerState).phase = .serving c → Tracks [] c := by
    rintro _ ⟨⟩
    exact tracks_fresh
  have htracks := tracks_of_run env h₀ (fs.map .frame)
  have hafter := tracks_of_run env h₀ (fs.map .frame ++ [.frame f])
  rw [final_concat] at hafter
  generalize final (serverStep env) ⟨w₀, .serving Conn.fresh⟩ (fs.map .frame) = s at htracks hafter ⊢
  have hserved := serverStep_served env s (.frame f)
  constructor
  · intro a ha
    change a ∈ (serverStep env s (.frame f)).1.uploads at ha
    generalize (serverStep env s (.frame f)).1 = out at hserved ha
    generalize (serverStep env s (.frame f)).2 = s' at hserved
    cases hserved with
    | handled phase handled => exact ⟨f, _, rfl, phase, (htracks _ phase).commitsAssembled handled ha⟩
    | dropped phase handled => exact ⟨f, _, rfl, phase, (htracks _ phase).commitsAssembled handled ha⟩
    | ignored => cases ha
  · intro f' c hf htype hphase hsent
    cases hf
    change ∃ r ∈ (serverStep env s (.frame f)).1.sent, r.type = .ERR at hsent
    show ∃ c', (serverStep env s (.frame f)).2.phase = .serving c' ∧ _
    generalize (serverStep env s (.frame f)).1 = out at hserved hsent
    generalize (serverStep env s (.frame f)).2 = s' at hserved
    cases hserved with
    | handled phase handled =>
        obtain rfl : c = _ := Phase.serving.inj (hphase.symm.trans phase)
        exact ⟨_, rfl, handled.conn_of_refused htype hsent⟩
    | dropped phase handled =>
        cases handled with
        | logoutThrew type _ => exact absurd (type.symm.trans htype) (by decide)
    | ignored => exact ⟨c, hphase, rfl, rfl⟩
  · rintro c (hbefore | hnext)
    · exact (htracks c hbefore).keys
    · exact (hafter c hnext).keys

end SecureFileTransfer
