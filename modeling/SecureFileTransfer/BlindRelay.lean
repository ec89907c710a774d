import SecureFileTransfer.Download
import SecureFileTransfer.Interchange

/-!
# BlindRelay — the server does not look into what it relays

Two runs of the server whose clients send the same frames, but for the bytes of the chunks they
upload, cannot be told apart from outside: the same replies, the same audit entries, sessions,
records and transfers.  Only the blobs differ, and what a download relays of them, and not even
there does the length.
-/

namespace SecureFileTransfer

open Prog Runs Service Handler

/-! ## Worlds with other blobs -/

def SameLength (data data' : Bytes) : Prop := data.length = data'.length

/-- The same keys, with related values. -/
def Table.Alike {V : Type} (R : V → V → Prop) (t t' : Table V) : Prop :=
  ∀ k, Option.Rel R (t.lookup k) (t'.lookup k)

namespace Table.Alike

variable {V : Type} {R : V → V → Prop} {t t' : Table V}

theorem empty : Table.Alike R (∅ : Table V) ∅ := fun k => by
  rw [AList.lookup_empty]
  exact .none

theorem insert (h : Table.Alike R t t') (k : Bytes) {v v' : V} (hv : R v v') :
    Table.Alike R (t.insert k v) (t'.insert k v') := by
  intro k'
  rw [Table.lookup_insert_eq, Table.lookup_insert_eq]
  split
  · exact .some hv
  · exact h k'

theorem erase (h : Table.Alike R t t') (k : Bytes) : Table.Alike R (t.erase k) (t'.erase k) := by
  intro k'
  rw [Table.lookup_erase_eq, Table.lookup_erase_eq]
  split
  · exact .none
  · exact h k'

end Table.Alike

/-- The worlds differ in what the blobs hold, and not in how long they are. -/
inductive Obscured (w : World .sqlite) : World .sqlite → Prop
  | intro {blobs : Table Bytes} (h : Table.Alike SameLength w.blobs blobs) :
      Obscured w { w with blobs := blobs }

/-- Everything is compared as it is, except for ciphertexts. -/
def relayed : Comparison .sqlite .sqlite where
  worlds _ := Obscured
  exns := (· = ·)
  missing _ _ := False
  blobs := SameLength
  plain _ := True
  timely _ := True

/-- No exception is worded differently. -/
theorem relayed_sameText {t t' : Bytes} (h : relayed.SameText t t') : t = t' := by
  cases h with
  | refl => rfl
  | missing he => exact he.elim

theorem relayed_ticks : relayed.Ticks where
  exns_refl _ := rfl
  tick h := by
    cases h with
    | intro h => exact ⟨rfl, .intro h⟩

theorem alike_refl {α : Type} {E : Exn → Exn → Prop} {V : α → α → Prop} (hE : ∀ e, E e e)
    (hV : ∀ a, V a a) (r : Except Exn α) : Alike E V r r := by
  cases r with
  | error e => exact hE e
  | ok a => exact hV a

namespace Obscured

variable {env : Env} {known : List UserId} {α : Type}

/-- A query of anything but the blobs. -/
theorem query {c : Call} {V : α → α → Prop} {f : World .sqlite → Except Exn α} (hV : ∀ a, V a a)
    (hf : ∀ w blobs, f { w with blobs := blobs } = f w) :
    relayed.Lock known V (Service.query env c f) (Service.query env c f) := by
  refine relayed_ticks.query fun w w' hw => ?_
  cases hw with
  | @intro blobs h =>
      rw [hf w blobs]
      exact alike_refl (fun _ => rfl) hV _

/-- A write of anything but the blobs. -/
theorem write {c : Call} {f : World .sqlite → Except Exn (World .sqlite)}
    (hf : ∀ w blobs, f { w with blobs := blobs } =
      (f w).map fun w₁ => { w₁ with blobs := blobs })
    (hkeep : ∀ w w₁, f w = .ok w₁ → w₁.blobs = w.blobs) :
    relayed.Lock known (· = ·) (Service.write env c f) (Service.write env c f) := by
  refine relayed_ticks.write fun w w' hw => ?_
  cases hw with
  | @intro blobs h =>
      rw [hf w blobs]
      cases hrun : f w with
      | error e => exact rfl
      | ok w₁ =>
          rw [← hkeep w w₁ hrun] at h
          exact .intro h

theorem finds {c : Call} {f : World .sqlite → Except Exn (Option User)}
    (hf : ∀ w blobs, f { w with blobs := blobs } = f w) :
    relayed.Finds known (Service.query env c f) (Service.query env c f) := by
  refine relayed_ticks.finds fun w w' hw => ?_
  cases hw with
  | @intro blobs h =>
      rw [hf w blobs]
      refine alike_refl (fun _ => rfl) (fun o => ⟨rfl, fun u _ => ?_⟩) _
      exact ⟨⟨trivial, trivial, trivial, trivial, trivial⟩, .intro h⟩

theorem modifyGet {V : α → α → Prop} {f : World .sqlite → α × World .sqlite} (hV : ∀ a, V a a)
    (hf : ∀ w blobs, f { w with blobs := blobs } = ((f w).1, { (f w).2 with blobs := blobs }))
    (hkeep : ∀ w, (f w).2.blobs = w.blobs) :
    relayed.Lock known V (Prog.modifyGet f) (Prog.modifyGet f) := by
  refine .modifyGet fun w w' hw => ?_
  cases hw with
  | @intro blobs h =>
      rw [hf w blobs]
      rw [← hkeep w] at h
      exact ⟨hV _, .intro h⟩

/-- A write that puts a new part in place. -/
theorem writePart {β : Type} {c : Call} {f : World .sqlite → Except Exn β}
    {put : World .sqlite → β → World .sqlite} (hf : ∀ w blobs, f { w with blobs := blobs } = f w)
    (hput : ∀ w x blobs, put { w with blobs := blobs } x = { put w x with blobs := blobs })
    (hkeep : ∀ w x, (put w x).blobs = w.blobs) :
    relayed.Lock known (· = ·) (Service.write env c fun w => (f w).map (put w))
      (Service.write env c fun w => (f w).map (put w)) := by
  refine write (fun w blobs => ?_) fun w w₁ h => ?_
  · rw [hf]
    cases f w with
    | error e => rfl
    | ok x => exact congrArg Except.ok (hput w x blobs)
  · obtain ⟨x, -, rfl⟩ := exists_of_map_eq_ok h
    exact hkeep w x

/-- A write of the user repository. -/
theorem writeUsers (c : Call) (f : Backend.sqlite.users.State → Except Exn Backend.sqlite.users.State) :
    relayed.Lock known (· = ·) (Service.writeUsers env c f) (Service.writeUsers env c f) :=
  writePart (fun _ _ => rfl) (fun _ _ _ => rfl) fun _ _ => rfl

/-! ### The calls, one by one -/

theorem lock_newId :
    relayed.Lock known (fun i i' => i = i' ∧ relayed.plain i.value ∧ i.value ≠ []) (newId env)
      (newId env) :=
  .modifyGet fun w w' hw => by
    cases hw with
    | @intro blobs h =>
        refine ⟨⟨rfl, trivial, fun hnil => ?_⟩, .intro h⟩
        have hlength := length_generateUserId (env.randomId w.ids)
        rw [hnil] at hlength
        cases hlength

theorem lock_record (action : AuditAction) (actor fileId : Bytes) :
    relayed.Lock known (· = ·) (record env action actor fileId) (record env action actor fileId) :=
  write (fun _ _ => rfl) fun _ _ h => by
    cases h
    rfl

theorem lock_createForUser (uid : UserId) (now : Int) :
    relayed.Lock known (· = ·) (createForUser env uid now) (createForUser env uid now) := by
  refine (relayed_ticks.call _).bind fun _ _ _ => ?_
  refine Lockstep.bind (V := (· = ·)) ?_ ?_
  · exact modifyGet (fun _ => rfl) (fun _ _ => rfl) fun _ => rfl
  rintro random _ rfl
  refine Lockstep.bind (.update fun w w' hw => ?_) fun _ _ _ => .pure rfl
  cases hw with
  | @intro blobs h =>
      cases w.sessions.createForUser random uid now with
      | error e => rfl
      | ok st => exact .intro h

theorem lock_invalidate (token : SessionId) :
    relayed.Lock known (· = ·) (invalidate env token) (invalidate env token) :=
  (relayed_ticks.call _).bind fun _ _ _ =>
    modifyGet (fun _ => rfl) (fun _ _ => rfl) fun _ => rfl

theorem lock_invalidateAllForUser (u : UserId) :
    relayed.Lock known (· = ·) (invalidateAllForUser env u) (invalidateAllForUser env u) :=
  write (fun _ _ => rfl) fun _ _ h => by
    cases h
    rfl

theorem lock_saveKey (uid : UserId) (pub : Bytes) :
    relayed.Lock known (· = ·) (saveKey uid pub) (saveKey uid pub) :=
  .update fun w w' hw => by
    cases hw with
    | @intro blobs h =>
        cases savePubkey .sqlite uid pub w.keys with
        | error e => rfl
        | ok keys => exact .intro h

theorem lock_findFile (id : FileId) :
    relayed.Lock known (Option.Rel Comparison.SameParties) (findFile env id) (findFile env id) :=
  query (fun o => match o with
    | none => .none
    | some _ => .some ⟨rfl, rfl, rfl⟩) fun _ _ => rfl

theorem lock_stagedWrite (sid : Bytes) {data data' : Bytes} (hdata : relayed.blobs data data') :
    relayed.Lock known (· = ·) (stagedWrite env sid data) (stagedWrite env sid data') :=
  relayed_ticks.write fun w w' hw => by
    cases hw with
    | @intro blobs h => exact .intro (h.insert sid hdata)

theorem lock_removeStaged (sid : Bytes) :
    relayed.Lock known (· = ·) (removeStaged env sid) (removeStaged env sid) :=
  relayed_ticks.write fun w w' hw => by
    cases hw with
    | @intro blobs h => exact .intro ((h.erase _).erase _)

/-- Both sides find a blob, of the same length, or none. -/
theorem lock_read (sid : Bytes) :
    Lockstep (relayed.worlds known) relayed.ReadErrors relayed.blobs (read env sid)
      (read env sid) :=
  relayed_ticks.read fun w w' hw => by
    cases hw with
    | @intro blobs h =>
        have hsid := h sid
        show Alike _ _ (Backend.readBlob .sqlite sid w.blobs) (Backend.readBlob .sqlite sid blobs)
        revert hsid
        unfold Backend.readBlob
        cases w.blobs.lookup sid with
        | none =>
            cases blobs.lookup sid with
            | none => exact fun _ => .inl rfl
            | some data' => exact fun hsid => by cases hsid
        | some data =>
            cases blobs.lookup sid with
            | none => exact fun hsid => by cases hsid
            | some data' =>
                intro hsid
                have hlength : SameLength data data' := Option.rel_some_some.1 hsid
                exact hlength

end Obscured

/-- The server's collaborators may be given another ciphertext of the same length. -/
theorem relayed_interchangeable (env : Env) : Interchangeable env relayed where
  exns_refl _ := rfl
  plain_active := trivial
  plain_inactive := trivial
  forget h := h
  nowMs _ := Obscured.modifyGet (fun _ => ⟨rfl, trivial⟩) (fun _ _ => rfl) fun _ => rfl
  newId _ := Obscured.lock_newId
  record _ := Obscured.lock_record
  findByUsername _ _ _ := Obscured.finds fun _ _ => rfl
  findByEmail _ _ _ := Obscured.query (fun _ => rfl) fun _ _ => rfl
  findById _ _ _ := Obscured.finds fun _ _ => rfl
  getEncodedHash _ _ _ := Obscured.query (fun _ => rfl) fun _ _ => rfl
  listAll _ := Obscured.query List.Perm.refl fun _ _ => rfl
  saveUser _ _ _ _ _ := Obscured.writeUsers _ _
  updateUser _ _ _ := Obscured.writeUsers _ _
  recordLoginFailure _ _ _ _ _ := Obscured.writeUsers _ _
  resetLoginFailures _ _ _ _ := Obscured.writeUsers _ _
  hash _ _ := Obscured.query (fun _ => ⟨rfl, trivial⟩) fun _ _ => rfl
  verify _ _ _ := Obscured.query (fun _ => rfl) fun _ _ => rfl
  isValid _ _ _ := Obscured.query (fun _ => rfl) fun _ _ => rfl
  findByToken _ _ := Obscured.query (fun _ => ⟨rfl, fun _ _ => trivial⟩) fun _ _ => rfl
  userFor _ _ := Obscured.query (fun _ => ⟨rfl, trivial⟩) fun _ _ => rfl
  createForUser _ uid now _ := Obscured.lock_createForUser uid now
  invalidate _ := Obscured.lock_invalidate
  invalidateAllForUser _ := Obscured.lock_invalidateAllForUser
  keyExists _ _ _ := Obscured.query (fun _ => rfl) fun _ _ => rfl
  saveKey _ uid pub _ := Obscured.lock_saveKey uid pub
  existsUploadId _ _ _ := Obscured.query (fun _ => rfl) fun _ _ => rfl
  saveFile _ _ _ _ _ _ _ _ _ _ _ _ _ _ _ _ :=
    Obscured.writePart (fun _ _ => rfl) (fun _ _ _ => rfl) fun _ _ => rfl
  findFile _ id _ := Obscured.lock_findFile id
  stagedWrite _ sid _ _ := Obscured.lock_stagedWrite sid
  removeStaged _ := Obscured.lock_removeStaged
  read _ := Obscured.lock_read
  saveTransfer _ _ := Obscured.writePart (fun _ _ => rfl) (fun _ _ _ => rfl) fun _ _ => rfl

/-! ## Handlers -/

/-- The replies are the same; of a downloaded blob only the length is. -/
inductive SameReply : Frame → Frame → Prop
  | refl (f : Frame) : SameReply f f
  | downloaded (requestId : UInt32) {data data' : Bytes} (h : SameLength data data') :
      SameReply { type := .DOWNLOAD_DATA, requestId := requestId, body := data }
        { type := .DOWNLOAD_DATA, requestId := requestId, body := data' }

inductive SameUpload (a : UploadArgs) : UploadArgs → Prop
  | intro {blob : Bytes} (h : SameLength a.opaqueBytes blob) :
      SameUpload a { a with opaqueBytes := blob }

structure SameConn (c c' : Conn) : Prop where
  pendingInit : c.pendingInit = c'.pendingInit
  pendingData : Table.Alike SameLength c.pendingData c'.pendingData
  connToken : c.connToken = c'.connToken

namespace SameConn

variable {c c' : Conn}

theorem withToken (h : SameConn c c') (token : Bytes) :
    SameConn { c with connToken := token } { c' with connToken := token } :=
  { h with connToken := rfl }

theorem announced (h : SameConn c c') (init : UploadInit) :
    SameConn (c.announced init) (c'.announced init) where
  pendingInit := by
    show c.pendingInit.insert _ _ = c'.pendingInit.insert _ _
    rw [h.pendingInit]
  pendingData := h.pendingData.insert _ rfl
  connToken := h.connToken

theorem appended (h : SameConn c c') {data data' : UploadData} {sofar sofar' : Bytes}
    (hid : data.uploadId = data'.uploadId) (hchunk : SameLength data.chunk data'.chunk)
    (hsofar : SameLength sofar sofar') :
    SameConn (c.appended data sofar) (c'.appended data' sofar') where
  pendingInit := h.pendingInit
  pendingData := by
    show Table.Alike SameLength (c.pendingData.insert data.uploadId (sofar ++ data.chunk))
      (c'.pendingData.insert data'.uploadId (sofar' ++ data'.chunk))
    rw [hid]
    refine h.pendingData.insert _ ?_
    rw [SameLength, List.length_append, List.length_append, hsofar, hchunk]
  connToken := h.connToken

theorem erased (h : SameConn c c') (id : Bytes) :
    SameConn { c with pendingInit := c.pendingInit.erase id, pendingData := c.pendingData.erase id }
      { c' with pendingInit := c'.pendingInit.erase id, pendingData := c'.pendingData.erase id } where
  pendingInit := congrArg (AList.erase id) h.pendingInit
  pendingData := h.pendingData.erase _
  connToken := h.connToken

theorem resolve (h : SameConn c c') (body : Bytes) : c.resolve body = c'.resolve body := by
  unfold Conn.resolve
  rw [h.pendingInit]

end SameConn

structure SameHandling (h h' : Handling) : Prop where
  world : Obscured h.world h'.world
  conn : SameConn h.conn h'.conn
  sent : List.Forall₂ SameReply h.sent h'.sent
  uploads : List.Forall₂ SameUpload h.uploads h'.uploads

/-- Handlers that stay in step. -/
abbrev HandlerLock {α α' : Type} (V : α → α' → Prop) (x : Handler α) (y : Handler α') : Prop :=
  Lockstep SameHandling (· = ·) V x y

namespace HandlerLock

variable {env : Env} {f f' : Frame} {c c' : Conn} {α α' : Type} {V : α → α' → Prop}

theorem service {x : Service .sqlite α} {y : Service .sqlite α'} (h : relayed.Lock [] V x y) :
    HandlerLock V (Handler.service x) (Handler.service y) := by
  refine Coupled.zoom fun hd hd' hh => both_iff.2 ?_
  obtain ⟨hsame, hworld⟩ := h.run hh.world
  exact ⟨hsame, { hh with world := hworld }⟩

theorem conn : HandlerLock SameConn Handler.conn Handler.conn :=
  .ask fun _ _ hh => hh.conn

theorem setConn (h : SameConn c c') : HandlerLock (· = ·) (Handler.setConn c) (Handler.setConn c') :=
  .modifyGet fun _ _ hh => ⟨rfl, { hh with conn := h }⟩

theorem sendFrame (h : SameReply f f') :
    HandlerLock (· = ·) (Handler.sendFrame f) (Handler.sendFrame f') :=
  .modifyGet fun _ _ hh => ⟨rfl, { hh with sent := List.rel_append hh.sent (.cons h .nil) }⟩

theorem sendErr (hid : f.requestId = f'.requestId) (body : Bytes) :
    HandlerLock (· = ·) (Handler.sendErr f body) (Handler.sendErr f' body) := by
  unfold Handler.sendErr
  rw [hid]
  exact sendFrame (.refl _)

theorem guarded (hid : f.requestId = f'.requestId) {x y : Handler Unit} (h : HandlerLock (· = ·) x y) :
    HandlerLock (· = ·) (Handler.guarded f x) (Handler.guarded f' y) :=
  .tryCatch h fun _ _ _ => sendErr hid []

theorem outcome_bind {β : Type} {k k' : β → Handler Unit} (r : Except Exn β)
    (h : ∀ a, HandlerLock (· = ·) (k a) (k' a)) :
    HandlerLock (· = ·) (outcome r >>= k) (outcome r >>= k') := by
  refine Lockstep.bind (V := (· = ·)) (.outcome (alike_refl (fun _ => rfl) (fun _ => rfl) r)) ?_
  rintro a _ rfl
  exact h a

theorem connTokenValid (h : SameConn c c') :
    HandlerLock (· = ·) (Handler.connTokenValid env c) (Handler.connTokenValid env c') := by
  unfold Handler.connTokenValid
  rw [h.connToken]
  refine (service ((relayed_interchangeable env).nowMs [])).bind ?_
  rintro now _ ⟨rfl, -⟩
  exact service ((relayed_interchangeable env).isValid [] _ now)

/-! ### The branches -/

theorem handleRegister :
    HandlerLock (· = ·) (Handler.handleRegister env f) (Handler.handleRegister env f) := by
  refine guarded rfl (outcome_bind _ fun pl => ?_)
  refine (service ((relayed_interchangeable env).registerUser trivial trivial trivial)).bind ?_
  intro r r' hr
  cases hr with
  | success _ => exact sendFrame (.refl _)
  | failure _ => exact sendFrame (.refl _)

theorem handleAuth : HandlerLock (· = ·) (Handler.handleAuth env f) (Handler.handleAuth env f) := by
  refine guarded rfl (outcome_bind _ fun pl => ?_)
  refine (service ((relayed_interchangeable env).login trivial pl.password)).bind ?_
  intro r r' hr
  cases hr with
  | success h =>
      subst h
      refine conn.bind fun c c' hc => ?_
      refine (setConn (hc.withToken _)).bind fun _ _ _ => ?_
      exact sendFrame (.refl _)
  | failure _ => exact sendErr rfl _

theorem handleLogout :
    HandlerLock (· = ·) (Handler.handleLogout env f) (Handler.handleLogout env f) := by
  refine (service ((relayed_interchangeable env).logout _)).bind ?_
  rintro ok _ rfl
  refine .ite Iff.rfl (fun _ => ?_) fun _ => sendErr rfl _
  refine (sendFrame (.refl _)).bind fun _ _ _ => conn.bind fun c c' hc => ?_
  refine .ite (by rw [hc.connToken]) (fun _ => ?_) fun _ => .pure rfl
  exact setConn (hc.withToken [])

theorem handleAdmin : HandlerLock (· = ·) (Handler.handleAdmin env f) (Handler.handleAdmin env f) := by
  refine guarded rfl (outcome_bind _ fun pl => ?_)
  have haction : relayed.Lock [] (relayed.SameResult (· = ·))
      (adminAction env f.type ⟨pl.token⟩ ⟨pl.targetId⟩)
      (adminAction env f.type ⟨pl.token⟩ ⟨pl.targetId⟩) := by
    have h := relayed_interchangeable env
    refine .ite Iff.rfl (fun _ => ?_) fun _ => ?_
    · exact h.asAdminSession _ _ fun adminId => h.activateAs adminId trivial
    · exact h.asAdminSession _ _ fun adminId => h.deactivateAs adminId trivial
  refine (service haction).bind fun r r' hr => ?_
  cases hr with
  | success _ => exact sendFrame (.refl _)
  | failure _ => exact sendErr rfl _

theorem handleUploadInit :
    HandlerLock (· = ·) (Handler.handleUploadInit env f) (Handler.handleUploadInit env f) := by
  refine guarded rfl (outcome_bind _ fun init => conn.bind fun c c' hc => ?_)
  refine .ite (by rw [hc.connToken]) (fun _ => sendErr rfl _) fun _ => ?_
  refine (connTokenValid hc).bind ?_
  rintro valid _ rfl
  refine .ite Iff.rfl (fun _ => ?_) fun _ => sendErr rfl _
  unfold acceptInit
  cases PdfFileValidator.validate init.origName init.size fakeHdr with
  | error e => exact sendErr rfl _
  | ok _ =>
      refine (setConn (hc.announced init)).bind fun _ _ _ => ?_
      refine Lockstep.bind (V := (· = ·)) ?_ fun _ _ _ => sendFrame (.refl _)
      refine .tryCatch ?_ fun _ _ _ => .pure rfl
      rw [hc.connToken]
      exact (service ((relayed_interchangeable env).findByToken [] _)).bind fun _ _ _ => .pure rfl

/-- Two chunks for the same place, of the same length. -/
structure SameData (data data' : UploadData) : Prop where
  uploadId : data.uploadId = data'.uploadId
  offset : data.offset = data'.offset
  chunk : SameLength data.chunk data'.chunk

theorem handleUploadData (hid : f.requestId = f'.requestId)
    (hdata : Alike (· = ·) SameData (decodeUploadData f.body) (decodeUploadData f'.body)) :
    HandlerLock (· = ·) (Handler.handleUploadData f) (Handler.handleUploadData f') := by
  refine guarded hid (Lockstep.bind (.outcome hdata) fun data data' hsame => ?_)
  refine conn.bind fun c c' hc => ?_
  have hpending := hc.pendingData data.uploadId
  rw [hsame.uploadId] at hpending ⊢
  cases hlookup : c.pendingData.lookup data'.uploadId with
  | none =>
      rw [hlookup] at hpending
      cases hlookup' : c'.pendingData.lookup data'.uploadId with
      | none => exact sendErr hid []
      | some sofar' =>
          rw [hlookup'] at hpending
          cases hpending
  | some sofar =>
      rw [hlookup] at hpending
      cases hlookup' : c'.pendingData.lookup data'.uploadId with
      | none =>
          rw [hlookup'] at hpending
          cases hpending
      | some sofar' =>
          rw [hlookup'] at hpending
          cases hpending with
          | some hsofar =>
              -- the offset is compared with the length, which is the same
              refine .ite (by rw [hsame.offset, hsofar]) (fun _ => sendErr hid []) fun _ => ?_
              have hc' := hc.appended hsame.uploadId hsame.chunk hsofar
              unfold Conn.appended at hc'
              rw [hsame.uploadId] at hc'
              refine (setConn hc').bind fun _ _ _ => ?_
              rw [hid]
              exact sendFrame (.refl _)

theorem transfersUpload {a a' : UploadArgs} (h : SameUpload a a') :
    HandlerLock (relayed.SameResult (· = ·)) (Handler.transfersUpload env a)
      (Handler.transfersUpload env a') := by
  refine Lockstep.bind (V := (· = ·)) (.modifyGet fun hd hd' hh => ?_) fun _ _ _ => ?_
  · exact ⟨rfl, { hh with uploads := List.rel_append hh.uploads (.cons h .nil) }⟩
  · cases h with
    | intro hlength =>
        exact service ((relayed_interchangeable env).upload hlength trivial trivial trivial)

theorem commitUpload (hc : SameConn c c') (id : Bytes) (init : UploadInit) {data data' : Bytes}
    (hdata : SameLength data data') :
    HandlerLock (· = ·) (Handler.commitUpload env f c id init data)
      (Handler.commitUpload env f c' id init data') := by
  have hargs : SameUpload (c.uploadArgs init data) (c'.uploadArgs init data') := by
    unfold Conn.uploadArgs
    rw [hc.connToken]
    exact .intro hdata
  refine (transfersUpload hargs).bind fun r r' hr => ?_
  cases hr with
  | success h =>
      subst h
      exact (sendFrame (.refl _)).bind fun _ _ _ => setConn (hc.erased id)
  | failure ht => exact relayed_sameText ht ▸ sendErr rfl _

theorem commitPending (hc : SameConn c c') (id : Bytes) (init : Option UploadInit)
    {data data' : Option Bytes} (hdata : Option.Rel SameLength data data') :
    HandlerLock (· = ·) (Handler.commitPending env f c id init data)
      (Handler.commitPending env f c' id init data') := by
  cases init with
  | none =>
      cases hdata with
      | none => exact sendErr rfl []
      | some _ => exact sendErr rfl []
  | some init =>
      cases hdata with
      | none => exact sendErr rfl []
      | some hlength =>
          unfold Handler.commitPending
          rw [hc.connToken]
          refine .ite Iff.rfl (fun _ => sendErr rfl []) fun _ => ?_
          refine (connTokenValid hc).bind ?_
          rintro valid _ rfl
          exact .ite Iff.rfl (fun _ => commitUpload hc id init hlength) fun _ => sendErr rfl []

theorem handleUploadCommit :
    HandlerLock (· = ·) (Handler.handleUploadCommit env f) (Handler.handleUploadCommit env f) := by
  refine guarded rfl (conn.bind fun c c' hc => ?_)
  rw [hc.resolve, hc.pendingInit]
  exact commitPending hc _ _ (hc.pendingData _)

theorem handleDownloadReq :
    HandlerLock (· = ·) (Handler.handleDownloadReq env f) (Handler.handleDownloadReq env f) := by
  refine guarded rfl (outcome_bind _ fun req => conn.bind fun c c' hc => ?_)
  rw [hc.connToken]
  refine (service ((relayed_interchangeable env).download _ trivial)).bind fun r r' hr => ?_
  cases hr with
  | success h => exact sendFrame (.downloaded f.requestId h)
  | failure ht => exact relayed_sameText ht ▸ sendErr rfl _

theorem handleFrame : HandlerLock (· = ·) (Handler.handleFrame env f) (Handler.handleFrame env f) := by
  refine .ite Iff.rfl (fun _ => handleRegister) fun _ => ?_
  refine .ite Iff.rfl (fun _ => handleAuth) fun _ => ?_
  refine .ite Iff.rfl (fun _ => handleLogout) fun _ => ?_
  refine .ite Iff.rfl (fun _ => handleAdmin) fun _ => ?_
  refine .ite Iff.rfl (fun _ => handleUploadInit) fun _ => ?_
  refine .ite Iff.rfl (fun _ => ?_) fun _ => ?_
  · exact handleUploadData rfl (alike_refl (fun _ => rfl) (fun _ => ⟨rfl, rfl, rfl⟩) _)
  refine .ite Iff.rfl (fun _ => handleUploadCommit) fun _ => ?_
  refine .ite Iff.rfl (fun _ => handleDownloadReq) fun _ => ?_
  exact .ite Iff.rfl (fun _ => sendFrame (.refl _)) fun _ => sendErr rfl []

end HandlerLock

/-! ## Runs of the server -/

/-- What the client does is the same, but for the bytes of a chunk. -/
inductive SameButChunk : ServerEvent → ServerEvent → Prop
  | refl (ev : ServerEvent) : SameButChunk ev ev
  | chunk {f f' : Frame} {data data' : UploadData} (type : f.type = .UPLOAD_DATA)
      (type' : f'.type = .UPLOAD_DATA) (requestId : f.requestId = f'.requestId)
      (decoded : decodeUploadData f.body = .ok data)
      (decoded' : decodeUploadData f'.body = .ok data') (h : HandlerLock.SameData data data') :
      SameButChunk (.frame f) (.frame f')

structure SameOutput (out out' : Output) : Prop where
  sent : List.Forall₂ SameReply out.sent out'.sent
  uploads : List.Forall₂ SameUpload out.uploads out'.uploads

inductive SamePhase : Phase → Phase → Prop
  | down : SamePhase .down .down
  | listening : SamePhase .listening .listening
  | serving {c c' : Conn} (h : SameConn c c') : SamePhase (.serving c) (.serving c')

structure SameServer (s s' : ServerState) : Prop where
  world : Obscured s.world s'.world
  phase : SamePhase s.phase s'.phase

variable {env : Env} {s s' : ServerState}

theorem sameOutput_empty : SameOutput {} {} := ⟨.nil, .nil⟩

/-- Two handlers in step, run on a frame each. -/
theorem SameServer.frame (h : SameServer s s') {f f' : Frame}
    (hhandle : HandlerLock (· = ·) (Handler.handleFrame env f) (Handler.handleFrame env f')) :
    SameOutput (serverStep env s (.frame f)).1 (serverStep env s' (.frame f')).1 ∧
      SameServer (serverStep env s (.frame f)).2 (serverStep env s' (.frame f')).2 := by
  obtain ⟨w, phase⟩ := s
  obtain ⟨w', phase'⟩ := s'
  obtain ⟨hworld, hphase⟩ := h
  cases hphase with
  | down => exact ⟨sameOutput_empty, hworld, .down⟩
  | listening => exact ⟨sameOutput_empty, hworld, .listening⟩
  | @serving c c' hc =>
      have hstart : SameHandling { world := w, conn := c } { world := w', conn := c' } :=
        ⟨hworld, hc, .nil, .nil⟩
      obtain ⟨hsame, hh⟩ := hhandle.run hstart
      simp only [serverStep]
      revert hsame hh
      rcases Handler.handleFrame env f { world := w, conn := c } with ⟨e | a, hd⟩
      · rcases Handler.handleFrame env f' { world := w', conn := c' } with ⟨e' | a', hd'⟩
        · exact fun _ hh => ⟨⟨hh.sent, hh.uploads⟩, hh.world, .listening⟩
        · exact False.elim
      · rcases Handler.handleFrame env f' { world := w', conn := c' } with ⟨e' | a', hd'⟩
        · exact False.elim
        · exact fun _ hh => ⟨⟨hh.sent, hh.uploads⟩, hh.world, .serving hh.conn⟩

theorem boot_lock (env : Env) (u e p : Bytes) :
    relayed.Lock [] (· = ·) (boot env u e p) (boot env u e p) := by
  refine Lockstep.bind (V := (· = ·)) ?_ fun _ _ _ => ?_
  · exact Obscured.modifyGet (fun _ => rfl) (fun _ _ => rfl) fun _ => rfl
  refine ((relayed_interchangeable env).listAll []).bind fun users users' hperm => ?_
  refine .ite (by rw [hperm.isEmpty_eq]) (fun _ => ?_) fun _ => .pure rfl
  exact ((relayed_interchangeable env).registerUser trivial trivial trivial).bind
    fun _ _ _ => .pure rfl

theorem SameServer.step (h : SameServer s s') {ev ev' : ServerEvent} (hev : SameButChunk ev ev') :
    SameOutput (serverStep env s ev).1 (serverStep env s' ev').1 ∧
      SameServer (serverStep env s ev).2 (serverStep env s' ev').2 := by
  cases hev with
  | chunk type type' requestId decoded decoded' hdata =>
      refine h.frame ?_
      rw [handleFrame_data type, handleFrame_data type']
      refine HandlerLock.handleUploadData requestId ?_
      rw [decoded, decoded']
      exact hdata
  | refl =>
      cases ev with
      | frame f => exact h.frame HandlerLock.handleFrame
      | boot u e p =>
          obtain ⟨hsame, hworld⟩ := (boot_lock env u e p).run h.world
          simp only [serverStep]
          revert hsame hworld
          rcases boot env u e p s.world with ⟨ex | a, w⟩
          · rcases boot env u e p s'.world with ⟨ex' | a', w'⟩
            · exact fun _ hworld => ⟨sameOutput_empty, hworld, .down⟩
            · exact False.elim
          · rcases boot env u e p s'.world with ⟨ex' | a', w'⟩
            · exact False.elim
            · exact fun _ hworld => ⟨sameOutput_empty, hworld, .listening⟩
      | accept =>
          obtain ⟨w, phase⟩ := s
          obtain ⟨w', phase'⟩ := s'
          obtain ⟨hworld, hphase⟩ := h
          cases hphase with
          | down => exact ⟨sameOutput_empty, hworld, .down⟩
          | listening => exact ⟨sameOutput_empty, hworld, .serving ⟨rfl, .empty, rfl⟩⟩
          | serving hc => exact ⟨sameOutput_empty, hworld, .serving hc⟩
      | hangup =>
          obtain ⟨w, phase⟩ := s
          obtain ⟨w', phase'⟩ := s'
          obtain ⟨hworld, hphase⟩ := h
          cases hphase with
          | down => exact ⟨sameOutput_empty, hworld, .down⟩
          | listening => exact ⟨sameOutput_empty, hworld, .listening⟩
          | serving hc => exact ⟨sameOutput_empty, hworld, .listening⟩
      | pubkey uid pub =>
          obtain ⟨w, phase⟩ := s
          obtain ⟨w', phase'⟩ := s'
          obtain ⟨hworld, hphase⟩ := h
          cases hworld with
          | @intro blobs hblobs =>
              simp only [serverStep]
              cases savePubkey .sqlite uid pub w.keys with
              | error e => exact ⟨sameOutput_empty, .intro hblobs, hphase⟩
              | ok keys => exact ⟨sameOutput_empty, .intro hblobs, hphase⟩

/-- Clients that send other chunk bytes of the same lengths get the same replies, except for the
bytes of the blobs they download, and leave a server that differs in its blobs only. -/
theorem server_relays_blindly (env : Env) {evs evs' : List ServerEvent}
    (h : List.Forall₂ SameButChunk evs evs') :
    List.Forall₂ SameOutput (outputs (serverStep env) ServerState.initial evs)
        (outputs (serverStep env) ServerState.initial evs') ∧
      SameServer (final (serverStep env) ServerState.initial evs)
        (final (serverStep env) ServerState.initial evs') := by
  refine outputs_of_related (fun _ _ _ _ hs hev => hs.step hev) h ⟨?_, .down⟩
  exact .intro .empty

/-- Another chunk in the place of the one that alice uploads. -/
def otherChunk : ServerEvent → ServerEvent
  | .frame f =>
      if f.type = .UPLOAD_DATA then
        .frame { f with body := encodeUploadData ⟨ascii "u1", 0, [7, 8, 9]⟩ }
      else
        .frame f
  | ev => ev

set_option maxRecDepth 100000 in
theorem server_relays_blindly_sampleEvents :
    let evs := sampleEvents ++ [.frame sampleRequest]
    (serverNext Env.counting sampleEvents (.frame sampleRequest)).output.sent ≠
        (serverNext Env.counting (sampleEvents.map otherChunk) (.frame sampleRequest)).output.sent ∧
      List.Forall₂ SameOutput (outputs (serverStep Env.counting) ServerState.initial evs)
        (outputs (serverStep Env.counting) ServerState.initial (evs.map otherChunk)) ∧
      SameServer (final (serverStep Env.counting) ServerState.initial evs)
        (final (serverStep Env.counting) ServerState.initial (evs.map otherChunk)) := by
  have hsent : (serverNext Env.counting sampleEvents (.frame sampleRequest)).output.sent.map
      Frame.body = [[1, 2, 3]] := by
    decide +kernel
  have hother : (serverNext Env.counting (sampleEvents.map otherChunk)
      (.frame sampleRequest)).output.sent.map Frame.body = [[7, 8, 9]] := by
    decide +kernel
  refine ⟨fun heq => ?_, server_relays_blindly _ (List.forall₂_map_right_iff.2 ?_)⟩
  · rw [heq, hother] at hsent
    cases hsent
  refine List.forall₂_same.2 fun ev hev => ?_
  simp only [sampleEvents, List.cons_append, List.nil_append, List.mem_cons, List.not_mem_nil,
    or_false] at hev
  rcases hev with rfl | rfl | rfl | rfl | rfl | rfl | rfl | rfl | rfl | rfl
  case inr.inr.inr.inr.inr.inr.inr.inl =>
    have hdata : HandlerLock.SameData ⟨ascii "u1", 0, [1, 2, 3]⟩ ⟨ascii "u1", 0, [7, 8, 9]⟩ :=
      ⟨rfl, rfl, rfl⟩
    exact .chunk rfl rfl rfl (by decide +kernel) (by decide +kernel) hdata
  all_goals exact .refl _

end SecureFileTransfer
