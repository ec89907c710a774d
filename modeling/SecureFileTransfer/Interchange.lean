import SecureFileTransfer.Lib.Relational
import SecureFileTransfer.StoreConsistency
import SecureFileTransfer.ValidationAgreement

/-!
# Interchange — the services do not care which collaborators they have

A service sees its collaborators through their ports only.  Two sets of collaborators whose calls
run in lockstep are therefore interchangeable: every call of a service runs in lockstep over the
two, whatever the services do in between.  `Interchangeable` lists what is asked of the calls.
-/

namespace SecureFileTransfer

open Prog Service

/-- What of two worlds is compared, and how. -/
structure Comparison (b b' : Backend) where
  /-- The worlds agree, and the listed users are known to be in both. -/
  worlds : List UserId → World b → World b' → Prop
  exns : Exn → Exn → Prop
  /-- The exceptions for a blob that is not there. -/
  missing : Exn → Exn → Prop
  blobs : Bytes → Bytes → Prop
  /-- The texts for which the stores are asked to agree. -/
  plain : Bytes → Prop
  /-- The times for which they are. -/
  timely : Int → Prop

namespace Comparison

variable {b b' : Backend} {α α' : Type} (C : Comparison b b')

/-- The two programs stay in step, with the listed users known. -/
def Lock (known : List UserId) (V : α → α' → Prop) (x : Service b α) (y : Service b' α') : Prop :=
  Lockstep (C.worlds known) C.exns V x y

/-- The exceptions of a read: the same one on both sides, or a blob that is not there. -/
def ReadErrors (e e' : Exn) : Prop := e = e' ∨ C.missing e e'

/-- The failure texts are the same, or they are those for a blob that is not there. -/
inductive SameText : Bytes → Bytes → Prop
  | refl (t : Bytes) : SameText t t
  | missing {e e' : Exn} (h : C.missing e e') : SameText e.what e'.what

theorem ReadErrors.sameText {e e' : Exn} (h : C.ReadErrors e e') : C.SameText e.what e'.what := by
  rcases h with rfl | h
  · exact .refl _
  · exact .missing h

inductive SameResult (V : α → α' → Prop) : Result α → Result α' → Prop
  | success {a : α} {a' : α'} (h : V a a') : SameResult V (.success a) (.success a')
  | failure {t t' : Bytes} (h : C.SameText t t') : SameResult V (.failure t) (.failure t')

structure PlainUser (u : User) : Prop where
  id : C.plain u.id.value
  username : C.plain u.username
  email : C.plain u.email
  role : C.plain u.role
  status : C.plain u.status

/-- A query for a user: from then on the user that is found is known to be there. -/
def Finds (known : List UserId) (x : Service b (Option User)) (y : Service b' (Option User)) :
    Prop :=
  Coupled (C.worlds known) x y
    (fun o o' w w' => o = o' ∧ match o with
      | none => C.worlds known w w'
      | some u => C.PlainUser u ∧ C.worlds (u.id :: known) w w')
    fun e e' w w' => C.exns e e' ∧ C.worlds known w w'

/-- What a download reads of a record. -/
structure SameParties (r r' : FileRecord) : Prop where
  owner : r.owner = r'.owner
  recipient : r.recipient = r'.recipient
  storageId : r.storageId = r'.storageId

end Comparison

section Calls

variable {b b' : Backend} {α α' : Type} {env : Env} {C : Comparison b b'} {known : List UserId}

/-- The two worlds have made the same number of calls, and one more keeps them compared. -/
structure Comparison.Ticks (C : Comparison b b') : Prop where
  exns_refl : ∀ e, C.exns e e
  tick : ∀ {known w w'}, C.worlds known w w' → w.calls = w'.calls ∧ C.worlds known w.tick w'.tick

namespace Comparison.Ticks

/-- A call that throws throws the same on both sides. -/
theorem call_of_refl (h : C.Ticks) {E : Exn → Exn → Prop} (hE : ∀ e, E e e) (c : Call) :
    Lockstep (C.worlds known) E (· = ·) (call env c : Service b Unit)
      (call env c : Service b' Unit) := by
  intro w w' hw
  obtain ⟨hcalls, htick⟩ := h.tick hw
  unfold Service.call
  rw [hcalls]
  cases env.fault c w'.calls with
  | none => exact ⟨rfl, htick⟩
  | some e => exact ⟨hE e, htick⟩

theorem call (h : C.Ticks) (c : Call) :
    C.Lock known (· = ·) (call env c : Service b Unit) (call env c : Service b' Unit) :=
  h.call_of_refl h.exns_refl c

theorem read (h : C.Ticks) {sid : Bytes}
    (hread : ∀ w w', C.worlds known w w' →
      Alike C.ReadErrors C.blobs (b.readBlob sid w.blobs) (b'.readBlob sid w'.blobs)) :
    Lockstep (C.worlds known) C.ReadErrors C.blobs (read env sid) (read env sid) :=
  (h.call_of_refl (fun _ => .inl rfl) _).bind fun _ _ _ => .ask hread

theorem query (h : C.Ticks) {c : Call} {V : α → α' → Prop} {f : World b → Except Exn α}
    {g : World b' → Except Exn α'}
    (hf : ∀ w w', C.worlds known w w' → Alike C.exns V (f w) (g w')) :
    C.Lock known V (query env c f) (query env c g) :=
  (h.call c).bind fun _ _ _ => .ask hf

theorem write (h : C.Ticks) {c : Call} {f : World b → Except Exn (World b)}
    {g : World b' → Except Exn (World b')}
    (hf : ∀ w w', C.worlds known w w' → Alike C.exns (C.worlds known) (f w) (g w')) :
    C.Lock known (· = ·) (write env c f) (write env c g) :=
  (h.call c).bind fun _ _ _ => .update hf

/-- A query for a user whose answer is the same on both sides. -/
theorem finds (h : C.Ticks) {c : Call} {f : World b → Except Exn (Option User)}
    {g : World b' → Except Exn (Option User)}
    (hf : ∀ w w', C.worlds known w w' → Alike C.exns (fun o o' => o = o' ∧
      ∀ u, o = some u → C.PlainUser u ∧ C.worlds (u.id :: known) w w') (f w) (g w')) :
    C.Finds known (Service.query env c f) (Service.query env c g) := by
  refine Coupled.bind (h.call c) fun _ _ => Coupled.ask fun w w' hw => ?_
  have hsame := hf w w' hw.2
  revert hsame
  rcases f w with e | o
  · rcases g w' with e' | o'
    · exact fun he => ⟨he, hw.2⟩
    · exact id
  · rcases g w' with e' | o'
    · exact id
    · rintro ⟨rfl, hfound⟩
      refine ⟨rfl, ?_⟩
      cases o with
      | none => exact hw.2
      | some u => exact hfound u rfl

end Comparison.Ticks

end Calls

/-- The collaborators of the two worlds stay in step, call by call. -/
structure Interchangeable {b b' : Backend} (env : Env) (C : Comparison b b') : Prop where
  exns_refl : ∀ e, C.exns e e
  plain_active : C.plain (ascii "active")
  plain_inactive : C.plain (ascii "inactive")
  forget : ∀ {known id w w'}, C.worlds (id :: known) w w' → C.worlds known w w'
  nowMs : ∀ known, C.Lock known (fun t t' => t = t' ∧ C.timely t) (nowMs env) (nowMs env)
  newId : ∀ known,
    C.Lock known (fun i i' => i = i' ∧ C.plain i.value ∧ i.value ≠ []) (newId env) (newId env)
  record : ∀ known action actor fileId,
    C.Lock known (· = ·) (record env action actor fileId) (record env action actor fileId)
  -- users
  findByUsername : ∀ known {n}, C.plain n →
    C.Finds known (findByUsername env n) (findByUsername env n)
  findByEmail : ∀ known {e}, C.plain e →
    C.Lock known (fun o o' => o.isSome = o'.isSome) (findByEmail env e) (findByEmail env e)
  findById : ∀ known {id : UserId}, C.plain id.value →
    C.Finds known (findById env id) (findById env id)
  getEncodedHash : ∀ known {id : UserId}, C.plain id.value →
    C.Lock known (· = ·) (getEncodedHash env id) (getEncodedHash env id)
  listAll : ∀ known, C.Lock known List.Perm (listAll env) (listAll env)
  saveUser : ∀ known {u encodedHash}, C.PlainUser u → C.plain encodedHash →
    C.Lock known (· = ·) (saveUser env u encodedHash) (saveUser env u encodedHash)
  updateUser : ∀ known {u}, C.PlainUser u →
    C.Lock known (· = ·) (updateUser env u) (updateUser env u)
  recordLoginFailure : ∀ known {id : UserId} now, id ∈ known → C.plain id.value →
    C.Lock known (· = ·) (recordLoginFailure env id now) (recordLoginFailure env id now)
  resetLoginFailures : ∀ known {id : UserId}, id ∈ known → C.plain id.value →
    C.Lock known (· = ·) (resetLoginFailures env id) (resetLoginFailures env id)
  hash : ∀ known pw, C.Lock known (fun h h' => h = h' ∧ C.plain h) (hash env pw) (hash env pw)
  verify : ∀ known encodedHash pw,
    C.Lock known (· = ·) (verify env encodedHash pw) (verify env encodedHash pw)
  -- sessions
  isValid : ∀ known token now,
    C.Lock known (· = ·) (isValid env token now) (isValid env token now)
  findByToken : ∀ known token,
    C.Lock known (fun o o' => o = o' ∧ ∀ s, o = some s → C.plain s.userId.value)
      (findByToken env token) (findByToken env token)
  userFor : ∀ known token,
    C.Lock known (fun u u' => u = u' ∧ C.plain u.value) (userFor env token) (userFor env token)
  createForUser : ∀ known {uid : UserId} now, C.plain uid.value →
    C.Lock known (· = ·) (createForUser env uid now) (createForUser env uid now)
  invalidate : ∀ known token,
    C.Lock known (· = ·) (invalidate env token) (invalidate env token)
  invalidateAllForUser : ∀ known u,
    C.Lock known (· = ·) (invalidateAllForUser env u) (invalidateAllForUser env u)
  -- keys, files, blobs and transfers
  keyExists : ∀ known {uid : UserId}, C.plain uid.value →
    C.Lock known (· = ·) (keyExists env uid) (keyExists env uid)
  saveKey : ∀ known {uid : UserId} pub, C.plain uid.value →
    C.Lock known (· = ·) (saveKey uid pub) (saveKey uid pub)
  existsUploadId : ∀ known {uploadId}, C.plain uploadId →
    C.Lock known (· = ·) (existsUploadId env uploadId) (existsUploadId env uploadId)
  saveFile : ∀ known {a : UploadArgs} {id storage senderId recipientId : UserId} {now},
    C.plain a.origName → C.plain a.uploadId → a.uploadId ≠ [] → C.plain id.value →
    C.plain storage.value → C.plain senderId.value → C.plain recipientId.value → C.timely now →
    id.value ≠ [] →
    C.Lock known (· = ·) (saveFile env (a.record id storage senderId recipientId now))
      (saveFile env (a.record id storage senderId recipientId now))
  findFile : ∀ known {id : FileId}, C.plain id.value →
    C.Lock known (Option.Rel Comparison.SameParties) (findFile env id) (findFile env id)
  stagedWrite : ∀ known sid {data data'}, C.blobs data data' →
    C.Lock known (· = ·) (stagedWrite env sid data) (stagedWrite env sid data')
  removeStaged : ∀ known sid, C.Lock known (· = ·) (removeStaged env sid) (removeStaged env sid)
  read : ∀ known sid,
    Lockstep (C.worlds known) C.ReadErrors C.blobs (read env sid) (read env sid)
  saveTransfer : ∀ known t, C.Lock known (· = ·) (saveTransfer env t) (saveTransfer env t)

namespace Interchangeable

variable {b b' : Backend} {env : Env} {C : Comparison b b'} {known : List UserId} {α α' : Type}
  {V : α → α' → Prop}

section Rules

variable {x : Service b (Option User)} {y : Service b' (Option User)}
  {f : Option User → Service b α} {g : Option User → Service b' α'}

/-- After a query for a user. -/
theorem found_bind (h : Interchangeable env C) (hx : C.Finds known x y)
    (hnone : C.Lock known V (f none) (g none))
    (hsome : ∀ u, C.PlainUser u → C.Lock (u.id :: known) V (f (some u)) (g (some u))) :
    C.Lock known V (x >>= f) (y >>= g) := by
  refine Coupled.bind hx fun o o' => ?_
  rintro w w' ⟨rfl, hfound⟩
  cases o with
  | none => exact hnone w w' hfound
  | some u =>
      exact (hsome u hfound.1).forget (fun _ _ => h.forget) w w' hfound.2

/-- Where only it matters whether there is a user. -/
theorem isSome_of_finds (h : Interchangeable env C) (hx : C.Finds known x y) :
    C.Lock known (fun o o' => o.isSome = o'.isSome) x y := by
  refine Coupled.mono hx (fun _ _ => id) ?_ fun _ _ _ _ => id
  rintro o o' w w' ⟨rfl, hfound⟩
  cases o with
  | none => exact ⟨rfl, hfound⟩
  | some u => exact ⟨rfl, h.forget hfound.2⟩

end Rules

/-- An answer that is recorded first. -/
theorem record_then (h : Interchangeable env C) (action : AuditAction) (actor fileId : Bytes)
    {r : α} {r' : α'} (hr : V r r') :
    C.Lock known V (do Service.record env action actor fileId; return r)
      (do Service.record env action actor fileId; return r') :=
  (h.record known action actor fileId).bind fun _ _ _ => .pure hr

/-- The failure both sides answer with. -/
theorem failed (text : Bytes) : C.SameResult V (.failure text) (.failure text) :=
  .failure (.refl text)

/-! ## AuthService -/

theorem nameOrMailTaken (h : Interchangeable env C) {u email : Bytes} (hu : C.plain u)
    (hemail : C.plain email) :
    C.Lock known (· = ·) (nameOrMailTaken env u email) (nameOrMailTaken env u email) := by
  refine (h.isSome_of_finds (h.findByUsername known hu)).bind fun byName byName' hname => ?_
  rw [hname]
  refine .ite Iff.rfl (fun _ => .pure rfl) fun _ => ?_
  exact (h.findByEmail known hemail).map fun _ _ => id

theorem registerUser (h : Interchangeable env C) {u email pw role : Bytes} (hu : C.plain u)
    (hemail : C.plain email) (hrole : C.plain role) :
    C.Lock known (C.SameResult (· = ·)) (registerUser env u email pw role)
      (registerUser env u email pw role) := by
  refine .ite Iff.rfl (fun _ => .pure (failed _)) fun _ => ?_
  refine (h.nameOrMailTaken hu hemail).bind ?_
  rintro taken _ rfl
  refine .ite Iff.rfl (fun _ => h.record_then _ _ _ (failed _)) fun _ => ?_
  refine (h.hash known pw).bind ?_
  rintro encoded _ ⟨rfl, hencoded⟩
  refine (h.newId known).bind ?_
  rintro id _ ⟨rfl, hid, -⟩
  -- the constructor sees the same arguments, so it throws on both sides or on none
  cases hnew : User.new id u email role (ascii "active") 0 0 with
  | error e =>
      refine Lockstep.bind (V := fun _ _ => False) (.outcome (h.exns_refl e)) ?_
      exact fun _ _ hfalse => hfalse.elim
  | ok nu =>
      obtain ⟨hnid, hname, hmail, hnrole, hstatus⟩ := User.fields_of_new hnew
      have hplain : C.PlainUser nu :=
        { id := by rw [hnid]; exact hid
          username := by rw [hname]; exact hu
          email := by rw [hmail]; exact hemail
          role := by rw [hnrole]; exact hrole
          status := by rw [hstatus]; exact h.plain_active }
      refine Lockstep.bind (V := fun a a' => a = nu ∧ a' = nu) (.outcome ⟨rfl, rfl⟩) ?_
      rintro _ _ ⟨rfl, rfl⟩
      refine Lockstep.bind (V := (· = ·)) ?_ ?_
      · refine .tryCatch ?_ fun _ _ _ => .pure rfl
        exact (h.saveUser known hplain hencoded).bind fun _ _ _ => .pure rfl
      · rintro saved _ rfl
        refine .ite Iff.rfl (fun _ => ?_) fun _ => h.record_then _ _ _ (failed _)
        exact h.record_then _ _ _ (Comparison.SameResult.success rfl)

theorem loginFailed (h : Interchangeable env C) (u : Bytes) :
    C.Lock known (C.SameResult (· = ·)) (loginFailed env u) (loginFailed env u) :=
  h.record_then _ _ _ (failed _)

theorem login (h : Interchangeable env C) {u : Bytes} (hu : C.plain u) (pw : Bytes) :
    C.Lock known (C.SameResult (· = ·)) (login env u pw) (login env u pw) := by
  refine (h.nowMs known).bind ?_
  rintro now _ ⟨rfl, -⟩
  refine h.found_bind (h.findByUsername known hu) (h.loginFailed u) fun user huser => ?_
  refine .ite Iff.rfl (fun _ => h.loginFailed u) fun _ => ?_
  refine (h.getEncodedHash _ huser.id).bind ?_
  rintro enc _ rfl
  refine (h.verify _ enc pw).bind ?_
  rintro ok _ rfl
  refine .ite Iff.rfl (fun _ => ?_) fun _ => ?_
  · exact (h.recordLoginFailure _ now List.mem_cons_self huser.id).bind fun _ _ _ =>
      h.loginFailed u
  · refine (h.resetLoginFailures _ List.mem_cons_self huser.id).bind fun _ _ _ => ?_
    refine (h.createForUser _ now huser.id).bind ?_
    rintro token _ rfl
    exact h.record_then _ _ _ (Comparison.SameResult.success rfl)

theorem logout (h : Interchangeable env C) (tok : SessionId) :
    C.Lock known (· = ·) (logout env tok) (logout env tok) := by
  refine (h.invalidate known tok).bind ?_
  rintro r _ rfl
  exact .ite Iff.rfl (fun _ => h.record_then _ _ _ rfl) fun _ => .pure rfl

/-! ## AdminService -/

theorem isAdmin (h : Interchangeable env C) {id : UserId} (hid : C.plain id.value) :
    C.Lock known (· = ·) (isAdmin env id) (isAdmin env id) :=
  h.found_bind (h.findById known hid) (.pure rfl) fun _ _ => .pure rfl

theorem isAdminSession (h : Interchangeable env C) (token : SessionId) :
    C.Lock known (fun o o' => o = o' ∧ ∀ id, o = some id → C.plain id.value)
      (isAdminSession env token) (isAdminSession env token) := by
  have hnone : ∀ known, C.Lock known (fun o o' => o = o' ∧ ∀ id, o = some id → C.plain id.value)
      (pure (none : Option UserId)) (pure none) :=
    fun _ => .pure ⟨rfl, fun _ hid => by cases hid⟩
  refine (h.nowMs known).bind ?_
  rintro now _ ⟨rfl, -⟩
  refine (h.isValid known token now).bind ?_
  rintro valid _ rfl
  refine .ite Iff.rfl (fun _ => hnone _) fun _ => ?_
  refine (h.findByToken known token).bind ?_
  rintro found _ ⟨rfl, hplain⟩
  cases found with
  | none => exact hnone _
  | some sess =>
      have hsess := hplain sess rfl
      refine h.found_bind (h.findById known hsess) (hnone _) fun user _ => ?_
      refine .ite Iff.rfl (fun _ => hnone _) fun _ => ?_
      refine (h.isAdmin hsess).bind ?_
      rintro admin _ rfl
      refine .ite Iff.rfl (fun _ => .pure ⟨rfl, ?_⟩) fun _ => hnone _
      rintro _ ⟨rfl⟩
      exact hsess

theorem countActiveAdmins (h : Interchangeable env C) :
    C.Lock known (· = ·) (countActiveAdmins env) (countActiveAdmins env) :=
  (h.listAll known).map fun _ _ hperm => hperm.countP_eq _

theorem isLastAdmin (h : Interchangeable env C) (u : User) :
    C.Lock known (· = ·) (isLastAdmin env u) (isLastAdmin env u) := by
  refine .ite Iff.rfl (fun _ => ?_) fun _ => .pure rfl
  exact h.countActiveAdmins.map fun n _ hn => by rw [hn]

theorem plain_setStatus {u : User} {s : Bytes} (hu : C.PlainUser u) (hs : C.plain s) :
    C.PlainUser (u.setStatus s) :=
  ⟨hu.id, hu.username, hu.email, hu.role, hs⟩

theorem activateAs (h : Interchangeable env C) (adminId : UserId) {tgt : UserId}
    (htgt : C.plain tgt.value) :
    C.Lock known (C.SameResult (· = ·)) (activateAs env adminId tgt)
      (activateAs env adminId tgt) := by
  refine h.found_bind (h.findById known htgt) (.pure (failed _)) fun u hu => ?_
  refine (h.updateUser _ (plain_setStatus hu h.plain_active)).bind fun _ _ _ => ?_
  exact h.record_then _ _ _ (Comparison.SameResult.success rfl)

theorem deactivateAs (h : Interchangeable env C) (adminId : UserId) {tgt : UserId}
    (htgt : C.plain tgt.value) :
    C.Lock known (C.SameResult (· = ·)) (deactivateAs env adminId tgt)
      (deactivateAs env adminId tgt) := by
  refine h.found_bind (h.findById known htgt) (.pure (failed _)) fun u hu => ?_
  refine (h.isLastAdmin u).bind ?_
  rintro last _ rfl
  refine .ite Iff.rfl (fun _ => .pure (failed _)) fun _ => ?_
  refine (h.updateUser _ (plain_setStatus hu h.plain_inactive)).bind fun _ _ _ => ?_
  refine (h.invalidateAllForUser _ tgt).bind fun _ _ _ => ?_
  exact h.record_then _ _ _ (Comparison.SameResult.success rfl)

/-- The check of the session overloads, around actions in lockstep. -/
theorem asAdminSession (h : Interchangeable env C) (token : SessionId) (tgt : UserId)
    {action : UserId → Service b (Result UserId)} {action' : UserId → Service b' (Result UserId)}
    (haction : ∀ adminId, C.Lock known (C.SameResult (· = ·)) (action adminId) (action' adminId)) :
    C.Lock known (C.SameResult (· = ·)) (asAdminSession env token tgt action)
      (asAdminSession env token tgt action') := by
  refine (h.isAdminSession token).bind ?_
  rintro found _ ⟨rfl, -⟩
  cases found with
  | none => exact h.record_then _ _ _ (failed _)
  | some adminId => exact haction adminId

/-- The check of the deprecated overloads, around actions in lockstep. -/
theorem asAdmin (h : Interchangeable env C) {admin : UserId} (hadmin : C.plain admin.value)
    {action : UserId → Service b (Result UserId)} {action' : UserId → Service b' (Result UserId)}
    (haction : ∀ adminId, C.Lock known (C.SameResult (· = ·)) (action adminId) (action' adminId)) :
    C.Lock known (C.SameResult (· = ·)) (asAdmin env admin action) (asAdmin env admin action') := by
  refine (h.isAdmin hadmin).bind ?_
  rintro ok _ rfl
  exact .ite Iff.rfl (fun _ => haction _) fun _ => h.record_then _ _ _ (failed _)

/-! ## TransferService -/

/-- The checks of an upload see everything of it but the ciphertext. -/
theorem checkUpload (h : Interchangeable env C) {a : UploadArgs} (blob : Bytes)
    (hrecipient : C.plain a.recipientUsername) :
    C.Lock known
      (fun p p' => p = p' ∧ C.plain p.1.value ∧ C.plain p.2.value ∧ a.uploadId ≠ [])
      (checkUpload env a) (checkUpload env { a with opaqueBytes := blob }) := by
  rw [checkUpload_opaqueBytes env a blob]
  refine (h.nowMs known).bind ?_
  rintro now _ ⟨rfl, -⟩
  refine (h.isValid known a.senderSess now).bind ?_
  rintro valid _ rfl
  refine .ite Iff.rfl (fun _ => ?_) fun _ => ?_
  · exact (h.record known _ _ _).bind fun _ _ _ => .throw (h.exns_refl _)
  refine (h.userFor known a.senderSess).bind ?_
  rintro senderId _ ⟨rfl, hsender⟩
  refine h.found_bind (h.findByUsername known hrecipient) (.throw (h.exns_refl _)) fun u hu => ?_
  refine (h.keyExists _ hu.id).bind ?_
  rintro hasKey _ rfl
  refine .ite Iff.rfl (fun _ => .throw (h.exns_refl _)) fun _ => ?_
  cases PdfFileValidator.validate a.origName a.size (uploadHeader a.origName a.opaqueBytes) with
  | error e =>
      refine Lockstep.bind (V := fun _ _ => False) (.outcome (h.exns_refl e)) ?_
      exact fun _ _ hfalse => hfalse.elim
  | ok _ =>
      refine Lockstep.bind (V := fun _ _ => True) (.outcome trivial) ?_
      intro _ _ _
      refine .ite Iff.rfl (fun _ => .throw (h.exns_refl _)) fun hid => ?_
      exact .pure ⟨rfl, hsender, hu.id, hid⟩

theorem storeUpload (h : Interchangeable env C) {a : UploadArgs} {blob : Bytes}
    (hblob : C.blobs a.opaqueBytes blob) (hname : C.plain a.origName) (hupload : C.plain a.uploadId)
    (hne : a.uploadId ≠ []) {senderId recipientId : UserId} (hsender : C.plain senderId.value)
    (hrecipient : C.plain recipientId.value) :
    C.Lock known (C.SameResult (· = ·)) (storeUpload env a senderId recipientId)
      (storeUpload env { a with opaqueBytes := blob } senderId recipientId) := by
  refine (h.newId known).bind ?_
  rintro fileId _ ⟨rfl, hfile, hfile'⟩
  refine (h.newId known).bind ?_
  rintro storage _ ⟨rfl, hstorage, -⟩
  refine (h.nowMs known).bind ?_
  rintro now _ ⟨rfl, hnow⟩
  refine (h.stagedWrite known _ hblob).bind fun _ _ _ => ?_
  refine Lockstep.bind (V := (· = ·)) ?_ fun _ _ _ => ?_
  · -- the record is the same on both sides: it does not hold the ciphertext
    refine (h.saveFile known hname hupload hne hfile hstorage hsender hrecipient hnow hfile').tryCatch
      fun e e' he => ?_
    refine Lockstep.bind (V := (· = ·)) ?_ fun _ _ _ => .throw he
    exact (h.removeStaged known _).tryCatch fun _ _ _ => .pure rfl
  refine (h.newId known).bind ?_
  rintro transferId _ ⟨rfl, -, -⟩
  refine Lockstep.bind (V := (· = ·)) ?_ fun _ _ _ => ?_
  · exact (h.saveTransfer known _).tryCatch fun _ _ _ => .pure rfl
  · exact h.record_then _ _ _ (Comparison.SameResult.success rfl)

theorem upload (h : Interchangeable env C) {a : UploadArgs} {blob : Bytes}
    (hblob : C.blobs a.opaqueBytes blob) (hrecipient : C.plain a.recipientUsername)
    (hname : C.plain a.origName) (hupload : C.plain a.uploadId) :
    C.Lock known (C.SameResult (· = ·)) (upload env a)
      (upload env { a with opaqueBytes := blob }) := by
  refine (h.checkUpload blob hrecipient).bind ?_
  rintro ⟨senderId, recipientId⟩ _ ⟨rfl, hs, hr, hne⟩
  refine (h.existsUploadId known hupload).bind ?_
  rintro taken _ rfl
  exact .ite Iff.rfl (fun _ => .pure (failed _)) fun _ =>
    h.storeUpload hblob hname hupload hne hs hr

theorem download (h : Interchangeable env C) (requestSess : SessionId) {fid : FileId}
    (hfid : C.plain fid.value) :
    C.Lock known (C.SameResult C.blobs) (download env requestSess fid)
      (download env requestSess fid) := by
  refine (h.nowMs known).bind ?_
  rintro now _ ⟨rfl, -⟩
  refine (h.isValid known requestSess now).bind ?_
  rintro valid _ rfl
  refine .ite Iff.rfl (fun _ => ?_) fun _ => ?_
  · exact (h.record known _ _ _).bind fun _ _ _ => .throw (h.exns_refl _)
  refine (h.userFor known requestSess).bind ?_
  rintro requestor _ ⟨rfl, -⟩
  refine (h.findFile known hfid).bind fun o o' hfound => ?_
  cases hfound with
  | none => exact .pure (failed _)
  | some hparties =>
      rename_i fr fr'
      have hsame : (fr.owner = requestor ∨ fr.recipient = requestor) ↔
          (fr'.owner = requestor ∨ fr'.recipient = requestor) := by
        rw [hparties.owner, hparties.recipient]
      refine .ite hsame (fun _ => ?_) fun _ => h.record_then _ _ _ (failed _)
      -- an exception of `read` is a failure with its text on both sides
      refine Lockstep.bind (V := Alike C.ReadErrors C.blobs) ?_ fun r r' hread => ?_
      · rw [hparties.storageId]
        refine Coupled.tryCatch ((h.read known fr'.storageId).map fun _ _ => id) fun e e' => ?_
        exact Coupled.pure fun _ _ he => he
      · rcases r with e | d
        · rcases r' with e' | d'
          · exact .pure (.failure (Comparison.ReadErrors.sameText C hread))
          · exact hread.elim
        · rcases r' with e' | d'
          · exact hread.elim
          · exact h.record_then _ _ _ (Comparison.SameResult.success hread)

end Interchangeable

/-! ## Every call -/

/-- The same call, but for the ciphertext of an upload. -/
inductive ServiceCall.Matches {b b' : Backend} (C : Comparison b b') : ServiceCall → ServiceCall → Prop
  | registerUser {u email pw role : Bytes} (hu : C.plain u) (hemail : C.plain email)
      (hrole : C.plain role) : Matches C (.registerUser u email pw role) (.registerUser u email pw role)
  | login {u pw : Bytes} (hu : C.plain u) : Matches C (.login u pw) (.login u pw)
  | logout (tok : SessionId) : Matches C (.logout tok) (.logout tok)
  | activate (adminToken : SessionId) {tgt : UserId} (htgt : C.plain tgt.value) :
      Matches C (.activate adminToken tgt) (.activate adminToken tgt)
  | deactivate (adminToken : SessionId) {tgt : UserId} (htgt : C.plain tgt.value) :
      Matches C (.deactivate adminToken tgt) (.deactivate adminToken tgt)
  | activateById {admin tgt : UserId} (hadmin : C.plain admin.value) (htgt : C.plain tgt.value) :
      Matches C (.activateById admin tgt) (.activateById admin tgt)
  | deactivateById {admin tgt : UserId} (hadmin : C.plain admin.value) (htgt : C.plain tgt.value) :
      Matches C (.deactivateById admin tgt) (.deactivateById admin tgt)
  | savePubkey {uid : UserId} {pub : Bytes} (huid : C.plain uid.value) :
      Matches C (.savePubkey uid pub) (.savePubkey uid pub)
  | upload {a : UploadArgs} {blob : Bytes} (hblob : C.blobs a.opaqueBytes blob)
      (hrecipient : C.plain a.recipientUsername) (hname : C.plain a.origName)
      (hupload : C.plain a.uploadId) : Matches C (.upload a) (.upload { a with opaqueBytes := blob })
  | download (requestSess : SessionId) {fid : FileId} (hfid : C.plain fid.value) :
      Matches C (.download requestSess fid) (.download requestSess fid)

inductive ServiceReply.Matches {b b' : Backend} (C : Comparison b b') :
    ServiceReply → ServiceReply → Prop
  | user {r r' : Result UserId} (h : C.SameResult (· = ·) r r') : Matches C (.user r) (.user r')
  | session {r r' : Result SessionId} (h : C.SameResult (· = ·) r r') :
      Matches C (.session r) (.session r')
  | flag (ok : Bool) : Matches C (.flag ok) (.flag ok)
  | saved : Matches C .saved .saved
  | transfer {r r' : Result Transfer} (h : C.SameResult (· = ·) r r') :
      Matches C (.transfer r) (.transfer r')
  | blob {r r' : Result Bytes} (h : C.SameResult C.blobs r r') : Matches C (.blob r) (.blob r')

/-- Every service call runs in lockstep over interchangeable collaborators. -/
theorem Interchangeable.perform {b b' : Backend} {env : Env} {C : Comparison b b'}
    (h : Interchangeable env C) {c c' : ServiceCall} (hc : c.Matches C c') :
    C.Lock [] (ServiceReply.Matches C) (perform env c) (perform env c') := by
  cases hc with
  | registerUser hu hemail hrole =>
      exact (h.registerUser hu hemail hrole).map fun _ _ => .user
  | login hu => exact (h.login hu _).map fun _ _ => .session
  | logout tok => exact (h.logout tok).map fun _ _ hr => hr ▸ .flag _
  | activate adminToken htgt =>
      exact (h.asAdminSession adminToken _ fun adminId => h.activateAs adminId htgt).map
        fun _ _ => .user
  | deactivate adminToken htgt =>
      exact (h.asAdminSession adminToken _ fun adminId => h.deactivateAs adminId htgt).map
        fun _ _ => .user
  | activateById hadmin htgt =>
      exact (h.asAdmin hadmin fun adminId => h.activateAs adminId htgt).map fun _ _ => .user
  | deactivateById hadmin htgt =>
      exact (h.asAdmin hadmin fun adminId => h.deactivateAs adminId htgt).map fun _ _ => .user
  | savePubkey huid => exact (h.saveKey [] _ huid).bind fun _ _ _ => .pure .saved
  | upload hblob hrecipient hname hupload =>
      exact (h.upload hblob hrecipient hname hupload).map fun _ _ => .transfer
  | download requestSess hfid => exact (h.download requestSess hfid).map fun _ _ => .blob

end SecureFileTransfer
