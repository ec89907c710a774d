import SecureFileTransfer.FileValidator
import SecureFileTransfer.Lib.Program
import SecureFileTransfer.Stores

/-!
# Services — AuthService, AdminService and TransferService

The application layer over its collaborators.  What the process does not decide itself is an
environment: the clock, the random bytes, the password hasher, and for every collaborator call
whether it throws.  A call that throws has no effect of its own; what was done before stays done.
-/

namespace SecureFileTransfer

open Prog

/-! ## The world of a server process -/

/-- The collaborator operations, as far as a call of them can fail. -/
inductive Call
  | findByUsername
  | findByEmail
  | findById
  | saveUser
  | updateUser
  | recordLoginFailure
  | resetLoginFailures
  | getEncodedHash
  | listAll
  | hash
  | verify
  | createForUser
  | findByToken
  | invalidate
  | invalidateAllForUser
  | isValid
  | userFor
  | keyExists
  | existsUploadId
  | saveFile
  | findFile
  | stagedWrite
  | removeStaged
  | read
  | saveTransfer
  | record (action : AuditAction)
  deriving DecidableEq, Repr

/-- What the process draws on: the n-th reading of the clock, the n-th id and token it draws, the
password hasher, and whether the n-th collaborator call throws. -/
structure Env where
  clock : Nat → Int
  randomId : Nat → RandomBytes 16
  randomToken : Nat → RandomBytes 32
  hash : Nat → Bytes → Bytes
  verify : Bytes → Bytes → Bool
  fault : Call → Nat → Option Exn

/-- An environment that counts: ids and tokens are numbered, time stands still, nothing throws. -/
def Env.counting : Env where
  clock _ := 0
  randomId n := ⟨List.replicate 15 0 ++ [UInt8.ofNat n], by simp⟩
  randomToken n := ⟨List.replicate 31 0 ++ [UInt8.ofNat n], by simp⟩
  hash _ pw := pw
  verify encodedHash pw := encodedHash == pw
  fault _ _ := none

/-- The stores, in the configuration `b`. -/
structure Stores (b : Backend) where
  users : b.users.State
  files : b.files.State
  keys : Table Bytes
  sessions : MemorySessionStore
  blobs : Table Bytes
  transfers : SqliteTransferRepository

namespace Stores

variable {b : Backend}

def withUsers (s : Stores b) (users : b.users.State) : Stores b := { s with users := users }
def withFiles (s : Stores b) (files : b.files.State) : Stores b := { s with files := files }
def withSessions (s : Stores b) (st : MemorySessionStore) : Stores b := { s with sessions := st }
def withBlobs (s : Stores b) (blobs : Table Bytes) : Stores b := { s with blobs := blobs }
def withTransfers (s : Stores b) (ts : SqliteTransferRepository) : Stores b :=
  { s with transfers := ts }

section Fields

variable (s : Stores b) (users : b.users.State) (files : b.files.State) (st : MemorySessionStore)
  (blobs : Table Bytes) (ts : SqliteTransferRepository)

@[simp] theorem withUsers_users : (s.withUsers users).users = users := rfl
@[simp] theorem withUsers_files : (s.withUsers users).files = s.files := rfl
@[simp] theorem withUsers_sessions : (s.withUsers users).sessions = s.sessions := rfl
@[simp] theorem withUsers_blobs : (s.withUsers users).blobs = s.blobs := rfl
@[simp] theorem withUsers_transfers : (s.withUsers users).transfers = s.transfers := rfl
@[simp] theorem withFiles_users : (s.withFiles files).users = s.users := rfl
@[simp] theorem withFiles_files : (s.withFiles files).files = files := rfl
@[simp] theorem withFiles_sessions : (s.withFiles files).sessions = s.sessions := rfl
@[simp] theorem withFiles_blobs : (s.withFiles files).blobs = s.blobs := rfl
@[simp] theorem withSessions_users : (s.withSessions st).users = s.users := rfl
@[simp] theorem withSessions_files : (s.withSessions st).files = s.files := rfl
@[simp] theorem withSessions_sessions : (s.withSessions st).sessions = st := rfl
@[simp] theorem withSessions_blobs : (s.withSessions st).blobs = s.blobs := rfl
@[simp] theorem withSessions_transfers : (s.withSessions st).transfers = s.transfers := rfl
@[simp] theorem withBlobs_users : (s.withBlobs blobs).users = s.users := rfl
@[simp] theorem withBlobs_files : (s.withBlobs blobs).files = s.files := rfl
@[simp] theorem withBlobs_sessions : (s.withBlobs blobs).sessions = s.sessions := rfl
@[simp] theorem withBlobs_blobs : (s.withBlobs blobs).blobs = blobs := rfl
@[simp] theorem withTransfers_users : (s.withTransfers ts).users = s.users := rfl
@[simp] theorem withTransfers_files : (s.withTransfers ts).files = s.files := rfl
@[simp] theorem withTransfers_sessions : (s.withTransfers ts).sessions = s.sessions := rfl
@[simp] theorem withTransfers_blobs : (s.withTransfers ts).blobs = s.blobs := rfl

end Fields

end Stores

/-- The stores, the events handed to the audit logger, and how much of the environment is used. -/
structure World (b : Backend) extends Stores b where
  audit : List AuditEvent
  clockReads : Nat
  ids : Nat
  tokens : Nat
  calls : Nat

def Stores.empty (b : Backend) : Stores b where
  users := b.users.empty
  files := b.files.empty
  keys := ∅
  sessions := MemorySessionStore.empty
  blobs := ∅
  transfers := SqliteTransferRepository.empty

def World.empty (b : Backend) : World b where
  toStores := Stores.empty b
  audit := []
  clockReads := 0
  ids := 0
  tokens := 0
  calls := 0

/-- A collaborator was called. -/
def World.tick {b : Backend} (w : World b) : World b := { w with calls := w.calls + 1 }

abbrev Service (b : Backend) := Prog Exn (World b)

namespace Service

variable {b : Backend} (env : Env)

/-- The call itself, before its effect. -/
def call (c : Call) : Service b Unit := fun w =>
  match env.fault c w.calls with
  | some e => (.error e, w.tick)
  | none => (.ok (), w.tick)

/-- A call that reads. -/
def query {α : Type} (c : Call) (f : World b → Except Exn α) : Service b α := do
  call env c
  ask f

/-- A call that writes. -/
def write (c : Call) (f : World b → Except Exn (World b)) : Service b Unit := do
  call env c
  update f

def nowMs : Service b Int :=
  modifyGet fun w => (env.clock w.clockReads, { w with clockReads := w.clockReads + 1 })

def newId : Service b UserId :=
  modifyGet fun w => (generateUserId (env.randomId w.ids), { w with ids := w.ids + 1 })

def newToken : Service b (RandomBytes 32) :=
  modifyGet fun w => (env.randomToken w.tokens, { w with tokens := w.tokens + 1 })

/-! ### The collaborators -/

def findByUsername (n : Bytes) : Service b (Option User) :=
  query env .findByUsername fun w => b.users.findByUsername w.users n

def findByEmail (e : Bytes) : Service b (Option User) :=
  query env .findByEmail fun w => b.users.findByEmail w.users e

def findById (id : UserId) : Service b (Option User) :=
  query env .findById fun w => b.users.findById w.users id

def getEncodedHash (id : UserId) : Service b Bytes :=
  query env .getEncodedHash fun w => b.users.getEncodedHash w.users id

def listAll : Service b (List User) :=
  query env .listAll fun w => b.users.listAll w.users

/-- A write of the user repository. -/
def writeUsers (c : Call) (f : b.users.State → Except Exn b.users.State) : Service b Unit :=
  write env c fun w => (f w.users).map fun users => { w with users := users }

def saveUser (u : User) (encodedHash : Bytes) : Service b Unit :=
  writeUsers env .saveUser (b.users.save u encodedHash)

def updateUser (u : User) : Service b Unit :=
  writeUsers env .updateUser (b.users.update u)

def recordLoginFailure (id : UserId) (now : Int) : Service b Unit :=
  writeUsers env .recordLoginFailure (b.users.recordLoginFailure id now)

def resetLoginFailures (id : UserId) : Service b Unit :=
  writeUsers env .resetLoginFailures (b.users.resetLoginFailures id)

def hash (pw : Bytes) : Service b Bytes :=
  query env .hash fun w => .ok (env.hash w.calls pw)

def verify (encodedHash pw : Bytes) : Service b Bool :=
  query env .verify fun _ => .ok (env.verify encodedHash pw)

def isValid (token : SessionId) (now : Int) : Service b Bool :=
  query env .isValid fun w => .ok (w.sessions.isValid token now)

def findByToken (token : SessionId) : Service b (Option Session) :=
  query env .findByToken fun w => .ok (w.sessions.findByToken token)

def userFor (token : SessionId) : Service b UserId :=
  query env .userFor fun w => w.sessions.userFor token

/-- The random bytes are drawn before anything can go wrong with the session. -/
def createForUser (uid : UserId) (now : Int) : Service b SessionId := do
  call env .createForUser
  let random ← newToken env
  update fun w =>
    (w.sessions.createForUser random uid now).map fun st => { w with sessions := st }
  return sessionToken random

def invalidate (token : SessionId) : Service b Bool := do
  call env .invalidate
  modifyGet fun w =>
    ((w.sessions.findByToken token).isSome, { w with sessions := w.sessions.invalidate token })

def invalidateAllForUser (u : UserId) : Service b Unit :=
  write env .invalidateAllForUser fun w =>
    .ok { w with sessions := w.sessions.invalidateAllForUser u }

def keyExists (uid : UserId) : Service b Bool :=
  query env .keyExists fun w => .ok (pubkeyExists b w.keys uid)

def existsUploadId (uploadId : Bytes) : Service b Bool :=
  query env .existsUploadId fun w => .ok (b.files.existsUploadId w.files uploadId)

def saveFile (r : FileRecord) : Service b Unit :=
  write env .saveFile fun w => (b.files.save r w.files).map fun files => { w with files := files }

def findFile (id : FileId) : Service b (Option FileRecord) :=
  query env .findFile fun w => .ok (b.files.findById w.files id)

def stagedWrite (storageId data : Bytes) : Service b Unit :=
  write env .stagedWrite fun w =>
    .ok { w with blobs := MemoryStorage.stagedWrite storageId data w.blobs }

def removeStaged (storageId : Bytes) : Service b Unit :=
  write env .removeStaged fun w =>
    .ok { w with blobs := MemoryStorage.removeStaged storageId w.blobs }

def read (storageId : Bytes) : Service b Bytes :=
  query env .read fun w => b.readBlob storageId w.blobs

def saveTransfer (t : Transfer) : Service b Unit :=
  write env .saveTransfer fun w => (w.transfers.save t).map fun ts => { w with transfers := ts }

/-- `audit_->record`: the sequence number, the time and the hashes are the logger's. -/
def record (action : AuditAction) (actor : Bytes) (fileId : Bytes := []) : Service b Unit :=
  write env (.record action) fun w =>
    .ok { w with audit := w.audit ++ [{ actor := actor, action := action.text, fileId := fileId }] }

/-! ### AuthService -/

/-- `repo_->findByUsername(u).ok || repo_->findByEmail(email).ok` -/
def nameOrMailTaken (u email : Bytes) : Service b Bool := do
  let byName ← findByUsername env u
  if byName.isSome then
    return true
  else
    let byMail ← findByEmail env email
    return byMail.isSome

def registerUser (u email pw role : Bytes) : Service b (Result UserId) := do
  -- refused before a store is read, and without an audit entry
  if u = [] ∨ email = [] ∨ pw.length < 8 then
    return .failure (ascii "Registration failed")
  else
    let taken ← nameOrMailTaken env u email
    if taken then
      record env .REGISTER_FAIL (ascii "system")
      return .failure (ascii "Registration failed")
    else
      let encoded ← hash env pw
      let id ← newId env
      -- outside of the handlers: what this throws leaves `registerUser`
      let nu ← outcome (User.new id u email role (ascii "active") 0 0)
      -- both handlers of the source do the same
      let saved ← tryCatch (do saveUser env nu encoded; return true) fun _ => return false
      if saved then
        record env .REGISTER_OK u
        return .success id
      else
        record env .REGISTER_FAIL (ascii "system")
        return .failure (ascii "Registration failed")

/-- The answer to a login that is refused: it is recorded first. -/
def loginFailed (u : Bytes) : Service b (Result SessionId) := do
  record env .LOGIN_FAIL u
  return .failure (ascii "Login failed")

def login (u pw : Bytes) : Service b (Result SessionId) := do
  let now ← nowMs env
  match ← findByUsername env u with
  | none => loginFailed env u
  | some user =>
      -- inactive or locked out: the password is not looked at and no failure is counted
      if !user.canLogin now then
        loginFailed env u
      else
        let enc ← getEncodedHash env user.id
        if !(← verify env enc pw) then
          recordLoginFailure env user.id now
          loginFailed env u
        else
          -- the counters are cleared first, so they stay cleared when no session can be created
          resetLoginFailures env user.id
          let token ← createForUser env user.id now
          record env .LOGIN_OK u
          return .success token

def logout (tok : SessionId) : Service b Bool := do
  let r ← invalidate env tok
  if r then
    -- the entry does not say who logged out
    record env .LOGOUT []
    return true
  else
    return false

/-! ### AdminService -/

def isAdmin (id : UserId) : Service b Bool := do
  match ← findById env id with
  | none => return false
  | some u => return u.isAdmin && u.isActive

/-- The administrator whose session the token is. -/
def isAdminSession (token : SessionId) : Service b (Option UserId) := do
  let now ← nowMs env
  if !(← isValid env token now) then
    return none
  else
    match ← findByToken env token with
    | none => return none
    | some sess =>
        match ← findById env sess.userId with
        | none => return none
        | some user =>
            if !user.isActive then
              return none
            -- `isAdmin` reads the user a second time
            else if ← isAdmin env sess.userId then
              return some sess.userId
            else
              return none

def countActiveAdmins : Service b Nat := do
  let users ← listAll env
  return users.countP fun u => u.isAdmin && u.isActive

/-- What both overloads of `activate` do once the administrator is known. -/
def activateAs (adminId tgt : UserId) : Service b (Result UserId) := do
  match ← findById env tgt with
  | none => return .failure (ascii "not found")
  | some u =>
      updateUser env (u.setStatus (ascii "active"))
      record env .ACTIVATE adminId.value tgt.value
      return .success tgt

/-- `u.isAdmin() && u.isActive() && countActiveAdmins()<=1` -/
def isLastAdmin (u : User) : Service b Bool := do
  if u.isAdmin && u.isActive then
    let n ← countActiveAdmins env
    return decide (n ≤ 1)
  else
    return false

/-- What both overloads of `deactivate` do once the administrator is known. -/
def deactivateAs (adminId tgt : UserId) : Service b (Result UserId) := do
  match ← findById env tgt with
  | none => return .failure (ascii "not found")
  | some targetUser =>
      let last ← isLastAdmin env targetUser
      if last then
        return .failure (ascii "cannot deactivate last admin")
      else
        -- a throw after this write leaves the sessions of an inactive user alive
        updateUser env (targetUser.setStatus (ascii "inactive"))
        invalidateAllForUser env tgt
        record env .DEACTIVATE adminId.value tgt.value
        return .success tgt

/-- The check of the session overloads. -/
def asAdminSession (token : SessionId) (tgt : UserId)
    (action : UserId → Service b (Result UserId)) : Service b (Result UserId) := do
  match ← isAdminSession env token with
  | none =>
      -- the target stands in the field for the file
      record env .ADMIN_DENIED [] tgt.value
      return .failure (ascii "Admin denied")
  | some adminId => action adminId

/-- The check of the deprecated overloads. -/
def asAdmin (admin : UserId) (action : UserId → Service b (Result UserId)) :
    Service b (Result UserId) := do
  if ← isAdmin env admin then
    action admin
  else
    record env .ADMIN_DENIED admin.value
    return .failure (ascii "Admin denied")

def activate (adminToken : SessionId) (tgt : UserId) : Service b (Result UserId) :=
  asAdminSession env adminToken tgt fun adminId => activateAs env adminId tgt

def deactivate (adminToken : SessionId) (tgt : UserId) : Service b (Result UserId) :=
  asAdminSession env adminToken tgt fun adminId => deactivateAs env adminId tgt

/-- `activate(const UserId&, const UserId&)` -/
def activateById (admin tgt : UserId) : Service b (Result UserId) :=
  asAdmin env admin fun adminId => activateAs env adminId tgt

/-- `deactivate(const UserId&, const UserId&)` -/
def deactivateById (admin tgt : UserId) : Service b (Result UserId) :=
  asAdmin env admin fun adminId => deactivateAs env adminId tgt

end Service

/-! ### TransferService -/

/-- The header a ciphertext is validated with: a name that ends in `.pdf` is given a PDF header. -/
def uploadHeader (origName blob : Bytes) : Bytes :=
  let hdr := blob.take 8
  let endsPdf := (ascii ".pdf").isSuffixOf origName
  if endsPdf && !hasPdfMagic hdr then ascii "%PDF-1.4" else hdr

/-- The arguments of `TransferService::upload`. -/
structure UploadArgs where
  senderSess : SessionId
  recipientUsername : Bytes
  origName : Bytes
  opaqueBytes : Bytes
  uploadId : Bytes
  size : UInt64
  digest : Digest
  wrapped : WrappedKey
  deriving DecidableEq, Repr

/-- The record of an upload. -/
def UploadArgs.record (a : UploadArgs) (id storage senderId recipientId : UserId) (now : Int) :
    FileRecord where
  id := ⟨id.value⟩
  owner := senderId
  recipient := recipientId
  origName := a.origName
  storageId := storage.value ++ ascii ".bin"
  size := a.size
  digest := a.digest
  wrapped := a.wrapped
  uploadId := a.uploadId
  createdAt := now

namespace Service

variable {b : Backend} (env : Env)

/-- `upload` up to the first write: who sends to whom. -/
def checkUpload (a : UploadArgs) : Service b (UserId × UserId) := do
  let now ← nowMs env
  if !(← isValid env a.senderSess now) then
    -- the token itself is the actor of the entry
    record env .DENIED a.senderSess.value
    throw (.auth "Login failed")
  else
    let senderId ← userFor env a.senderSess
    match ← findByUsername env a.recipientUsername with
    | none => throw (.notFound "recipient not found")
    | some recipient =>
        if !(← keyExists env recipient.id) then
          throw (.validation "recipient pubkey missing")
        else
          -- the declared size is checked, not the length of the bytes
          outcome (PdfFileValidator.validate a.origName a.size (uploadHeader a.origName a.opaqueBytes))
          if a.uploadId = [] then
            throw (.validation "uploadId empty")
          else
            return (senderId, recipient.id)

/-- `upload` from the generated names on: blob, record, transfer, audit. -/
def storeUpload (a : UploadArgs) (senderId recipientId : UserId) : Service b (Result Transfer) := do
  let fileId ← newId env
  let storage ← newId env
  let now ← nowMs env
  let fr := a.record fileId storage senderId recipientId now
  -- the blob comes first: until the record is saved it belongs to no file
  stagedWrite env fr.storageId a.opaqueBytes
  tryCatch (saveFile env fr) fun e => do
    -- the exception of `save` is the one that leaves, whatever the cleaning up does
    tryCatch (removeStaged env fr.storageId) fun _ => return ()
    throw e
  let transferId ← newId env
  let t : Transfer :=
    { id := ⟨transferId.value⟩
      file := fr.id
      sender := senderId
      recipient := recipientId
      status := .UPLOADED }
  -- a transfer that cannot be saved does not fail the upload
  tryCatch (saveTransfer env t) fun _ => return ()
  record env .UPLOAD senderId.value fr.id.value
  return .success t

def upload (a : UploadArgs) : Service b (Result Transfer) := do
  let (senderId, recipientId) ← checkUpload env a
  -- an upload id is compared with those of all users
  if ← existsUploadId env a.uploadId then
    return .failure (ascii "duplicate upload_id")
  else
    storeUpload env a senderId recipientId

def download (requestSess : SessionId) (fid : FileId) : Service b (Result Bytes) := do
  let now ← nowMs env
  if !(← isValid env requestSess now) then
    record env .DENIED requestSess.value fid.value
    throw (.auth "Login failed")
  else
    let requestor ← userFor env requestSess
    match ← findFile env fid with
    | none => return .failure (ascii "not found")
    | some fr =>
        if fr.owner = requestor ∨ fr.recipient = requestor then
          let blob : Except Exn Bytes ←
            -- an exception of `read` becomes a failure with its text, and is not audited
            tryCatch (do let data ← read env fr.storageId; return .ok data) fun e => return .error e
          match blob with
          | .error e => return .failure e.what
          | .ok opaqueBytes =>
              record env .DOWNLOAD requestor.value fid.value
              return .success opaqueBytes
        else
          record env .DENIED requestor.value fid.value
          return .failure (ascii "denied")

end Service

end SecureFileTransfer
