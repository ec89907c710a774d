import SecureFileTransfer.FileRepository
import SecureFileTransfer.Sha256
import SecureFileTransfer.UserRepository

/-!
# Stores — sessions, blobs, transfers and public keys

The remaining collaborators of the services: `MemorySessionStore`, the blob store as
`MemoryStorage` has it, `SqliteTransferRepository` and the recipient key directory, and the
generators of ids and tokens as functions of the random bytes they draw.
-/

namespace SecureFileTransfer

open StdString

/-! ## Generated names -/

/-- The bytes one call draws from `std::random_device`. -/
abbrev RandomBytes (n : Nat) := {bytes : Bytes // bytes.length = n}

/-- `generateUserId()`: users, files, storage files and transfers are all named by it. -/
def generateUserId (random : RandomBytes 16) : UserId :=
  let h := hexBytes random.1
  ⟨h.take 8 ++ ascii "-" ++ (h.drop 8).take 4 ++ ascii "-" ++ (h.drop 12).take 4 ++ ascii "-" ++
    (h.drop 16).take 4 ++ ascii "-" ++ (h.drop 20).take 12⟩

/-- The token of a session. -/
def sessionToken (random : RandomBytes 32) : SessionId :=
  ⟨ascii "sess_" ++ hexBytes random.1⟩

theorem length_generateUserId (random : RandomBytes 16) :
    (generateUserId random).value.length = 36 := by
  simp [generateUserId, random.2, ascii]

theorem length_sessionToken (random : RandomBytes 32) :
    (sessionToken random).value.length = 69 := by
  simp [sessionToken, random.2, ascii]

theorem zero_not_mem_generateUserId (random : RandomBytes 16) :
    (0 : UInt8) ∉ (generateUserId random).value := by
  -- only hexadecimal digits and dashes
  have hhex : (0 : UInt8) ∉ hexBytes random.1 := fun h =>
    absurd (isHexDigit_of_mem_hexBytes h) (by decide)
  have hpart : ∀ a b, (0 : UInt8) ∉ ((hexBytes random.1).drop a).take b := fun a b h =>
    hhex (List.mem_of_mem_drop (List.mem_of_mem_take h))
  have hdash : (0 : UInt8) ∉ ascii "-" := by decide
  have hhead : (0 : UInt8) ∉ (hexBytes random.1).take 8 := fun h => hhex (List.mem_of_mem_take h)
  simp only [generateUserId, List.mem_append, hhead, hdash, hpart, or_self, not_false_eq_true]

/-! ## Sessions -/

/-- `byHash_`: a session stands under the hash of its token. -/
structure MemorySessionStore where
  byHash : Table Session

namespace MemorySessionStore

def empty : MemorySessionStore := ⟨∅⟩

def hashToken (t : Bytes) : Bytes := RealSha256.hex t

/-- The session `createForUser` opens: it lasts one hour. -/
def newSession (random : RandomBytes 32) (uid : UserId) (now : Int) : Except Exn Session :=
  -- 3600 s, in milliseconds; a sum that wraps around is refused as a time range
  Session.new (sessionToken random) uid now (int64 (now + 3600 * 1000))

/-- What the constructor of the session throws leaves the store as it was. -/
def createForUser (random : RandomBytes 32) (uid : UserId) (now : Int) (st : MemorySessionStore) :
    Except Exn MemorySessionStore := do
  let s ← newSession random uid now
  return ⟨st.byHash.insert (hashToken (sessionToken random).value) s⟩

def findByToken (st : MemorySessionStore) (token : SessionId) : Option Session :=
  st.byHash.lookup (hashToken token.value)

/-- The store after `invalidate`; the call returns whether the token is known. -/
def invalidate (token : SessionId) (st : MemorySessionStore) : MemorySessionStore :=
  match st.findByToken token with
  -- an unknown token changes nothing
  | none => st
  | some s => ⟨st.byHash.insert (hashToken token.value) { s with revoked := true }⟩

def revokeFor (u : UserId) (s : Session) : Session :=
  if s.userId = u ∧ !s.revoked then { s with revoked := true } else s

-- the number of revoked sessions, which the source returns, is used by no caller
def invalidateAllForUser (u : UserId) (st : MemorySessionStore) : MemorySessionStore :=
  ⟨st.byHash.mapValues (revokeFor u)⟩

def isValid (st : MemorySessionStore) (token : SessionId) (now : Int) : Bool :=
  match st.findByToken token with
  | none => false
  | some s => s.isValid now

def userFor (st : MemorySessionStore) (token : SessionId) : Except Exn UserId :=
  match st.findByToken token with
  | none => .error (.auth "Login failed")
  | some s => .ok s.userId

theorem createForUser_eq_ok {random : RandomBytes 32} {uid : UserId} {now : Int}
    {st st' : MemorySessionStore} (h : st.createForUser random uid now = .ok st') :
    ∃ s, newSession random uid now = .ok s ∧
      st' = ⟨st.byHash.insert (hashToken (sessionToken random).value) s⟩ := by
  unfold createForUser at h
  cases hnew : newSession random uid now with
  | error e =>
      rw [hnew] at h
      cases h
  | ok s =>
      rw [hnew] at h
      cases h
      exact ⟨s, rfl, rfl⟩

theorem lookup_of_createForUser {random : RandomBytes 32} {uid : UserId} {now : Int}
    {st st' : MemorySessionStore} (h : st.createForUser random uid now = .ok st') :
    ∃ s, newSession random uid now = .ok s ∧ ∀ k, st'.byHash.lookup k =
      if k = hashToken (sessionToken random).value then some s else st.byHash.lookup k := by
  obtain ⟨s, hnew, rfl⟩ := createForUser_eq_ok h
  exact ⟨s, hnew, fun k => Table.lookup_insert_eq _ _ _ _⟩

/-- An hour after `now` is still a time. -/
theorem createForUser_of_fits (random : RandomBytes 32) (uid : UserId) {now : Int}
    (hlow : -2 ^ 63 ≤ now) (hhigh : now + 3600 * 1000 < 2 ^ 63) (st : MemorySessionStore) :
    ∃ st', st.createForUser random uid now = .ok st' := by
  have hlt : now < int64 (now + 3600 * 1000) := by
    rw [int64_of_fits (by omega) hhigh]
    omega
  unfold createForUser newSession
  rw [Session.new_of_lt hlt]
  exact ⟨_, rfl⟩

theorem isValid_iff {st : MemorySessionStore} {token : SessionId} {now : Int} :
    st.isValid token now = true ↔ ∃ s, st.findByToken token = some s ∧ s.isValid now = true := by
  unfold isValid
  cases st.findByToken token <;> simp

theorem userFor_eq_ok {st : MemorySessionStore} {token : SessionId} {s : Session}
    (h : st.findByToken token = some s) : st.userFor token = .ok s.userId := by
  simp [userFor, h]

end MemorySessionStore

/-! ## Blobs -/

namespace MemoryStorage

def stagedWrite (storageId data : Bytes) (m : Table Bytes) : Table Bytes := m.insert storageId data

def removeStaged (storageId : Bytes) (m : Table Bytes) : Table Bytes :=
  (m.erase storageId).erase (ascii "tmp." ++ storageId ++ ascii ".part")

end MemoryStorage

/-! ## Transfers -/

def statusToString : TransferStatus → Bytes
  | .CREATED => ascii "CREATED"
  | .UPLOADED => ascii "UPLOADED"
  | .DOWNLOADED => ascii "DOWNLOADED"
  | .FAILED => ascii "FAILED"

def stringToStatus (s : Bytes) : TransferStatus :=
  if s = ascii "UPLOADED" then .UPLOADED
  else if s = ascii "DOWNLOADED" then .DOWNLOADED
  else if s = ascii "FAILED" then .FAILED
  else .CREATED

/-- A row of the `transfers` table; the time columns are always empty. -/
structure TransferRow where
  id : Text
  fileId : Text
  sender : Text
  recipient : Text
  status : Text
  deriving DecidableEq

structure SqliteTransferRepository where
  rows : List TransferRow
  id : Unique TransferRow.id rows

namespace TransferRow

def ofTransfer (t : Transfer) : TransferRow where
  id := Text.bind t.id.value
  fileId := Text.bind t.file.value
  sender := Text.bind t.sender.value
  recipient := Text.bind t.recipient.value
  status := Text.bind (statusToString t.status)

def toTransfer (row : TransferRow) : Transfer where
  id := ⟨row.id.1⟩
  file := ⟨row.fileId.1⟩
  sender := ⟨row.sender.1⟩
  recipient := ⟨row.recipient.1⟩
  status := stringToStatus row.status.1

end TransferRow

namespace SqliteTransferRepository

def empty : SqliteTransferRepository := ⟨[], Unique.nil⟩

def save (t : Transfer) (repo : SqliteTransferRepository) :
    Except Exn SqliteTransferRepository :=
  if h : ∀ row ∈ repo.rows, row.id ≠ (TransferRow.ofTransfer t).id then
    .ok { rows := repo.rows ++ [TransferRow.ofTransfer t], id := repo.id.concat h }
  else
    .error (.validation "duplicate transfer id")

def findById (repo : SqliteTransferRepository) (id : TransferId) : Option Transfer :=
  (repo.rows.find? fun row => row.id = Text.bind id.value).map TransferRow.toTransfer

end SqliteTransferRepository

/-- A transfer whose ids hold no zero byte is read back as it was saved. -/
theorem TransferRow.toTransfer_ofTransfer {t : Transfer} (hid : (0 : UInt8) ∉ t.id.value)
    (hfile : (0 : UInt8) ∉ t.file.value) (hsender : (0 : UInt8) ∉ t.sender.value)
    (hrecipient : (0 : UInt8) ∉ t.recipient.value) :
    (TransferRow.ofTransfer t).toTransfer = t := by
  have hstatus : ∀ s, stringToStatus (cstr (statusToString s)) = s := by
    intro s
    cases s <;> decide
  simp [TransferRow.toTransfer, TransferRow.ofTransfer, Text.bind, cstr_of_not_mem hid,
    cstr_of_not_mem hfile, cstr_of_not_mem hsender, cstr_of_not_mem hrecipient, hstatus]

theorem SqliteTransferRepository.findById_save {t : Transfer}
    {repo repo' : SqliteTransferRepository} (h : save t repo = .ok repo') :
    repo'.findById t.id = some (TransferRow.ofTransfer t).toTransfer := by
  unfold save at h
  split at h
  · cases h
    have hfind : (repo.rows ++ [TransferRow.ofTransfer t]).find?
        (fun row => row.id = Text.bind t.id.value) = some (TransferRow.ofTransfer t) :=
      (repo.id.concat ‹_›).find?_iff.2 ⟨by simp, rfl⟩
    rw [findById, hfind]
    rfl
  · cases h

/-! ## The two configurations -/

/-- The repositories a service is built with: the in-memory ones of the tests or the SQLite ones
of the server. -/
inductive Backend
  | memory
  | sqlite
  deriving DecidableEq, Repr

namespace Backend

def users : Backend → UserRepository
  | memory => memoryUsers
  | sqlite => sqliteUsers

def files : Backend → FileRepository
  | memory => memoryFiles
  | sqlite => sqliteFiles

/-- What a text column keeps of a string. -/
def text : Backend → Bytes → Bytes
  | memory => id
  | sqlite => cstr

/-- The exception for a blob that is not there: `MemoryStorage`, `BinaryFileStorage`. -/
def missingBlob : Backend → Bytes → Exn
  | memory, _ => .notFound "missing blob"
  | sqlite, storageId => ⟨.notFound, ascii "missing blob: " ++ storageId⟩

/-- `read` of the storage. -/
def readBlob (b : Backend) (storageId : Bytes) (m : Table Bytes) : Except Exn Bytes :=
  match m.lookup storageId with
  | none => .error (b.missingBlob storageId)
  | some data => .ok data

theorem readBlob_of_some {b : Backend} {storageId data : Bytes} {m : Table Bytes}
    (h : m.lookup storageId = some data) : b.readBlob storageId m = .ok data := by
  rw [readBlob, h]

theorem readBlob_of_none {b : Backend} {storageId : Bytes} {m : Table Bytes}
    (h : m.lookup storageId = none) : b.readBlob storageId m = .error (b.missingBlob storageId) := by
  rw [readBlob, h]

theorem users_lawful : (b : Backend) → b.users.Lawful
  | memory => MemoryUserRepository.lawful
  | sqlite => SqliteUserRepository.lawful

def fileView : (b : Backend) → b.files.View
  | memory => MemoryFileRepository.view
  | sqlite => SqliteFileRepository.view

/-- The records a file repository holds. -/
def records (b : Backend) (s : b.files.State) : List FileRecord := b.fileView.records s

end Backend

/-- The stored public keys; `exists` is asked before an upload. -/
def pubkeyExists (b : Backend) (keys : Table Bytes) (uid : UserId) : Bool :=
  !uid.value.isEmpty && (keys.lookup (b.text uid.value)).isSome

def savePubkey (b : Backend) (uid : UserId) (pub : Bytes) (keys : Table Bytes) :
    Except Exn (Table Bytes) :=
  if uid.value = [] then
    .error (.validation "user_id empty")
  else if b = .memory ∧ pub = [] then
    .error (.validation "pubkey empty")
  -- both repositories want the 32 bytes of an X25519 key
  else if pub.length ≠ 32 then
    .error (.validation "pubkey must be 32 bytes")
  else if (keys.lookup (b.text uid.value)).isSome then
    .error (.validation "duplicate user_id")
  else
    .ok (keys.insert (b.text uid.value) pub)

end SecureFileTransfer
