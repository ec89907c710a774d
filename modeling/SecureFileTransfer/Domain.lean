import SecureFileTransfer.Lib.Bytes

/-!
# Domain — identifiers, records and exceptions of the transfer system

The value types of `include/domain`.  Strings are byte strings: every one of them can arrive from
the network.  Counters and times are integers, and arithmetic on them wraps as their machine types
do.  A class whose constructor validates its fields is a structure that carries the validated fact,
and its constructor is a function into `Except`.
-/

namespace SecureFileTransfer

/-! ## Exceptions -/

/-- The exception classes the program throws; `runtime` is a plain `std::runtime_error`.
`outOfBounds` is not an exception: it marks a read outside a buffer, which the C++ code would not
notice. -/
inductive ExnClass
  | validation
  | auth
  | notFound
  | storage
  | integrity
  | transport
  | runtime
  | outOfBounds
  deriving DecidableEq, Repr

structure Exn where
  cls : ExnClass
  what : Bytes
  deriving DecidableEq, Repr

namespace Exn

def validation (what : String) : Exn := ⟨.validation, ascii what⟩
def auth (what : String) : Exn := ⟨.auth, ascii what⟩
def notFound (what : String) : Exn := ⟨.notFound, ascii what⟩
def storage (what : String) : Exn := ⟨.storage, ascii what⟩
def runtime (what : String) : Exn := ⟨.runtime, ascii what⟩
def outOfBounds : Exn := ⟨.outOfBounds, []⟩

end Exn

/-- `Result<T>`: the outcome of an operation that reports failure without throwing. -/
inductive Result (α : Type)
  | success (value : α)
  | failure (error : Bytes)
  deriving DecidableEq, Repr

/-! ## Machine integers -/

/-- What an `int` holds of a result: the two's complement of its low bits. -/
def int32 (x : Int) : Int := x.bmod (2 ^ 32)

/-- What an `int64_t` holds of a result. -/
def int64 (x : Int) : Int := x.bmod (2 ^ 64)

theorem int32_of_fits {x : Int} (hlow : -2 ^ 31 ≤ x) (hhigh : x < 2 ^ 31) : int32 x = x :=
  Int.bmod_eq_of_le hlow hhigh

theorem int64_of_fits {x : Int} (hlow : -2 ^ 63 ≤ x) (hhigh : x < 2 ^ 63) : int64 x = x :=
  Int.bmod_eq_of_le hlow hhigh

/-- One wrap around brings a sum that is too large below what was added to. -/
theorem int64_of_overflow {x : Int} (hlow : 2 ^ 63 ≤ x) (hhigh : x < 3 * 2 ^ 63) :
    int64 x = x - 2 ^ 64 := by
  rw [int64, ← Int.sub_bmod_right]
  exact Int.bmod_eq_of_le (by omega) (by omega)

/-! ## Identifiers -/

structure UserId where
  value : Bytes
  deriving DecidableEq, Repr

structure FileId where
  value : Bytes
  deriving DecidableEq, Repr

structure TransferId where
  value : Bytes
  deriving DecidableEq, Repr

structure SessionId where
  value : Bytes
  deriving DecidableEq, Repr

theorem UserId.value_eq_iff {i j : UserId} : i.value = j.value ↔ i = j :=
  ⟨fun h => by cases i; cases j; exact congrArg UserId.mk h, fun h => h ▸ rfl⟩

theorem FileId.value_eq_iff {i j : FileId} : i.value = j.value ↔ i = j :=
  ⟨fun h => by cases i; cases j; exact congrArg FileId.mk h, fun h => h ▸ rfl⟩

/-! ## Files -/

abbrev Digest := {bytes : Bytes // bytes.length = 32}

def zeroDigest : Digest := ⟨List.replicate 32 0, List.length_replicate⟩

def defaultAlg : Bytes := ascii "X25519-AES-GCM-Seal"

/-- The fields are public and there is a default constructor, so nothing forces the shape that
the four-argument constructor `WrappedKey.new` checks. -/
structure WrappedKey where
  recipientId : UserId := ⟨[]⟩
  nonce : Bytes := []
  bytes : Bytes := []
  alg : Bytes := defaultAlg
  deriving DecidableEq, Repr

def WrappedKey.new (rid : UserId) (nonce bytes alg : Bytes) : Except Exn WrappedKey :=
  if nonce.length ≠ 12 then
    .error (.validation "nonce must be 12")
  else if bytes.isEmpty then
    .error (.validation "wrapped bytes empty")
  else
    .ok { recipientId := rid, nonce := nonce, bytes := bytes, alg := alg }

/-- What the constructor of `WrappedKey` enforces. -/
def WrappedKey.Shaped (w : WrappedKey) : Prop := w.nonce.length = 12 ∧ w.bytes ≠ []

theorem WrappedKey.new_eq_ok_iff {w : WrappedKey} :
    WrappedKey.new w.recipientId w.nonce w.bytes w.alg = .ok w ↔ w.Shaped := by
  rw [WrappedKey.new, WrappedKey.Shaped]
  by_cases hnonce : w.nonce.length = 12
  · by_cases hbytes : w.bytes = []
    · simp [hnonce, hbytes]
    · simp [hnonce, hbytes]
  · simp [hnonce]

structure FileRecord where
  id : FileId
  owner : UserId
  origName : Bytes
  storageId : Bytes
  size : UInt64
  digest : Digest
  wrapped : WrappedKey
  recipient : UserId
  uploadId : Bytes
  createdAt : Int
  deriving DecidableEq, Repr

/-! ## Transfers -/

inductive TransferStatus
  | CREATED
  | UPLOADED
  | DOWNLOADED
  | FAILED
  deriving DecidableEq, Repr

structure Transfer where
  id : TransferId
  file : FileId
  sender : UserId
  recipient : UserId
  status : TransferStatus
  deriving DecidableEq, Repr

/-! ## Sessions -/

/-- A session built by its validating constructor: the time range is never empty. -/
structure Session where
  id : SessionId
  userId : UserId
  createdAt : Int
  expiresAt : Int
  revoked : Bool
  range : createdAt < expiresAt
  deriving DecidableEq, Repr

namespace Session

def new (sid : SessionId) (uid : UserId) (c e : Int) : Except Exn Session :=
  if h : c < e then
    .ok { id := sid, userId := uid, createdAt := c, expiresAt := e, revoked := false, range := h }
  else
    .error (.validation "session time range invalid")

theorem fields_of_new {sid : SessionId} {uid : UserId} {c e : Int} {s : Session}
    (h : Session.new sid uid c e = .ok s) :
    s.id = sid ∧ s.userId = uid ∧ s.createdAt = c ∧ s.expiresAt = e ∧ s.revoked = false := by
  unfold Session.new at h
  split at h
  · cases h
    exact ⟨rfl, rfl, rfl, rfl, rfl⟩
  · cases h

theorem new_of_lt {sid : SessionId} {uid : UserId} {c e : Int} (h : c < e) :
    Session.new sid uid c e = .ok ⟨sid, uid, c, e, false, h⟩ := dif_pos h

def isValid (s : Session) (now : Int) : Bool :=
  !s.revoked && decide (s.createdAt ≤ now) && decide (now < s.expiresAt)

end Session

/-! ## Users -/

/-- A user whose constructor ran: identifier, name and email are not empty. -/
structure User where
  id : UserId
  username : Bytes
  email : Bytes
  role : Bytes
  status : Bytes
  failedAttempts : Int
  lockoutUntil : Int
  nonempty : id.value ≠ [] ∧ username ≠ [] ∧ email ≠ []
  deriving DecidableEq, Repr

namespace User

def new (id : UserId) (username email role status : Bytes) (failedAttempts lockoutUntil : Int) :
    Except Exn User :=
  if h : id.value ≠ [] ∧ username ≠ [] ∧ email ≠ [] then
    .ok
      { id := id
        username := username
        email := email
        role := role
        status := status
        failedAttempts := failedAttempts
        lockoutUntil := lockoutUntil
        nonempty := h }
  else
    .error (.validation "user fields empty")

theorem fields_of_new {id : UserId} {username email role status : Bytes} {f l : Int} {u : User}
    (h : User.new id username email role status f l = .ok u) :
    u.id = id ∧ u.username = username ∧ u.email = email ∧ u.role = role ∧ u.status = status := by
  unfold User.new at h
  split at h
  · cases h
    exact ⟨rfl, rfl, rfl, rfl, rfl⟩
  · cases h

def isAdmin (u : User) : Bool := u.role == ascii "admin"

def isActive (u : User) : Bool := u.status == ascii "active"

def canLogin (u : User) (now : Int) : Bool := u.isActive && decide (u.lockoutUntil ≤ now)

def setStatus (u : User) (s : Bytes) : User := { u with status := s }

def setLockout (u : User) (until' : Int) (attempts : Int) : User :=
  { u with lockoutUntil := until', failedAttempts := attempts }

end User

/-! ## Audit events -/

structure AuditEvent where
  seq : UInt64 := 0
  ts : Bytes := []
  actor : Bytes := []
  action : Bytes := []
  fileId : Bytes := []
  cipherHash : Bytes := []
  prevHash : Bytes := []
  msgHash : Bytes := []
  deriving DecidableEq, Repr

/-- The action names of the log.  The first nine are the `AuditAction` constants; the last three
are the literals the transfer service writes. -/
inductive AuditAction
  | REGISTER_OK
  | REGISTER_FAIL
  | LOGIN_OK
  | LOGIN_FAIL
  | LOGOUT
  | ACTIVATE
  | DEACTIVATE
  | ADMIN_DENIED
  | TLS_FAIL
  | DENIED
  | UPLOAD
  | DOWNLOAD
  deriving DecidableEq, Repr

namespace AuditAction

def text : AuditAction → Bytes
  | REGISTER_OK => ascii "REGISTER_OK"
  | REGISTER_FAIL => ascii "REGISTER_FAIL"
  | LOGIN_OK => ascii "LOGIN_OK"
  | LOGIN_FAIL => ascii "LOGIN_FAIL"
  | LOGOUT => ascii "LOGOUT"
  | ACTIVATE => ascii "ACTIVATE"
  | DEACTIVATE => ascii "DEACTIVATE"
  | ADMIN_DENIED => ascii "ADMIN_DENIED"
  | TLS_FAIL => ascii "TLS_FAIL"
  | DENIED => ascii "DENIED"
  | UPLOAD => ascii "UPLOAD"
  | DOWNLOAD => ascii "DOWNLOAD"

end AuditAction

end SecureFileTransfer
