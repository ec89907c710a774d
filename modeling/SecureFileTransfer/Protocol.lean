import SecureFileTransfer.Lib.PrefixCodec
import SecureFileTransfer.Transport

/-!
# Protocol — payload codecs

`src/presentation/protocol.cpp`: six payload kinds, each a concatenation of length-prefixed
strings and fixed-width fields.  The decoders walk the body with an offset, check every bound
before they read, and ignore what follows the last field.
-/

namespace SecureFileTransfer

open PrefixCodec

/-! ## Payloads -/

structure RegisterPayload where
  username : Bytes
  email : Bytes
  password : Bytes
  deriving DecidableEq, Repr

structure LoginPayload where
  username : Bytes
  password : Bytes
  deriving DecidableEq, Repr

structure AdminPayload where
  token : Bytes
  targetId : Bytes
  deriving DecidableEq, Repr

structure UploadInit where
  recipient : Bytes
  origName : Bytes
  uploadId : Bytes
  size : UInt64
  digest : Digest
  wrapped : WrappedKey
  deriving DecidableEq, Repr

structure UploadData where
  uploadId : Bytes
  offset : UInt64
  chunk : Bytes
  deriving DecidableEq, Repr

structure DownloadReq where
  fileId : Bytes
  token : Bytes
  deriving DecidableEq, Repr

/-! ## Encoders -/

def encodeRegister (p : RegisterPayload) : Bytes :=
  putBytesWithLen p.username ++ putBytesWithLen p.email ++ putBytesWithLen p.password

def encodeLogin (p : LoginPayload) : Bytes :=
  putBytesWithLen p.username ++ putBytesWithLen p.password

def encodeAdmin (p : AdminPayload) : Bytes :=
  putBytesWithLen p.token ++ putBytesWithLen p.targetId

def encodeUploadInit (p : UploadInit) : Bytes :=
  putBytesWithLen p.recipient ++ putBytesWithLen p.origName ++ putBytesWithLen p.uploadId ++
    put64be p.size ++ p.digest.val ++
    putBytesWithLen p.wrapped.recipientId.value ++ putBytesWithLen p.wrapped.nonce ++
    putBytesWithLen p.wrapped.bytes ++ putBytesWithLen p.wrapped.alg

def encodeUploadData (p : UploadData) : Bytes :=
  putBytesWithLen p.uploadId ++ put64be p.offset ++ putBytesWithLen p.chunk

def encodeDownloadReq (p : DownloadReq) : Bytes :=
  putBytesWithLen p.fileId ++ putBytesWithLen p.token

/-! ## Decoders -/

/-- The value of a buffer access; an access outside the buffer stops the reader. -/
def inBounds {α : Type} : Option α → StateT Nat (Except Exn) α
  | some a => pure a
  | none => throw Exn.outOfBounds

/-- The lambdas `read`, `readStr` and `readBytes` of the decoders. -/
def readStr : Reader Exn Bytes := fun b => do
  let off ← get
  if off + 4 > b.length then
    throw (Exn.validation "short")
  let len ← inBounds (get32be b off)
  set (off + 4)
  -- computed in `size_t`, so a length near 2^32 does not wrap
  if off + 4 + len.toNat > b.length then
    throw (Exn.validation "short body")
  let s ← inBounds (slice b (off + 4) (off + 4 + len.toNat))
  set (off + 4 + len.toNat)
  return s

/-- The 64-bit fields; `what` is the message of the exception when the body is too short. -/
def read64 (what : String) : Reader Exn UInt64 := fun b => do
  let off ← get
  if off + 8 > b.length then
    throw (Exn.validation what)
  let v ← inBounds (get64be b off)
  set (off + 8)
  return v

def readDigest : Reader Exn Digest := fun b => do
  let off ← get
  if h : off + 32 > b.length then
    throw (Exn.validation "short digest")
  else
    set (off + 32)
    return ⟨(b.drop off).take 32, by rw [List.length_take, List.length_drop]; omega⟩

def readRegister : Reader Exn RegisterPayload := fun b => do
  let username ← readStr b
  let email ← readStr b
  let password ← readStr b
  return { username := username, email := email, password := password }

def readLogin : Reader Exn LoginPayload := fun b => do
  let username ← readStr b
  let password ← readStr b
  return { username := username, password := password }

def readAdmin : Reader Exn AdminPayload := fun b => do
  let token ← readStr b
  let targetId ← readStr b
  return { token := token, targetId := targetId }

/-- The fields of an upload announcement as they stand on the wire. -/
def readUploadInit : Reader Exn UploadInit := fun b => do
  let recipient ← readStr b
  let origName ← readStr b
  let uploadId ← readStr b
  let size ← read64 "short size" b
  let digest ← readDigest b
  -- the wrapped key: recipient, nonce, sealed key, algorithm
  let recipId ← readStr b
  let nonce ← readStr b
  let wrappedBytes ← readStr b
  let alg ← readStr b
  return {
    recipient := recipient, origName := origName, uploadId := uploadId, size := size,
    digest := digest,
    wrapped := { recipientId := ⟨recipId⟩, nonce := nonce, bytes := wrappedBytes, alg := alg } }

def readUploadData : Reader Exn UploadData := fun b => do
  let uploadId ← readStr b
  let offset ← read64 "short offset" b
  let chunk ← readStr b
  return { uploadId := uploadId, offset := offset, chunk := chunk }

def readDownloadReq : Reader Exn DownloadReq := fun b => do
  let fileId ← readStr b
  let token ← readStr b
  return { fileId := fileId, token := token }

/-- The last step of `decodeUploadInit`: an empty algorithm name becomes the default one. -/
def UploadInit.withAlg (p : UploadInit) : UploadInit :=
  if p.wrapped.alg.isEmpty then
    { p with wrapped := { p.wrapped with alg := defaultAlg } }
  else
    p

def decodeRegister (b : Bytes) : Except Exn RegisterPayload := readRegister.decode b
def decodeLogin (b : Bytes) : Except Exn LoginPayload := readLogin.decode b
def decodeAdmin (b : Bytes) : Except Exn AdminPayload := readAdmin.decode b
def decodeUploadInit (b : Bytes) : Except Exn UploadInit :=
  UploadInit.withAlg <$> readUploadInit.decode b
def decodeUploadData (b : Bytes) : Except Exn UploadData := readUploadData.decode b
def decodeDownloadReq (b : Bytes) : Except Exn DownloadReq := readDownloadReq.decode b

end SecureFileTransfer
