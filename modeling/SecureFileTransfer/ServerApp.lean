import SecureFileTransfer.Lib.Runs
import SecureFileTransfer.Protocol
import SecureFileTransfer.Services

/-!
# ServerApp — the server process and its frame loop

`ServerApp::run`: the boot with the first administrator, then one connection after the other, each
with its own pending uploads and token.  A handler answers one frame; what it sends is collected in
the order of the calls of `sendFrame`, which are taken to succeed (a connection that breaks is one
that hangs up).
-/

namespace SecureFileTransfer

open Prog Service

/-! ## State -/

/-- What a connection keeps between frames. -/
structure Conn where
  pendingInit : Table UploadInit
  pendingData : Table Bytes
  connToken : Bytes

def Conn.fresh : Conn := ⟨∅, ∅, []⟩

/-- What the handler of one frame works on: the process, the connection, the frames sent so far and
the calls of `TransferService::upload` made so far. -/
structure Handling where
  world : World .sqlite
  conn : Conn
  sent : List Frame := []
  uploads : List UploadArgs := []

abbrev Handler := Prog Exn Handling

namespace Handler

variable (env : Env)

/-- A call into a service. -/
def service {α : Type} (x : Service .sqlite α) : Handler α :=
  zoom Handling.world (fun h w => { h with world := w }) x

def conn : Handler Conn := ask fun h => .ok h.conn

def setConn (c : Conn) : Handler Unit := modifyGet fun h => ((), { h with conn := c })

def sendFrame (f : Frame) : Handler Unit := modifyGet fun h => ((), { h with sent := h.sent ++ [f] })

/-- `transfers.upload(...)` -/
def transfersUpload (a : UploadArgs) : Handler (Result Transfer) := do
  modifyGet fun h => ((), { h with uploads := h.uploads ++ [a] })
  service (upload env a)

/-- An `ERR` reply. -/
def sendErr (f : Frame) (body : Bytes := []) : Handler Unit :=
  sendFrame { type := .ERR, requestId := f.requestId, body := body }

/-- `try { ... } catch(...) { ERR }`, around every branch but `LOGOUT`. -/
def guarded (f : Frame) (branch : Handler Unit) : Handler Unit :=
  tryCatch branch fun _ => sendErr f

/-- `sessions.isValid(SessionId{connToken}, clock.nowMs())` -/
def connTokenValid (c : Conn) : Handler Bool := do
  let now ← service (nowMs env)
  service (isValid env ⟨c.connToken⟩ now)

/-! ## The branches -/

def handleRegister (f : Frame) : Handler Unit :=
  guarded f do
    let pl ← outcome (decodeRegister f.body)
    match ← service (registerUser env pl.username pl.email pl.password (ascii "user")) with
    | .success _ =>
        sendFrame
          { type := .REGISTER
            requestId := f.requestId
            body := ascii "Registration succeeded for " ++ pl.username }
    | .failure _ =>
        sendFrame
          { type := .REGISTER, requestId := f.requestId, body := ascii "Registration failed" }

def handleAuth (f : Frame) : Handler Unit :=
  guarded f do
    let pl ← outcome (decodeLogin f.body)
    match ← service (login env pl.username pl.password) with
    | .success token =>
        let c ← conn
        -- the session of an earlier login on this connection stays valid
        setConn { c with connToken := token.value }
        sendFrame { type := .AUTH, requestId := f.requestId, body := token.value }
    | .failure _ => sendErr f (ascii "Login failed")

-- no handler here: an exception ends the connection
def handleLogout (f : Frame) : Handler Unit := do
  let ok ← service (logout env ⟨f.body⟩)
  if ok then
    sendFrame { type := .LOGOUT, requestId := f.requestId, body := ascii "Logged out" }
    let c ← conn
    if c.connToken = f.body then
      setConn { c with connToken := [] }
  else
    sendErr f (ascii "Logout failed")

/-- The texts of a successful administration. -/
def adminMessage (type : MsgType) (targetId : Bytes) : Bytes :=
  if type = .ADMIN_ACTIVATE then
    ascii "Account activated: " ++ targetId
  else
    ascii "Account deactivated: " ++ targetId

def adminAction (type : MsgType) (token : SessionId) (target : UserId) :
    Service .sqlite (Result UserId) :=
  if type = .ADMIN_ACTIVATE then activate env token target else deactivate env token target

def handleAdmin (f : Frame) : Handler Unit :=
  guarded f do
    let pl ← outcome (decodeAdmin f.body)
    match ← service (adminAction env f.type ⟨pl.token⟩ ⟨pl.targetId⟩) with
    | .success _ =>
        sendFrame
          { type := f.type, requestId := f.requestId, body := adminMessage f.type pl.targetId }
    | .failure _ => sendErr f (ascii "Admin denied")

/-- The header `UPLOAD_INIT` is validated with. -/
def fakeHdr : Bytes := ascii "%PDF-1.4"

/-- `UPLOAD_INIT` from the validation on; an announcement of a pending upload starts it again. -/
def acceptInit (f : Frame) (c : Conn) (init : UploadInit) : Handler Unit := do
  match PdfFileValidator.validate init.origName init.size fakeHdr with
  | .error e => sendErr f e.what
  | .ok _ =>
      setConn
        { c with
          pendingInit := c.pendingInit.insert init.uploadId init
          pendingData := c.pendingData.insert init.uploadId [] }
      -- the sender's name for the console; a failure of this call is ignored
      tryCatch (do let _ ← service (findByToken env ⟨c.connToken⟩)) fun _ => return ()
      sendFrame { type := .UPLOAD_INIT, requestId := f.requestId, body := ascii "ok" }

def handleUploadInit (f : Frame) : Handler Unit :=
  guarded f do
    let init ← outcome (decodeUploadInit f.body)
    let c ← conn
    -- decoding comes first, so a body that does not parse is refused with an empty text
    if c.connToken = [] then
      sendErr f (ascii "no token")
    else
      let valid ← connTokenValid env c
      if valid then
        acceptInit env f c init
      else
        sendErr f

def handleUploadData (f : Frame) : Handler Unit :=
  guarded f do
    let data ← outcome (decodeUploadData f.body)
    let c ← conn
    -- no session is asked for: an id that `UPLOAD_INIT` announced is enough
    match c.pendingData.lookup data.uploadId with
    | none => sendErr f
    | some sofar =>
        if data.offset.toNat ≠ sofar.length then
          sendErr f
        else
          setConn
            { c with pendingData := c.pendingData.insert data.uploadId (sofar ++ data.chunk) }
          sendFrame { type := .UPLOAD_DATA, requestId := f.requestId, body := ascii "ok" }

end Handler

/-- The upload id a commit body names: a length-prefixed string, an `UploadData` payload, or the
body itself.  The length is added to 4 in 32 bits. -/
def commitName (body : Bytes) : Bytes :=
  match get32be body 0 with
  | none => body
  | some len =>
      if (len + 4).toNat = body.length then
        body.drop 4
      else
        match decodeUploadData body with
        | .ok d => d.uploadId
        | .error _ => body

/-- An empty name stands for the only pending upload. -/
def Conn.resolve (c : Conn) (body : Bytes) : Bytes :=
  let uploadId := commitName body
  match uploadId, c.pendingInit.entries with
  | [], [⟨only, _⟩] => only
  | _, _ => uploadId

/-- The arguments a commit hands to `TransferService::upload`. -/
def Conn.uploadArgs (c : Conn) (init : UploadInit) (data : Bytes) : UploadArgs where
  senderSess := ⟨c.connToken⟩
  recipientUsername := init.recipient
  origName := init.origName
  opaqueBytes := data
  uploadId := init.uploadId
  size := init.size
  digest := init.digest
  wrapped := init.wrapped

namespace Handler

variable (env : Env)

/-- `UPLOAD_COMMIT` once both pending entries and the session are found. -/
def commitUpload (f : Frame) (c : Conn) (id : Bytes) (init : UploadInit) (data : Bytes) :
    Handler Unit := do
  match ← transfersUpload env (c.uploadArgs init data) with
  | .success t =>
      sendFrame { type := .UPLOAD_COMMIT, requestId := f.requestId, body := t.id.value }
      setConn { c with pendingInit := c.pendingInit.erase id, pendingData := c.pendingData.erase id }
  -- the pending entries stay, and the commit can be tried again
  | .failure error => sendErr f error

/-- `UPLOAD_COMMIT` on the entries of the id in the two maps. -/
def commitPending (f : Frame) (c : Conn) (id : Bytes) : Option UploadInit → Option Bytes → Handler Unit
  | some init, some data => do
      -- the token may have changed since `UPLOAD_INIT`; the one of now is the sender's
      if c.connToken = [] then
        sendErr f
      else
        let valid ← connTokenValid env c
        if valid then
          commitUpload env f c id init data
        else
          sendErr f
  -- an id that only one of the maps has is refused too
  | _, _ => sendErr f

def handleUploadCommit (f : Frame) : Handler Unit :=
  guarded f do
    let c ← conn
    let id := c.resolve f.body
    commitPending env f c id (c.pendingInit.lookup id) (c.pendingData.lookup id)

def handleDownloadReq (f : Frame) : Handler Unit :=
  guarded f do
    let req ← outcome (decodeDownloadReq f.body)
    let c ← conn
    let tok := if req.token = [] then c.connToken else req.token
    match ← service (download env ⟨tok⟩ ⟨req.fileId⟩) with
    | .success opaqueBytes =>
        sendFrame { type := .DOWNLOAD_DATA, requestId := f.requestId, body := opaqueBytes }
    | .failure error => sendErr f error

def handleFrame (f : Frame) : Handler Unit :=
  if f.type = .REGISTER then
    handleRegister env f
  else if f.type = .AUTH then
    handleAuth env f
  else if f.type = .LOGOUT then
    handleLogout env f
  else if f.type = .ADMIN_ACTIVATE ∨ f.type = .ADMIN_DEACTIVATE then
    handleAdmin env f
  else if f.type = .UPLOAD_INIT then
    handleUploadInit env f
  else if f.type = .UPLOAD_DATA then
    handleUploadData f
  else if f.type = .UPLOAD_COMMIT then
    handleUploadCommit env f
  else if f.type = .DOWNLOAD_REQ then
    handleDownloadReq env f
  else if f.type = .LIST ∨ f.type = .DOWNLOAD_DATA then
    -- both are answered with an empty list
    sendFrame { type := .LIST, requestId := f.requestId, body := [] }
  else
    sendErr f

end Handler

/-! ## The process -/

/-- The start of `run`: sessions are in memory, and a server without users asks for an
administrator. -/
def boot (env : Env) (u e p : Bytes) : Service .sqlite Unit := do
  modifyGet fun w => ((), { w with sessions := MemorySessionStore.empty })
  let users ← listAll env
  if users.isEmpty ∧ u ≠ [] ∧ e ≠ [] ∧ 8 ≤ p.length then
    let _ ← registerUser env u e p (ascii "admin")

inductive Phase
  | down
  | listening
  | serving (c : Conn)

structure ServerState where
  world : World .sqlite
  phase : Phase

def ServerState.initial : ServerState := ⟨World.empty .sqlite, .down⟩

/-- What happens to the process: it is (re)started, a client connects, a frame arrives, the client
is gone, or a public key is written to the directory, which no frame does. -/
inductive ServerEvent
  | boot (u e p : Bytes)
  | accept
  | frame (f : Frame)
  | hangup
  | pubkey (uid : UserId) (pub : Bytes)

/-- What one event made the server send and upload. -/
structure Output where
  sent : List Frame := []
  uploads : List UploadArgs := []

def serverStep (env : Env) (s : ServerState) : ServerEvent → Output × ServerState
  | .boot u e p =>
      match boot env u e p s.world with
      | (.ok _, w) => ({}, ⟨w, .listening⟩)
      -- an exception of the boot leaves `run`
      | (.error _, w) => ({}, ⟨w, .down⟩)
  | .accept =>
      match s.phase with
      | .listening => ({}, ⟨s.world, .serving Conn.fresh⟩)
      | _ => ({}, s)
  | .frame f =>
      match s.phase with
      | .serving c =>
          match Handler.handleFrame env f { world := s.world, conn := c } with
          | (.ok _, h) => (⟨h.sent, h.uploads⟩, ⟨h.world, .serving h.conn⟩)
          -- out of a handler only `LOGOUT` throws: the next client is waited for
          | (.error _, h) => (⟨h.sent, h.uploads⟩, ⟨h.world, .listening⟩)
      | _ => ({}, s)
  | .hangup =>
      match s.phase with
      | .serving _ => ({}, ⟨s.world, .listening⟩)
      | _ => ({}, s)
  | .pubkey uid pub =>
      match savePubkey .sqlite uid pub s.world.keys with
      | .ok keys => ({}, ⟨{ s.world with keys := keys }, s.phase⟩)
      | .error _ => ({}, s)

end SecureFileTransfer
