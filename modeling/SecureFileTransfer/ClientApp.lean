import SecureFileTransfer.ClientCrypto
import SecureFileTransfer.Lib.Calls
import SecureFileTransfer.Lib.Runs
import SecureFileTransfer.Protocol

/-!
# ClientApp — the menu of the client

`ClientApp::run` of `src/presentation/client_app.cpp`, from the connection on: a command of the
menu, with the answers to its questions, is code over the calls it makes to the network, the file
system and the random generator.  What the client prints is recorded without colours and prompts.
-/

namespace SecureFileTransfer

open Calls Runs

/-! ## Calls -/

/-- What the client prints. -/
inductive Line
  | safe (msg : Bytes)
  | error (msg : Bytes)
  | plain (msg : Bytes)
  deriving DecidableEq

/-- An encryption that an upload made. -/
structure Encryption where
  recipient : Bytes
  plain : Bytes
  out : EncryptOut
  deriving DecidableEq

inductive ClientCall
  | randBytes (n : Nat)
  /-- The random bytes of `generateUserId`. -/
  | randomId
  | sendFrame (f : Frame)
  | recvFrame
  | createDirectories
  /-- `std::ofstream(path, trunc)`, `write` and `close`. -/
  | writeFile (path data : Bytes)
  | readFile (path : Bytes)
  | print (line : Line)
  /-- Not a call: it marks that `encrypt` has returned. -/
  | encrypted (e : Encryption)

/-- `randBytes` answers `none` when it fails, `sendFrame` and `createDirectories` answer the text of
the exception they throw, `recvFrame` answers `none` for `false`, `readFile` and `writeFile` answer
whether the file could be opened. -/
@[reducible] def ClientCall.ans : ClientCall → Type
  | .randBytes n => Option (RandomBytes n)
  | .randomId => RandomBytes 16
  | .sendFrame _ => Option Bytes
  | .recvFrame => Option Frame
  | .createDirectories => Option Bytes
  | .writeFile _ _ => Bool
  | .readFile _ => Option Bytes
  | .print _ => Unit
  | .encrypted _ => Unit

abbrev Client := Calls ClientCall ClientCall.ans Exn

namespace Client

def randBytes (n : Nat) : Client (Option (RandomBytes n)) := ask (ClientCall.randBytes n)
def randomId : Client (RandomBytes 16) := ask ClientCall.randomId
def recvFrame : Client (Option Frame) := ask ClientCall.recvFrame
def writeFile (path data : Bytes) : Client Bool := ask (ClientCall.writeFile path data)
def readFile (path : Bytes) : Client (Option Bytes) := ask (ClientCall.readFile path)
def printSafe (msg : Bytes) : Client Unit := ask (ClientCall.print (.safe msg))
def printError (msg : Bytes) : Client Unit := ask (ClientCall.print (.error msg))
def cout (msg : Bytes) : Client Unit := ask (ClientCall.print (.plain msg))
def encrypted (e : Encryption) : Client Unit := ask (ClientCall.encrypted e)

/-- A value, or an exception to throw. -/
def outcome {α : Type} : Except Exn α → Client α
  | .ok a => pure a
  | .error e => throw e

/-- A call that throws. -/
def throwing (failed : Option Bytes) : Client Unit :=
  match failed with
  | none => pure ()
  | some text => throw ⟨.runtime, text⟩

def sendFrame (f : Frame) : Client Unit := do
  let failed ← ask (ClientCall.sendFrame f)
  throwing failed

def createDirectories : Client Unit := do
  let failed ← ask ClientCall.createDirectories
  throwing failed

end Client

/-! ## Files and keys -/

def keyPathFor (user : Bytes) : Bytes := ascii "./storage/client_" ++ user ++ ascii ".key"

/-- `f.read(out, 32); return f.gcount() == 32;` -/
def privKeyOf (data : Bytes) : Option Key :=
  if h : 32 ≤ data.length then some ⟨data.take 32, by simp [h]⟩ else none

/-- `std::filesystem::path(p).filename()` -/
def filename (p : Bytes) : Bytes := (p.reverse.takeWhile (· ≠ 47)).reverse

/-- `a[0] == 'y' || a[0] == 'Y'` -/
def askYesNo (a : Bytes) : Bool :=
  match a.head? with
  | some c => c == 121 || c == 89
  | none => false

/-- The local variables of `run`. -/
structure ClientVars where
  sessionToken : Bytes := []
  loggedUser : Bytes := []
  localKeys : Table KeyPair := ∅
  pubCache : Table Bytes := ∅

namespace ClientVars

/-- `localKeys[user] = kp; pubCache[user] = kp.pub;` -/
def setKeys (v : ClientVars) (user : Bytes) (kp : KeyPair) : ClientVars :=
  { v with localKeys := v.localKeys.insert user kp, pubCache := v.pubCache.insert user kp.pub.1 }

end ClientVars

/-- A choice from the menu, with the lines that are typed for it. -/
inductive Command
  | register (user email pw answer : Bytes)
  | login (user pw : Bytes)
  | logout
  | upload (filePath recipient answer : Bytes)
  | download (fileId outPath : Bytes)
  | quit
  | other

namespace ClientApp

open Client ClientCryptoProvider

/-- A stream that cannot be opened or written is not noticed. -/
def savePrivKey (user : Bytes) (priv : Key) : Client Unit := do
  createDirectories
  let _ ← writeFile (keyPathFor user) priv.1
  pure ()

def loadPrivKey (user : Bytes) : Client (Option Key) := do
  let data ← readFile (keyPathFor user)
  pure (data.bind privKeyOf)

def readFileBytes (path : Bytes) : Client Bytes := do
  match ← readFile path with
  | some data => pure data
  | none => throw ⟨.runtime, ascii "cannot open file " ++ path⟩

def writeFileBytes (path data : Bytes) : Client Unit := do
  let opened ← writeFile path data
  if opened then
    pure ()
  else
    throw ⟨.runtime, ascii "cannot write file " ++ path⟩

variable (ssl : OpenSsl)

def generateKeys : Client KeyPair := do
  let random ← randBytes 32
  outcome (KeyPair.generate ssl random)

/-- A new key pair, saved and cached. -/
def newKeys (v : ClientVars) (user : Bytes) : Client ClientVars := do
  let kp ← generateKeys ssl
  savePrivKey user kp.priv
  pure (v.setKeys user kp)

/-! ## Register, Login, Logout -/

/-- The answer to a registration is only printed. -/
def printReply (resp : Frame) : Client Unit :=
  if resp.type = .REGISTER then printSafe resp.body else printError resp.body

def register (v : ClientVars) (user email pw answer : Bytes) : Client ClientVars :=
  if askYesNo answer then do
    -- a key file of that name is overwritten before the server is asked
    let v ← newKeys ssl v user
    cout (ascii "Generated X25519 keypair for " ++ user ++ ascii " (priv saved to " ++
      keyPathFor user ++ ascii " 0600)")
    sendFrame { type := .REGISTER, requestId := 1, body := encodeRegister ⟨user, email, pw⟩ }
    match ← recvFrame with
    | some resp => do
        printReply resp
        pure v
    | none => pure v
  else
    pure v

/-- Load or ensure a key pair of the user who logs in. -/
def ensureKeys (v : ClientVars) (user : Bytes) : Client ClientVars := do
  match ← loadPrivKey user with
  | some priv =>
      match v.localKeys.lookup user with
      | some _ => pure v
      | none =>
          -- the public key is not derived from the private one, and stays zero
          pure { v with localKeys := v.localKeys.insert user { pub := zeroKey, priv := priv } }
  | none => do
      let v ← newKeys ssl v user
      cout (ascii "Generated new keypair for " ++ user ++ ascii " (no prior key found)")
      pure v

/-- The branch of `login` for an answer of type `AUTH`. -/
def loggedIn (v : ClientVars) (user token : Bytes) : Client ClientVars := do
  let v ← ensureKeys ssl { v with sessionToken := token, loggedUser := user } user
  printSafe (ascii "Login succeeded")
  cout (ascii "Session established (token not displayed)")
  pure v

def login (v : ClientVars) (user pw : Bytes) : Client ClientVars := do
  sendFrame { type := .AUTH, requestId := 2, body := encodeLogin ⟨user, pw⟩ }
  match ← recvFrame with
  | some resp =>
      if resp.type = .AUTH then
        loggedIn ssl v user resp.body
      else do
        printError (if resp.body = [] then ascii "Login failed" else resp.body)
        pure v
  | none => pure v

def logout (v : ClientVars) : Client ClientVars :=
  if v.sessionToken = [] then do
    printError (ascii "Not logged in")
    pure v
  else do
    sendFrame { type := .LOGOUT, requestId := 3, body := v.sessionToken }
    match ← recvFrame with
    | some resp => do
        printSafe resp.body
        -- whatever the answer says
        pure { v with sessionToken := [], loggedUser := [] }
    | none => pure v

/-! ## Upload -/

/-- `const size_t CHUNK = 1*1024*1024` -/
def chunkSize : Nat := 1 * 1024 * 1024

/-- No reply, or an `ERR`. -/
def refused (reply : Option Frame) : Bool :=
  match reply with
  | some r => r.type == .ERR
  | none => true

/-- The loop over the chunks.  A turn sends at least one byte, so `cipher.length` turns are
enough. -/
def sendChunks (uploadId cipher : Bytes) : Nat → Nat → Client Unit
  | 0, _ => pure ()
  | turns + 1, offset =>
      if offset < cipher.length then do
        let n := min chunkSize (cipher.length - offset)
        let chunk := (cipher.drop offset).take n
        sendFrame
          { type := .UPLOAD_DATA
            requestId := 4
            body := encodeUploadData ⟨uploadId, UInt64.ofNat offset, chunk⟩ }
        let reply ← recvFrame
        if refused reply then
          -- the loop ends here, the commit is sent all the same
          printError (ascii "UPLOAD_DATA failed")
        else
          sendChunks uploadId cipher turns (offset + n)
      else
        pure ()

/-- The frames of an upload. -/
def sendUpload (init : UploadInit) (cipher : Bytes) : Client Unit := do
  sendFrame { type := .UPLOAD_INIT, requestId := 4, body := encodeUploadInit init }
  let reply ← recvFrame
  if refused reply then
    printError (ascii "UPLOAD_INIT failed")
  else do
    sendChunks init.uploadId cipher cipher.length 0
    sendFrame { type := .UPLOAD_COMMIT, requestId := 4, body := putBytesWithLen init.uploadId }
    match ← recvFrame with
    | some r =>
        if r.type = .UPLOAD_COMMIT then
          printSafe (ascii "UPLOAD ok transfer " ++ r.body)
        else
          printError (ascii "UPLOAD COMMIT failed: " ++ r.body)
    | none => pure ()

-- the dash is U+2014
def notCached : Bytes :=
  ascii "Recipient pubkey not cached " ++ [0xE2, 0x80, 0x94] ++
    ascii (" upload requires recipient pubkey. Do LIST or ensure recipient registered on this " ++
      "client.")

/-- The body of the `try` of an upload. -/
def uploadFile (v : ClientVars) (filePath recipient : Bytes) : Client Unit := do
  let plain ← readFileBytes filePath
  match v.pubCache.lookup recipient with
  | none => printError notCached
  | some recipPub => do
      -- the three draws of `encrypt`
      let dek ← randBytes 32
      let nonce ← randBytes 12
      let ephPriv ← randBytes 32
      let enc ← outcome (encrypt ssl ⟨dek, nonce, ephPriv⟩ plain ⟨recipient⟩ recipPub)
      encrypted ⟨recipient, plain, enc⟩
      let uploadId ← randomId
      sendUpload
        { recipient := recipient
          origName := filename filePath
          uploadId := (generateUserId uploadId).value
          size := UInt64.ofNat plain.length
          digest := enc.digest
          wrapped := enc.wrapped }
        enc.cipher

def upload (v : ClientVars) (filePath recipient answer : Bytes) : Client Unit :=
  if v.sessionToken = [] then
    printError (ascii "Not logged in")
  else if askYesNo answer then
    tryCatch (uploadFile ssl v filePath recipient) fun e =>
      printError (ascii "Upload error: " ++ e.what)
  else
    pure ()

/-! ## Download -/

/-- The file a download is saved to. -/
def savePath (fileId outPath : Bytes) : Bytes :=
  if outPath = [] then fileId ++ ascii ".pdf" else outPath

/-- `opaque` after the attempt to decode it as an `UploadData`. -/
def opaqueOf (body : Bytes) : Bytes :=
  if body.length ≥ 4 then
    match decodeUploadData body with
    | .ok d => d.chunk
    | .error _ => body
  else
    body

/-- The branch of `download` for an answer of type `DOWNLOAD_DATA`. -/
def saveDownload (v : ClientVars) (outPath body : Bytes) : Client Unit :=
  if v.loggedUser = [] then
    printError (ascii "No logged user for privkey")
  else do
    let priv ← loadPrivKey v.loggedUser
    if priv.isNone && (v.localKeys.lookup v.loggedUser).isNone then
      printError (ascii "No privkey for " ++ v.loggedUser)
    else do
      -- the private key was only asked for: what is saved is still encrypted
      writeFileBytes outPath (opaqueOf body)
      printSafe (ascii "DOWNLOAD saved to " ++ outPath ++
        ascii " (opaque, decrypt locally if you have wrapped/digest)")

def downloadFile (v : ClientVars) (fileId outPath : Bytes) : Client Unit := do
  sendFrame
    { type := .DOWNLOAD_REQ, requestId := 5, body := encodeDownloadReq ⟨fileId, v.sessionToken⟩ }
  match ← recvFrame with
  | some resp =>
      if resp.type = .DOWNLOAD_DATA then
        saveDownload v outPath resp.body
      else if resp.type = .ERR then
        printError (ascii "DOWNLOAD failed: " ++
          (if resp.body = [] then ascii "denied" else resp.body))
      else
        printError (ascii "Unexpected reply")
  | none => pure ()

def download (v : ClientVars) (fileId outPath : Bytes) : Client Unit :=
  if v.sessionToken = [] then
    printError (ascii "Not logged in")
  else
    tryCatch (downloadFile v fileId (savePath fileId outPath)) fun e =>
      printError (ascii "Download error: " ++ e.what)

/-- One turn of the menu; `none` after `Quit`. -/
def turn (v : ClientVars) : Command → Client (Option ClientVars)
  | .register user email pw answer => do return some (← register ssl v user email pw answer)
  | .login user pw => do return some (← login ssl v user pw)
  | .logout => do return some (← logout v)
  | .upload filePath recipient answer => do
      upload ssl v filePath recipient answer
      return some v
  | .download fileId outPath => do
      download v fileId outPath
      return some v
  | .quit => pure none
  | .other => pure (some v)

end ClientApp

/-! ## Runs -/

/-- The files, by what a path resolves to, and the encryptions so far. -/
structure ClientDisk where
  files : Bytes → Option Bytes
  encrypted : List Encryption

/-- The bytes of an upload id that was not drawn. -/
def zeroId : RandomBytes 16 := ⟨List.replicate 16 0, List.length_replicate⟩

/-- What the environment decides about a call. -/
structure Reaction where
  random : (n : Nat) → Option (RandomBytes n) := fun _ => none
  randomId : RandomBytes 16 := zeroId
  failure : Option Bytes := none
  received : Option Frame := none
  /-- The file can be opened. -/
  opened : Bool := true
  /-- How many bytes can be read or written, if not all. -/
  limit : Option Nat := none

namespace Reaction

def cut (ρ : Reaction) (data : Bytes) : Bytes :=
  match ρ.limit with
  | some n => data.take n
  | none => data

end Reaction

namespace ClientDisk

variable (resolve : Bytes → Bytes)

/-- The answer to a call, and the disk after it. -/
def act : (c : ClientCall) → Reaction → ClientDisk → c.ans × ClientDisk
  | .randBytes n, ρ, d => (ρ.random n, d)
  | .randomId, ρ, d => (ρ.randomId, d)
  | .sendFrame _, ρ, d => (ρ.failure, d)
  | .recvFrame, ρ, d => (ρ.received, d)
  | .createDirectories, ρ, d => (ρ.failure, d)
  | .writeFile path data, ρ, d =>
      if ρ.opened then
        (true, { d with files := Function.update d.files (resolve path) (some (ρ.cut data)) })
      else
        (false, d)
  | .readFile path, ρ, d => (if ρ.opened then (d.files (resolve path)).map ρ.cut else none, d)
  | .print _, _, d => ((), d)
  | .encrypted e, _, d => ((), { d with encrypted := d.encrypted ++ [e] })

/-- The private key in the key file of a user. -/
def storedKey (d : ClientDisk) (user : Bytes) : Option Key :=
  (d.files (resolve (keyPathFor user))).bind privKeyOf

end ClientDisk

/-- `vars` is `none` when `run` has ended, by `Quit` or by an exception. -/
structure ClientState where
  vars : Option ClientVars
  disk : ClientDisk

structure ClientInput where
  command : Command
  reactions : Nat → Reaction

namespace ClientState

/-- The client starts with the files that are there. -/
def initial (files : Bytes → Option Bytes) : ClientState := ⟨some {}, ⟨files, []⟩⟩

def step (ssl : OpenSsl) (resolve : Bytes → Bytes) (s : ClientState) (i : ClientInput) :
    Except Exn Unit × ClientState :=
  match s.vars with
  | none => (.ok (), s)
  | some v =>
      match (ClientApp.turn ssl v i.command).exec (ClientDisk.act resolve) i.reactions s.disk with
      | (.ok v', d) => (.ok (), ⟨v', d⟩)
      | (.error e, d) => (.error e, ⟨none, d⟩)

end ClientState

abbrev ClientTransition := Transition ClientState ClientInput (Except Exn Unit)

section Runs

variable (ssl : OpenSsl) (resolve : Bytes → Bytes) (files : Bytes → Option Bytes)

/-- The client after the inputs. -/
def clientAfter (inputs : List ClientInput) : ClientState :=
  final (ClientState.step ssl resolve) (.initial files) inputs

def clientTrace (inputs : List ClientInput) : List ClientTransition :=
  trace (ClientState.step ssl resolve) (.initial files) inputs

end Runs

end SecureFileTransfer
