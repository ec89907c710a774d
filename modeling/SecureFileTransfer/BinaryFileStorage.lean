import SecureFileTransfer.Services
import SecureFileTransfer.Lib.Calls

/-!
# BinaryFileStorage — an upload, one system call at a time

`BinaryFileStorage` of `src/infrastructure/binary_storage.cpp` and the transaction of
`SqliteFileRepository::save`, over a file system and a database that can lose what is not yet
durable.  The file system is the storage root, which exists: names are relative to it and all of
its entries are regular files.  Every call may fail; a failed call has no effect.
-/

namespace SecureFileTransfer

open StdString Calls

/-! ## The medium -/

/-- A change of the directory.  A rename is one change. -/
inductive DirOp
  | link (name : Bytes) (ino : Nat)
  | unlink (name : Bytes)
  | rename (src dst : Bytes) (ino : Nat)
  deriving DecidableEq

namespace DirOp

def apply (dir : Table Nat) : DirOp → Table Nat
  | .link name ino => dir.insert name ino
  | .unlink name => dir.erase name
  | .rename src dst ino => (dir.erase src).insert dst ino

end DirOp

/-- A file: what it holds, and whether that has reached the medium. -/
structure Inode where
  data : Bytes
  synced : Bool
  deriving DecidableEq

structure Disk where
  /-- The directory on the medium. -/
  durable : Table Nat
  /-- The changes of the directory since its last fsync. -/
  pending : List DirOp
  inode : Nat → Inode
  /-- The number of the next file. -/
  next : Nat
  /-- The committed rows of the `files` table. -/
  db : SqliteFileRepository
  /-- The open transaction. -/
  tx : Option SqliteFileRepository

/-- What the environment decides about a call: it succeeds, or it fails with an error text. -/
abbrev Fault := Option Bytes

/-- What a loss of power leaves: which pending changes of the directory reached the medium, and
what is found in the files that were not synced. -/
structure Loss where
  kept : List Bool
  garbage : Nat → Bytes

namespace Disk

/-- A new root and a new database. -/
def empty : Disk where
  durable := ∅
  pending := []
  inode _ := ⟨[], false⟩
  next := 0
  db := SqliteFileRepository.empty
  tx := none

/-- The directory as the running system sees it. -/
def dir (d : Disk) : Table Nat := d.pending.foldl DirOp.apply d.durable

def push (d : Disk) (op : DirOp) : Disk := { d with pending := d.pending ++ [op] }

def setInode (d : Disk) (ino : Nat) (f : Inode) : Disk :=
  { d with inode := Function.update d.inode ino f }

/-- The process ends; the file system stays as it is, the open transaction is gone. -/
def kill (d : Disk) : Disk := { d with tx := none }

/-- The pending changes that reached the medium. -/
def keptOps (l : Loss) (d : Disk) : List DirOp :=
  (l.kept.zip d.pending).filterMap fun p => if p.1 then some p.2 else none

/-- Power is lost. -/
def lose (l : Loss) (d : Disk) : Disk :=
  { d with
    durable := (d.keptOps l).foldl DirOp.apply d.durable
    pending := []
    inode := fun i => if (d.inode i).synced then d.inode i else ⟨l.garbage i, true⟩
    tx := none }

end Disk

/-! ## System calls -/

/-- The calls that only succeed or fail. -/
inductive SysCall
  | openTrunc (name : Bytes)
  | append (name : Bytes) (byte : UInt8)
  | flush (name : Bytes)
  | close (name : Bytes)
  | openFile (name : Bytes)
  | fsync (name : Bytes)
  | remove (name : Bytes)
  | rename (src dst : Bytes)
  | fsyncDir
  | beginImmediate
  | prepare
  | commit
  | rollback
  deriving DecidableEq

inductive DiskCall
  | sys (c : SysCall)
  | exist (name : Bytes)
  | listDir
  | insert (r : FileRecord)
  deriving DecidableEq

inductive InsertResult
  | inserted
  | constraint
  | failed
  deriving DecidableEq

@[reducible] def DiskCall.ans : DiskCall → Type
  | .sys _ => Option Bytes
  | .exist _ => Bool
  | .listDir => Option (List Bytes)
  | .insert _ => InsertResult

namespace Disk

/-- What a call does when it is carried out; an error text if it cannot be. -/
def sys : SysCall → Disk → Except Bytes Disk
  | .openTrunc name, d =>
      match d.dir.lookup name with
      -- an existing file is emptied in place, on every name it has
      | some ino => .ok (d.setInode ino ⟨[], false⟩)
      | none => .ok ({ d with next := d.next + 1 }.setInode d.next ⟨[], false⟩ |>.push (.link name d.next))
  | .append name byte, d =>
      match d.dir.lookup name with
      | some ino => .ok (d.setInode ino ⟨(d.inode ino).data ++ [byte], false⟩)
      | none => .ok d
  -- the buffer of the stream is not modelled: bytes are in the file once `write` returns
  | .flush _, d => .ok d
  | .close _, d => .ok d
  | .openFile name, d =>
      if (d.dir.lookup name).isSome then .ok d else .error (ascii "No such file or directory")
  | .fsync name, d =>
      match d.dir.lookup name with
      | some ino => .ok (d.setInode ino ⟨(d.inode ino).data, true⟩)
      | none => .ok d
  | .remove name, d => if (d.dir.lookup name).isSome then .ok (d.push (.unlink name)) else .ok d
  | .rename src dst, d =>
      match d.dir.lookup src with
      | some ino => .ok (d.push (.rename src dst ino))
      | none => .error (ascii "No such file or directory")
  -- all pending changes of the directory reach the medium together
  | .fsyncDir, d => .ok { d with durable := d.dir, pending := [] }
  | .beginImmediate, d =>
      match d.tx with
      | none => .ok { d with tx := some d.db }
      | some _ => .error (ascii "cannot start a transaction within a transaction")
  | .prepare, d => .ok d
  | .commit, d =>
      match d.tx with
      | some t => .ok { d with db := t, tx := none }
      | none => .error (ascii "cannot commit - no transaction is active")
  | .rollback, d =>
      match d.tx with
      | some _ => .ok { d with tx := none }
      | none => .error (ascii "cannot rollback - no transaction is active")

/-- `sqlite3_step` on the prepared `INSERT`; `save` only gets there inside its transaction. -/
def insert (r : FileRecord) (d : Disk) : InsertResult × Disk :=
  match d.tx with
  | none => (.failed, d)
  | some t =>
      match t.save r with
      | .ok t' => (.inserted, { d with tx := some t' })
      | .error _ => (.constraint, d)

/-- The answer to a call under a fault, and the disk after it. -/
def act : (c : DiskCall) → Fault → Disk → c.ans × Disk
  | .sys c, none, d =>
      match d.sys c with
      | .ok d' => (none, d')
      | .error text => (some text, d)
  | .sys _, some text, d => (some text, d)
  -- an error while looking reads as "not there"
  | .exist name, fault, d => (fault.isNone && (d.dir.lookup name).isSome, d)
  | .listDir, none, d => (some d.dir.keys, d)
  | .listDir, some _, d => (none, d)
  | .insert r, none, d => d.insert r
  | .insert _, some _, d => (.failed, d)

end Disk

/-! ## The storage -/

/-- Code of the server, as the calls it makes. -/
abbrev Code := Calls DiskCall DiskCall.ans Exn

namespace Code

def sysCall (c : SysCall) : Code (Option Bytes) := ask (DiskCall.sys c)
def exist (name : Bytes) : Code Bool := ask (DiskCall.exist name)
def listDir : Code (Option (List Bytes)) := ask DiskCall.listDir
def insert (r : FileRecord) : Code InsertResult := ask (DiskCall.insert r)

/-- A call whose failure throws. -/
def check (c : SysCall) (exn : Bytes → Exn) : Code Unit := do
  match ← sysCall c with
  | none => pure ()
  | some text => throw (exn text)

/-- A call whose failure is ignored: `fs::remove(p, ec)`. -/
def ignore (c : SysCall) : Code Unit := do
  let _ ← sysCall c
  pure ()

/-- A call whose failure removes the file and throws. -/
def checkOrRemove (c : SysCall) (name : Bytes) (exn : Bytes → Exn) : Code Unit := do
  match ← sysCall c with
  | none => pure ()
  | some text => do
      ignore (.remove name)
      throw (exn text)

end Code

namespace BinaryFileStorage

open Code

variable (root : Bytes)

def path (name : Bytes) : Bytes := root ++ ascii "/" ++ name

def tmpName (storageId : Bytes) : Bytes := ascii "tmp." ++ storageId ++ ascii ".part"

/-- A `StorageException` that names the file. -/
def storageExn (what : String) (name : Bytes) : Bytes → Exn := fun _ =>
  ⟨.storage, ascii what ++ path root name⟩

def fsyncFile (name : Bytes) : Code Unit := do
  check (.openFile name) (storageExn root "fsync open file failed: " name)
  check (.fsync name) fun errno => ⟨.storage, ascii "fsync file failed: " ++ errno⟩

/-- A directory that cannot be opened or synced is passed over in silence. -/
def fsyncDir : Code Unit := ignore .fsyncDir

/-- `ofs.write(data)`: the bytes reach the file one after the other. -/
def writeBytes (tmp : Bytes) : Bytes → Code Unit
  | [] => pure ()
  | b :: bs => do
      checkOrRemove (.append tmp b) tmp (storageExn root "write tmp failed: " tmp)
      writeBytes tmp bs

/-- The block of `stagedWrite` that fills the temporary file. -/
def writeTmp (tmp data : Bytes) : Code Unit := do
  checkOrRemove (.openTrunc tmp) tmp (storageExn root "open tmp failed: " tmp)
  writeBytes root tmp data
  checkOrRemove (.flush tmp) tmp (storageExn root "flush tmp failed: " tmp)
  checkOrRemove (.close tmp) tmp (storageExn root "close tmp failed: " tmp)

/-- `if (fs::exists(dst, ec)) fs::remove(dst, ec2);` -/
def removeExisting (dst : Bytes) : Code Unit := do
  let there ← exist dst
  if there then
    ignore (.remove dst)
  else
    pure ()

def stagedWrite (storageId data : Bytes) : Code Unit :=
  if storageId = [] then
    throw (.validation "storageId empty")
  else if (0 : UInt8) ∈ storageId then
    throw (.validation "storageId NUL")
  else if (find storageId (ascii "..") 0).isSome then
    throw (.validation "storageId traversal")
  else do
    let tmp := tmpName storageId
    writeTmp root tmp data
    tryCatch (fsyncFile root tmp) fun e => do
      ignore (.remove tmp)
      throw e
    -- between this and the rename there is no file of that name
    removeExisting storageId
    checkOrRemove (.rename tmp storageId) tmp fun text =>
      ⟨.storage, ascii "rename tmp->dst failed: " ++ text⟩
    fsyncDir

def write (k v : Bytes) : Code Unit := stagedWrite root k v

/-- `read`, when the file can be opened and read. -/
def read (d : Disk) (k : Bytes) : Except Exn Bytes :=
  if k = [] then
    .error (.validation "storageId empty")
  else
    match d.dir.lookup k with
    | none => .error ⟨.notFound, ascii "missing blob: " ++ k⟩
    | some ino => .ok (d.inode ino).data

def removeStaged (storageId : Bytes) : Code Unit :=
  if storageId = [] then
    pure ()
  else do
    ignore (.remove (tmpName storageId))
    ignore (.remove storageId)

/-- `filename.substr(filename.size() - 5) != ".part"` keeps the file. -/
def isPart (filename : Bytes) : Bool := (ascii ".part").isSuffixOf filename

/-- The loop of `sweepOrphans` over the directory entries; it counts what it removed. -/
def sweepEntries : List Bytes → Code Nat
  | [] => pure 0
  | name :: names =>
      if isPart name then do
        let failed ← sysCall (.remove name)
        let count ← sweepEntries names
        pure (if failed.isNone then count + 1 else count)
      else
        sweepEntries names

/-- The repository that is passed in is not consulted. -/
def sweepOrphans : Code Nat := do
  match ← listDir with
  | none => pure 0
  | some names => do
      let count ← sweepEntries names
      if count > 0 then do
        fsyncDir
        pure count
      else
        pure count

end BinaryFileStorage

namespace Code

/-- `exec(sql)` -/
def exec (c : SysCall) : Code Unit := check c fun text => ⟨.runtime, text⟩

/-- `SqliteFileRepository::save`; an `INSERT` that is done has changed one row. -/
def save (r : FileRecord) : Code Unit := do
  exec .beginImmediate
  match ← sysCall .prepare with
  | some _ => do
      -- a `ROLLBACK` that fails throws in the place of this exception
      exec .rollback
      throw (.runtime "prepare failed")
  | none =>
      match ← insert r with
      | .inserted => exec .commit
      | .constraint => do
          exec .rollback
          throw (.validation "duplicate upload_id or storage_id or id")
      | .failed => do
          exec .rollback
          throw (.runtime "insert failed")

/-- `TransferService::upload` from the first write to the commit of its record. -/
def storeUpload (root : Bytes) (fr : FileRecord) (opaqueBytes : Bytes) : Code Unit := do
  BinaryFileStorage.stagedWrite root fr.storageId opaqueBytes
  tryCatch (save fr) fun e => do
    BinaryFileStorage.removeStaged fr.storageId
    -- `fs::remove(fr.storageId)` looks in the working directory, not in the root
    throw e

end Code
end SecureFileTransfer
