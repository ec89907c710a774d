import SecureFileTransfer.BinaryFileStorage
import SecureFileTransfer.Lib.Runs

/-!
# CrashRuns — uploads that can be cut short

The server process as a machine: it makes the calls of the upload it is busy with, one at a time,
and may be killed or lose power between any two of them.  It starts, and starts again, with the
boot sweeper.
-/

namespace SecureFileTransfer

open Calls Runs

/-- An upload that passed its checks, with what was drawn for it. -/
structure UploadCall where
  args : UploadArgs
  fileId : RandomBytes 16
  storage : RandomBytes 16
  sender : UserId
  recipient : UserId
  now : Int
  deriving DecidableEq

namespace UploadCall

def record (u : UploadCall) : FileRecord :=
  u.args.record (generateUserId u.fileId) (generateUserId u.storage) u.sender u.recipient u.now

def storageId (u : UploadCall) : Bytes := u.record.storageId

/-- The bytes that were uploaded. -/
def blob (u : UploadCall) : Bytes := u.args.opaqueBytes

def row (u : UploadCall) : FileRow := FileRow.ofRecord u.record

end UploadCall

inductive CrashEvent
  | upload (u : UploadCall)
  /-- The running code makes its next call. -/
  | call (fault : Fault)
  | kill
  | powerLoss (loss : Loss)

namespace CrashEvent

def upload? : CrashEvent → Option UploadCall
  | .upload u => some u
  | _ => none

end CrashEvent

/-- The process and its disk: `current` is the upload it took last since it was started. -/
structure CrashMachine where
  disk : Disk
  current : Option UploadCall
  running : Code Unit

namespace CrashMachine

/-- `try { blobStore.sweepOrphans(&fileRepo); } catch(...) {}` -/
def boot : Code Unit :=
  tryCatch (do let _ ← BinaryFileStorage.sweepOrphans; pure ()) fun _ => pure ()

/-- The first start. -/
def first : CrashMachine := ⟨Disk.empty, none, boot⟩

/-- The process waits for the next upload. -/
def Idle (m : CrashMachine) : Prop := m.running.next? = none

instance (m : CrashMachine) : Decidable m.Idle := inferInstanceAs (Decidable (_ = none))

def callNext (m : CrashMachine) (fault : Fault) : CrashMachine :=
  match m.running with
  | .done _ => m
  | .call c k => { m with disk := (Disk.act c fault m.disk).2, running := k (Disk.act c fault m.disk).1 }

-- uploads are handled one after the other; one that comes while the process is busy is not taken
def step (root : Bytes) (m : CrashMachine) : CrashEvent → Unit × CrashMachine
  | .upload u =>
      ((), if m.Idle then
        { m with current := some u, running := Code.storeUpload root u.record u.blob }
      else
        m)
  | .call fault => ((), m.callNext fault)
  | .kill => ((), ⟨m.disk.kill, none, boot⟩)
  | .powerLoss loss => ((), ⟨m.disk.lose loss, none, boot⟩)

/-- The machine after the events. -/
def after (root : Bytes) (events : List CrashEvent) : CrashMachine := final (step root) first events

end CrashMachine

/-- The uploads of a run. -/
def uploadsOf (events : List CrashEvent) : List UploadCall := events.filterMap CrashEvent.upload?

/-- No storage id is drawn twice. -/
def FreshStorageIds (events : List CrashEvent) : Prop :=
  ((uploadsOf events).map UploadCall.storageId).Nodup

end SecureFileTransfer
