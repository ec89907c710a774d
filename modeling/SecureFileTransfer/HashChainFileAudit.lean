import SecureFileTransfer.Sha256

/-!
# HashChainFileAudit — the hash-chained audit log

`HashChainFileAuditLogger` of `src/infrastructure/hash_chain_file_audit.cpp`.  The log file is its
content, `none` while it does not exist.  The writer builds a line from escaped fields; the reader
takes the fields out of a line by searching for `"key":` and never undoes the escaping.
-/

namespace SecureFileTransfer

open StdString

/-! ## The writer -/

/-- One byte as `jsonEscape` writes it. -/
def escapeByte (c : UInt8) : Bytes :=
  if c = 34 then ascii "\\\""
  else if c = 92 then ascii "\\\\"
  else if c = 10 then ascii "\\n"
  else if c = 13 then ascii "\\r"
  else if c = 9 then ascii "\\t"
  else if c < 0x20 then ascii "\\u00" ++ hexByte c
  else [c]

def jsonEscape (s : Bytes) : Bytes := s.flatMap escapeByte

/-- `,"key":"value"` with the value as it is given. -/
def member (key value : Bytes) : Bytes :=
  ascii ",\"" ++ key ++ ascii "\":\"" ++ value ++ ascii "\""

/-- `{"seq":n` followed by the members and `}`. -/
def object (seq : UInt64) (members : List (Bytes × Bytes)) : Bytes :=
  ascii "\x7b\"seq\":" ++ decimal seq.toNat ++ members.flatMap (fun m => member m.1 m.2) ++
    ascii "\x7d"

/-- The escaped fields both `canonical` and the line start with. -/
def escapedMembers (e : AuditEvent) : List (Bytes × Bytes) :=
  [ (ascii "ts", jsonEscape e.ts),
    (ascii "actor", jsonEscape e.actor),
    (ascii "action", jsonEscape e.action),
    (ascii "fileId", jsonEscape e.fileId),
    (ascii "cipherHash", jsonEscape e.cipherHash),
    (ascii "prevHash", jsonEscape e.prevHash) ]

def canonical (e : AuditEvent) : Bytes := object e.seq (escapedMembers e)

/-- The line `record` appends, without its newline.  `msgHash` is not escaped. -/
def auditLine (e : AuditEvent) : Bytes :=
  object e.seq (escapedMembers e ++ [(ascii "msgHash", e.msgHash)])

/-! ## The reader -/

/-- The lambda `get`, over the way it settles on the closing quote: `closing line q` gets the
first quote after the opening one. -/
def getWith (closing : Bytes → Option Nat → Option Nat) (line key : Bytes) : Bytes :=
  let pat := ascii "\"" ++ key ++ ascii "\":"
  match find line pat 0 with
  | none => []
  | some p =>
      let p := p + pat.length
      -- `line[line.size()]` is the terminating zero
      if line.getD p 0 = 34 then
        let p := p + 1
        substr line p (closing line (find line (ascii "\"") p))
      else
        -- a number: up to the comma, or up to the brace of the last field
        match find line (ascii ",") p with
        | some q => substr line p (some q)
        | none => substr line p (find line (ascii "\x7d") p)

/-- `while(q!=npos && line[q-1]=='\\') q=line.find("\"",q+1)`.  The position grows in every round,
so the length of the line bounds the rounds. -/
def skipEscaped (line : Bytes) : Nat → Option Nat → Option Nat
  | _, none => none
  | 0, some q => some q
  | fuel + 1, some q =>
      if line.getD (q - 1) 0 = 92 then
        skipEscaped line fuel (find line (ascii "\"") (q + 1))
      else
        some q

/-- `get` of `verify` and `getField` of `all`. -/
def getField : Bytes → Bytes → Bytes :=
  getWith fun line q => skipEscaped line line.length q

/-- `get` of the constructor: the first quote closes the field. -/
def getFieldNaive : Bytes → Bytes → Bytes :=
  getWith fun _ q => q

/-- `seq=0; try{ seq=std::stoull(seqStr);}catch(...){}` -/
def seqOf (seqStr : Bytes) : UInt64 := (stoull seqStr).getD 0

/-- `prev` and `expectedSeq` of the loop in `verify`. -/
structure Chain where
  prev : Bytes
  expectedSeq : UInt64
  deriving DecidableEq, Repr

/-- The event `verify` rebuilds from a line. -/
def parsedEvent (prev : Bytes) (seq : UInt64) (line : Bytes) : AuditEvent :=
  { seq := seq
    ts := getField line (ascii "ts")
    actor := getField line (ascii "actor")
    action := getField line (ascii "action")
    fileId := getField line (ascii "fileId")
    cipherHash := getField line (ascii "cipherHash")
    prevHash := prev
    msgHash := [] }

/-- One round of the loop in `verify`; `none` is its `return false`. -/
def checkLine (c : Chain) (line : Bytes) : Option Chain :=
  if line.isEmpty then
    some c
  else
    let seq := seqOf (getField line (ascii "seq"))
    if seq ≠ c.expectedSeq then
      none
    else
      let storedPrev := getField line (ascii "prevHash")
      let storedHash := getField line (ascii "msgHash")
      -- the stored hashes are compared as text, the message hash is computed anew
      if storedPrev ≠ c.prev then
        none
      else if RealSha256.hex (canonical (parsedEvent c.prev seq line)) ≠ storedHash then
        none
      else
        some { prev := storedHash, expectedSeq := c.expectedSeq + 1 }

def genesis : Chain := { prev := ascii "GENESIS", expectedSeq := 1 }

def verifyFile : Option Bytes → Bool
  | none => true
  | some content => ((getlines content).foldlM checkLine genesis).isSome

/-- The event `all` builds from a line.  The field `cipherHash` keeps its default. -/
def readEvent (line : Bytes) : AuditEvent :=
  { action := getField line (ascii "action")
    actor := getField line (ascii "actor")
    fileId := getField line (ascii "fileId")
    prevHash := getField line (ascii "prevHash")
    msgHash := getField line (ascii "msgHash")
    ts := getField line (ascii "ts")
    seq := seqOf (getField line (ascii "seq")) }

/-! ## The logger -/

structure HashChainFileAuditLogger where
  file : Option Bytes
  lastHash : Bytes
  lastSeq : UInt64
  deriving DecidableEq, Repr

/-- The fields of `std::gmtime` that the time stamp prints, `tm_year` counted from year 0 and
`tm_mon` from 1. -/
structure Tm where
  year : Nat
  mon : Nat
  mday : Nat
  hour : Nat
  min : Nat
  sec : Nat
  deriving DecidableEq, Repr

/-- `strftime` with `%Y-%m-%dT%H:%M:%SZ` -/
def Tm.stamp (t : Tm) : Bytes :=
  decimal t.year ++ ascii "-" ++ twoDigits t.mon ++ ascii "-" ++ twoDigits t.mday ++ ascii "T" ++
    twoDigits t.hour ++ ascii ":" ++ twoDigits t.min ++ ascii ":" ++ twoDigits t.sec ++ ascii "Z"

namespace HashChainFileAuditLogger

def verify (l : HashChainFileAuditLogger) : Bool := verifyFile l.file

/-- `all`, on every line of the file. -/
def all (l : HashChainFileAuditLogger) : List AuditEvent :=
  ((l.file.map getlines).getD []).map readEvent

/-- The constructor, on the content the file has when the process starts. -/
def new (file : Option Bytes) : HashChainFileAuditLogger :=
  match (file.map getlines).getD [] |>.getLast? with
  | none => { file := file, lastHash := ascii "GENESIS", lastSeq := 0 }
  | some lastLine =>
      -- only the last line is looked at once the whole file is verified
      if verifyFile file then
        let lastHash := getFieldNaive lastLine (ascii "msgHash")
        { file := file
          lastHash := if lastHash.isEmpty then ascii "GENESIS" else lastHash
          lastSeq := seqOf (getFieldNaive lastLine (ascii "seq")) }
      else
        { file := file, lastHash := ascii "CORRUPTED", lastSeq := 0 }

/-- The event as `record` completes it before it is written. -/
def completed (l : HashChainFileAuditLogger) (now : Tm) (e : AuditEvent) : AuditEvent :=
  let e :=
    { e with
      prevHash := l.lastHash
      seq := l.lastSeq + 1
      ts := if e.ts.isEmpty then now.stamp else e.ts }
  { e with msgHash := RealSha256.hex (canonical e) }

/-- `record`.  The stream is not asked whether the line was written: `wrote` says if it was. -/
def record (now : Tm) (wrote : Bool) (l : HashChainFileAuditLogger) (e : AuditEvent) :
    Except Exn HashChainFileAuditLogger :=
  if l.lastHash = ascii "CORRUPTED" then
    .error ⟨.runtime, ascii "audit chain corrupted " ++ [0xe2, 0x80, 0x94] ++
      ascii " refuse to append"⟩
  -- the whole file is read again before every append
  else if l.verify = false then
    .error (.runtime "audit chain verification failed before append")
  else
    let e := l.completed now e
    .ok
      { file := if wrote then some (l.file.getD [] ++ (auditLine e ++ [10])) else l.file
        lastHash := e.msgHash
        lastSeq := e.seq }

/-- Successive calls whose lines all reach the file. -/
def recordAll (l : HashChainFileAuditLogger) (es : List (Tm × AuditEvent)) :
    Except Exn HashChainFileAuditLogger :=
  es.foldlM (fun l te => record te.1 true l te.2) l

end HashChainFileAuditLogger
end SecureFileTransfer
