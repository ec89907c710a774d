import SecureFileTransfer.Domain
import SecureFileTransfer.Lib.StdString

/-!
# FileValidator — what names, sizes and headers are accepted

`PdfFileValidator::validate`, with `std::filesystem::path::lexically_normal` on POSIX paths as the
standard describes it: a walk over the components that drops empty and dot components and lets a
dot-dot take back the name before it.
-/

namespace SecureFileTransfer

open StdString

/-! ## Lexical normal form of a path -/

/-- The components of a path: the pieces between slashes. -/
def pathComponents (s : Bytes) : List Bytes := s.splitOn 47

def dot : Bytes := ascii "."
def dotdot : Bytes := ascii ".."

/-- One component on the stack of those kept so far, last one first.  Above the root directory a
dot-dot has no effect. -/
def normalStep (root : Bool) (kept : List Bytes) (c : Bytes) : List Bytes :=
  if c = [] ∨ c = dot then
    kept
  else if c = dotdot then
    match kept with
    | [] => if root then [] else [dotdot]
    -- a name before it is taken back, another dot-dot is not
    | k :: rest => if k = dotdot then dotdot :: kept else rest
  else
    c :: kept

/-- The path ends in a directory: its last component is not a name. -/
def endsInDirectory (components : List Bytes) : Bool :=
  match components.getLast? with
  | none => false
  | some c => c == [] || c == dot || c == dotdot

/-- `fs::path(s).lexically_normal().string()` -/
def lexicallyNormal (s : Bytes) : Bytes :=
  if s = [] then
    []
  else
    let root := s.head? = some 47
    let components := pathComponents s
    let kept := components.foldl (normalStep root) []
    let path := (if root then [47] else []) ++ (kept.reverse.intersperse [47]).flatten ++
      (if endsInDirectory components && (kept.head?.any (· != dotdot)) then [47] else [])
    if path = [] then dot else path

example : lexicallyNormal (ascii "a/./b//../../../c.pdf") = ascii "../c.pdf" := by decide

/-! ## The checks -/

/-- `s.find(pat) != npos` -/
def contains (s pat : Bytes) : Bool := (find s pat 0).isSome

/-- `%PDF` -/
def hasPdfMagic (headerBytes : Bytes) : Bool :=
  headerBytes.take 4 == ascii "%PDF"

def maxFileSize : UInt64 := 100 * 1024 * 1024

namespace PdfFileValidator

def validate (origName : Bytes) (size : UInt64) (headerBytes : Bytes) : Except Exn Unit :=
  if origName = [] ∨ (0 : UInt8) ∈ origName then
    .error (.validation "name empty or NUL")
  else
    -- everything from here on looks at the normal form, the record keeps the given name
    let norm := lexicallyNormal origName
    if contains norm (ascii "..") then
      .error (.validation "traversal")
    else if !(ascii ".pdf").isSuffixOf norm then
      .error (.validation "PDF-only core")
    else if contains norm (ascii ".pdf.") then
      .error (.validation "double ext")
    else if size > maxFileSize then
      .error (.validation "oversize")
    else if !hasPdfMagic headerBytes then
      .error (.validation "PDF magic")
    else
      .ok ()

end PdfFileValidator
end SecureFileTransfer
