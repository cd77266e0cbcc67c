import Wiretap.Failure

/-!
# Stored files

A storage is a tree of directories and files that paths lead through. Reading
fails with the system's number for a name that is not there, a file in the
place of a directory, a directory in the place of a file, or a name that is
too long. Relative paths start at the top.
-/

set_option autoImplicit false

namespace Wiretap

inductive StorageNode where
  | file (bytes : List UInt8)
  | directory (entries : List (String × StorageNode))
  deriving Inhabited

structure Storage where
  top : List (String × StorageNode)
  deriving Inhabited

namespace Storage

def missing : IoFailure := .system 2
def notDirectory : IoFailure := .system 20
def isDirectory : IoFailure := .system 21
def nameTooLong : IoFailure := .system 36

def longestName : Nat := 255
def longestPath : Nat := 4095

def lookup (name : String) : List (String × StorageNode) → Option StorageNode
  | [] => none
  | (n, node) :: rest => if n = name then some node else lookup name rest

def follow (above : List StorageNode) (here : StorageNode) :
    List String → Except IoFailure StorageNode
  | [] => .ok here
  | part :: parts =>
    match here with
    | .file _ => .error notDirectory
    | .directory entries =>
      if part = "" ∨ part = "." then follow above here parts
      else if part = ".." then
        match above with
        | parent :: above => follow above parent parts
        | [] => follow [] here parts
      else if part.utf8ByteSize > longestName then .error nameTooLong
      else match lookup part entries with
        | some node => follow (here :: above) node parts
        | none => .error missing

def read (s : Storage) (path : String) : Except IoFailure (List UInt8) :=
  if path.toList.any (· == '\x00') then
    .error (.described .invalidInput "file name contained an unexpected NUL byte")
  else if path.isEmpty then .error missing
  else if path.utf8ByteSize > longestPath then .error nameTooLong
  else do
    match ← follow [] (.directory s.top) (path.splitOn "/") with
    | .file bytes => .ok bytes
    | .directory _ => .error isDirectory

end Storage
end Wiretap
