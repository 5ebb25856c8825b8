/-
# Why a file operation fails

A fault is the system's (with its code), of a known kind without a code, or of a known kind
with a text of its own. The kind decides what callers do about it, the text is only shown.
-/

namespace SnippetConsole
namespace FileTree

/-- What a fault is about, as far as callers tell faults apart. -/
inductive FaultKind where
  | notFound
  | permissionDenied
  | alreadyExists
  | invalidInput
  | invalidData
  | other
  deriving DecidableEq, Repr

/-- The words for a kind alone. -/
def FaultKind.message : FaultKind → String
  | notFound => "entity not found"
  | permissionDenied => "permission denied"
  | alreadyExists => "entity already exists"
  | invalidInput => "invalid input parameter"
  | invalidData => "invalid data"
  | other => "other error"

/-- A failed file operation. -/
inductive Fault where
  | system (code : Nat)
  | ofKind (kind : FaultKind)
  | custom (kind : FaultKind) (text : String)
  deriving DecidableEq, Repr

namespace Fault

/-- Nothing has the name. -/
def missing : Fault := .system 2
/-- The file may not be used this way. -/
def denied : Fault := .system 13
/-- Something has the name already. -/
def exists_ : Fault := .system 17
/-- A directory was needed. -/
def notDirectory : Fault := .system 20
/-- A directory cannot be used as a file. -/
def isDirectory : Fault := .system 21
/-- The operation makes no sense for this path. -/
def invalid : Fault := .system 22
/-- A name or path is too long. -/
def nameTooLong : Fault := .system 36
/-- The directory has entries. -/
def notEmpty : Fault := .system 39
/-- Too many links follow each other. -/
def linkLoop : Fault := .system 40
/-- The path holds a NUL byte. -/
def nulInPath : Fault := .custom .invalidInput "file name contained an unexpected NUL byte"
/-- A program or argument holds a NUL byte. -/
def nulInArgument : Fault := .custom .invalidInput "nul byte found in provided data"
/-- The file is not UTF-8. -/
def notText : Fault := .custom .invalidData "stream did not contain valid UTF-8"

/-- The system's words for a code. -/
def systemText : Nat → String
  | 1 => "Operation not permitted"
  | 2 => "No such file or directory"
  | 3 => "No such process"
  | 4 => "Interrupted system call"
  | 5 => "Input/output error"
  | 6 => "No such device or address"
  | 7 => "Argument list too long"
  | 8 => "Exec format error"
  | 9 => "Bad file descriptor"
  | 10 => "No child processes"
  | 11 => "Resource temporarily unavailable"
  | 12 => "Cannot allocate memory"
  | 13 => "Permission denied"
  | 14 => "Bad address"
  | 15 => "Block device required"
  | 16 => "Device or resource busy"
  | 17 => "File exists"
  | 18 => "Invalid cross-device link"
  | 19 => "No such device"
  | 20 => "Not a directory"
  | 21 => "Is a directory"
  | 22 => "Invalid argument"
  | 23 => "Too many open files in system"
  | 24 => "Too many open files"
  | 25 => "Inappropriate ioctl for device"
  | 26 => "Text file busy"
  | 27 => "File too large"
  | 28 => "No space left on device"
  | 29 => "Illegal seek"
  | 30 => "Read-only file system"
  | 31 => "Too many links"
  | 32 => "Broken pipe"
  | 33 => "Numerical argument out of domain"
  | 34 => "Numerical result out of range"
  | 35 => "Resource deadlock avoided"
  | 36 => "File name too long"
  | 37 => "No locks available"
  | 38 => "Function not implemented"
  | 39 => "Directory not empty"
  | 40 => "Too many levels of symbolic links"
  | 75 => "Value too large for defined data type"
  | 95 => "Operation not supported"
  | 110 => "Connection timed out"
  | 116 => "Stale file handle"
  | 122 => "Disk quota exceeded"
  | code => "Unknown error " ++ toString code

/-- The words for a fault. -/
def message : Fault → String
  | system code => systemText code ++ " (os error " ++ toString code ++ ")"
  | ofKind kind => kind.message
  | custom _ text => text

/-- What a fault is about. -/
def kind : Fault → FaultKind
  | system 2 => .notFound
  | system 1 => .permissionDenied
  | system 13 => .permissionDenied
  | system 17 => .alreadyExists
  | system 22 => .invalidInput
  | system _ => .other
  | ofKind kind => kind
  | custom kind _ => kind

end Fault
end FileTree
end SnippetConsole
