import SourceLoader.Text.Unicode

/-!
The ways in which a request to the host's file system fails. Each has a number, a fixed wording and
a kind under which it is reported.

Everything that can go wrong in the loader. A violation is a mistake of the caller and is never
turned into an answer; the other faults come from the host and its files.
-/

namespace SourceLoader

inductive Errno
  | notFound
  | accessDenied
  | alreadyExists
  | notDirectory
  | isDirectory
  | nameTooLong
  | tooManyLinks
  deriving DecidableEq

namespace Errno

def number : Errno → Nat
  | .notFound => 2
  | .accessDenied => 13
  | .alreadyExists => 17
  | .notDirectory => 20
  | .isDirectory => 21
  | .nameTooLong => 36
  | .tooManyLinks => 40

def wording : Errno → Text
  | .notFound => "No such file or directory".toList
  | .accessDenied => "Permission denied".toList
  | .alreadyExists => "File exists".toList
  | .notDirectory => "Not a directory".toList
  | .isDirectory => "Is a directory".toList
  | .nameTooLong => "File name too long".toList
  | .tooManyLinks => "Too many levels of symbolic links".toList

/-- Whether a failure with this number says that a request would have to wait. -/
def wouldWait (n : Int) : Bool := n = 11 || n = 114 || n = 115

def kindOfNumber (n : Int) : Text :=
  if n = 1 ∨ n = 13 then "PermissionError".toList
  else if n = 2 then "FileNotFoundError".toList
  else if n = 3 then "ProcessLookupError".toList
  else if n = 4 then "InterruptedError".toList
  else if n = 10 then "ChildProcessError".toList
  else if wouldWait n then "BlockingIOError".toList
  else if n = 17 then "FileExistsError".toList
  else if n = 20 then "NotADirectoryError".toList
  else if n = 21 then "IsADirectoryError".toList
  else if n = 32 ∨ n = 108 then "BrokenPipeError".toList
  else if n = 103 then "ConnectionAbortedError".toList
  else if n = 104 then "ConnectionResetError".toList
  else if n = 110 then "TimeoutError".toList
  else if n = 111 then "ConnectionRefusedError".toList
  else "OSError".toList

def kind (e : Errno) : Text := kindOfNumber e.number

/-- The failures that only say that a path leads nowhere. A question whether something exists is
answered with no on these, and fails on the others. -/
def meansAbsent : Errno → Bool
  | .notFound | .notDirectory | .tooManyLinks => true
  | _ => false

end Errno

structure OsError where
  errno : Errno
  path : Option Text
  deriving DecidableEq

def OsError.message (e : OsError) : Text :=
  "[Errno ".toList ++ Text.ofNat e.errno.number ++ "] ".toList ++ e.errno.wording ++
    match e.path with
    | none => []
    | some path => ": ".toList ++ path.quoted

/-! ## Faults -/

inductive Violation
  | anchoredPathNotRooted (path : Text)
  | dotDotLeft (path : Text)
  | emptyPath
  | pathNotRooted (path : Text)
  | pathNotCanonical (path : Text)
  | includesWithoutBase
  | includeBeforeBase
  | emptyInclude
  | emptyAllowed
  | unsupportedKind (kind : Text)
  deriving DecidableEq

def Violation.message : Violation → Text
  | .anchoredPathNotRooted path => "Path is not rooted after anchoring: ".toList ++ path.quoted
  | .dotDotLeft path => "Unexpected '..' segment in ".toList ++ path.quoted
  | .emptyPath => "Prefix matching requires a non-empty path".toList
  | .pathNotRooted path => "Prefix matching requires a rooted path: ".toList ++ path.quoted
  | .pathNotCanonical path => "Prefix matching requires a canonical path: ".toList ++ path.quoted
  | .includesWithoutBase =>
    "Base path cannot be empty while include paths are configured".toList
  | .includeBeforeBase => "Include paths require a base path".toList
  | .emptyInclude => "Include path cannot be empty".toList
  | .emptyAllowed => "Allowed directory cannot be empty".toList
  | .unsupportedKind kind => "ReadFile callback used as callback kind ".toList ++ kind

inductive Fault
  | os (error : OsError)
  | embeddedNul
  | malformed (error : Text.Utf8.Malformed)
  | violation (rule : Violation)
  /-- A log call brought a field that every record has of its own. -/
  | reservedField (name : Text)
  /-- An option without a value was asked for something that only text can answer. -/
  | noText (request : Text)
  deriving DecidableEq

namespace Fault

def kind : Fault → Text
  | .os error => error.errno.kind
  | .embeddedNul => "ValueError".toList
  | .malformed _ => "UnicodeDecodeError".toList
  | .violation _ => "VfsInvariantError".toList
  | .reservedField _ => "KeyError".toList
  | .noText _ => "AttributeError".toList

def message : Fault → Text
  | .os error => error.message
  | .embeddedNul => "embedded null byte".toList
  | .malformed error => error.message
  | .violation rule => rule.message
  | .reservedField name =>
    Text.quoted ("Attempt to overwrite ".toList ++ name.quoted ++ " in LogRecord".toList)
  | .noText request => "'list' object has no attribute ".toList ++ request.quoted

def summary (fault : Fault) : Text :=
  if fault.message = [] then fault.kind else fault.kind ++ ": ".toList ++ fault.message

end Fault

end SourceLoader
