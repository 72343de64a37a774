import SourceLoader.Canonical
import SourceLoader.Notice
import SourceLoader.Path.Basic

/-!
The directories that imports are searched in and may be read from. Every directory that is searched
may also be read from; further ones can be allowed without being searched. All of them are stored in
canonical form, with their links as they are.
-/

namespace SourceLoader

structure Sandbox where
  /-- The directory searched first; empty while the working directory takes its place. -/
  basePath : Text
  /-- The directories searched after the base path, in this order. -/
  includePaths : List Text
  /-- The directories that may be read from without being searched, in increasing order. -/
  allowed : List Text
  deriving DecidableEq

namespace Sandbox

def empty : Sandbox := ⟨[], [], []⟩

/-- Sets the base path. An empty path unsets it, which include paths do not permit. -/
def setBasePath (host : Host) (s : Sandbox) (path : Text) :
    Except Fault (Sandbox × List Notice) := do
  let basePath ←
    if path = [] then
      if s.includePaths ≠ [] then .error (.violation .includesWithoutBase) else .ok []
    else host.canonicalize path false
  return ({ s with basePath := basePath }, [.baseConfigured basePath])

def addIncludePath (host : Host) (s : Sandbox) (path : Text) :
    Except Fault (Sandbox × List Notice) := do
  if s.basePath = [] then throw (.violation .includeBeforeBase)
  if path = [] then throw (.violation .emptyInclude)
  let directory ← host.canonicalize path false
  return ({ s with includePaths := s.includePaths ++ [directory] }, [.includeAdded directory])

def insertDirectory (directory : Text) : List Text → List Text
  | [] => [directory]
  | d :: rest =>
    if d < directory then d :: insertDirectory directory rest else directory :: d :: rest

/-- Lets files below a directory be read. Allowing a directory twice changes nothing. -/
def allowDirectory (host : Host) (s : Sandbox) (path : Text) :
    Except Fault (Sandbox × List Notice) := do
  if path = [] then throw (.violation .emptyAllowed)
  let directory ← host.canonicalize path false
  if directory ∈ s.allowed then return (s, [])
  return ({ s with allowed := insertDirectory directory s.allowed }, [.directoryAllowed directory])

inductive Change
  | setBasePath (path : Text)
  | addIncludePath (path : Text)
  | allowDirectory (path : Text)
  deriving DecidableEq

def apply (host : Host) (s : Sandbox) : Change → Except Fault (Sandbox × List Notice)
  | .setBasePath path => s.setBasePath host path
  | .addIncludePath path => s.addIncludePath host path
  | .allowDirectory path => s.allowDirectory host path

/-- Makes changes one after another up to the first that fails. The notices of those that succeeded
are given in either case. -/
def applyAll (host : Host) (s : Sandbox) : List Change → Except Fault Sandbox × List Notice
  | [] => (.ok s, [])
  | change :: rest =>
    match s.apply host change with
    | .error fault => (.error fault, [])
    | .ok (s, notices) =>
      let (result, later) := applyAll host s rest
      (result, notices ++ later)

/-- The changes that set up a sandbox: the base path, then the include paths, then the allowed
directories. -/
def setup (basePath : Text) (includePaths allowed : List Text) : List Change :=
  .setBasePath basePath :: includePaths.map .addIncludePath ++ allowed.map .allowDirectory

def build (host : Host) (basePath : Text) (includePaths allowed : List Text) :
    Except Fault Sandbox × List Notice :=
  empty.applyAll host (setup basePath includePaths allowed)

def searchPrefixes (s : Sandbox) : List Text := s.basePath :: s.includePaths

def boundary (s : Sandbox) : List Text :=
  s.allowed ++ (if s.basePath = [] then Path.dot else s.basePath) :: s.includePaths

/-- Whether a canonical path lies below one of the directories, once their links are resolved. -/
def liesBelowAny (host : Host) (candidate : Text) : List Text → Except Fault Bool
  | [] => .ok false
  | directory :: rest => do
    let directory ← host.canonicalize directory true
    if ← Path.isBelow host.platform directory candidate then return true
    liesBelowAny host candidate rest

def isAllowed (host : Host) (s : Sandbox) (candidate : Text) : Except Fault Bool :=
  liesBelowAny host candidate s.boundary

/-- The path below the first of the directories that contains it, or the path itself. -/
def relativeToFirst (platform : Platform) (path : Text) : List Text → Except Fault Text
  | [] => .ok path
  | directory :: rest => do
    if ← Path.isBelow platform directory path then Path.relativeTo platform directory path
    else relativeToFirst platform path rest

/-- The source unit name of a path given on the command line: the path below the first search root
that contains it, or its canonical form where none does. Links are left alone, so the name does not
depend on where they lead. -/
def unitName (host : Host) (s : Sandbox) (path : Text) : Except Fault Text := do
  let base ← if s.basePath = [] then host.canonicalize Path.dot false else .ok s.basePath
  let canonical ← host.canonicalize path false
  relativeToFirst host.platform canonical (base :: s.includePaths)

end Sandbox

end SourceLoader
