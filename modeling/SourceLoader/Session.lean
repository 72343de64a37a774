import SourceLoader.Host.Lookup
import SourceLoader.Registry
import SourceLoader.Sandbox

/-!
A session answers the imports of one compilation. What is imported is searched for below the search
roots; the first root under which something exists decides, and what was found is read only if it
lies inside the sandbox. Every way in which a read can end is an answer; only an unsupported kind is
refused.

What can be asked of a session, as one kind of value. A session only changes by operations, each of
which may meet another host, so a history of a session is a list of hosts and operations.
-/

namespace SourceLoader

structure Session where
  sandbox : Sandbox
  registry : Registry
  deriving DecidableEq

namespace Session

def sourceKind : Text := "source".toList

def stdinName : Text := "<stdin>".toList

def fileScheme : Text := "file://".toList

def outsideMessage : Text := "File outside of allowed directories.".toList

def notFoundMessage : Text := "File not found.".toList

def notRegularMessage : Text := "Not a valid file.".toList

def faultMessage (fault : Fault) : Text :=
  "Exception in read callback: ".toList ++ fault.kind ++ ": ".toList ++ fault.message

/-- The answer to an import: the text of the file, or why there is none. -/
structure Answer where
  success : Bool
  content : Text
  deriving DecidableEq

def setSource (host : Host) (s : Session) (path text : Text) :
    Except Fault (Session × List Notice) := do
  let name ← s.sandbox.unitName host path
  return ({ s with registry := s.registry.set name text }, [.sourceSet name])

def setStdin (s : Session) (text : Text) : Session × List Notice :=
  ({ s with registry := s.registry.set stdinName text }, [.sourceSet stdinName])

def setSources (s : Session) (sources : Registry) : Session × List Notice :=
  ({ s with registry := sources }, [.sourcesReplaced sources.size])

/-- A name below a search root. The root comes first even where the name looks absolute. -/
def joinSearchPath (root name : Text) : Text :=
  if root = [] then name else Path.trimSlashes root ++ '/' :: name.dropWhile (· = '/')

/-- The path under which the host is asked for a candidate. -/
def hostPath (candidate : Text) : Text := (Path.Plain.ofText candidate).toText

/-- The candidate below the first root under which it exists; the one below the last root where it
exists under none, and `last` where there is no root. -/
def findCandidate (host : Host) (name last : Text) : List Text → Except Fault Text
  | [] => .ok last
  | root :: rest => do
    let candidate ← host.canonicalize (joinSearchPath root name) true
    if ← host.pathExists (hostPath candidate) then return candidate
    findCandidate host name candidate rest

/-- How a search for an import can end, with the path it ended at. -/
inductive Finding
  | outside (path : Text)
  | notFound (path : Text)
  | notRegular (path : Text)
  | loaded (path text : Text)
  deriving DecidableEq

def withoutScheme (name : Text) : Text := (Text.after? fileScheme name).getD name

def find (host : Host) (sandbox : Sandbox) (name : Text) : Except Fault Finding := do
  let path ← findCandidate host (withoutScheme name) [] sandbox.searchPrefixes
  if !(← sandbox.isAllowed host path) then return .outside path
  if !(← host.pathExists (hostPath path)) then return .notFound path
  if !(← host.isFile (hostPath path)) then return .notRegular path
  return .loaded path (← host.readText (hostPath path))

/-- What a fault during a read is reported as. A NUL in a path is not expected there. -/
def faultNotice (name : Text) : Fault → Notice
  | .os error => .readFailed name (.os error)
  | .malformed error => .readFailed name (.malformed error)
  | fault => .readUnexpected (some name) fault

/-- Turns the end of a search into the answer, the session after it and the notice of it. Only a
violation is passed on. -/
def conclude (s : Session) (name : Text) :
    Except Fault Finding → Except Fault Answer × Session × List Notice
  | .ok (.outside path) => (.ok ⟨false, outsideMessage⟩, s, [.readOutside name path])
  | .ok (.notFound path) => (.ok ⟨false, notFoundMessage⟩, s, [.readNotFound path])
  | .ok (.notRegular path) => (.ok ⟨false, notRegularMessage⟩, s, [.readNotRegular path])
  | .ok (.loaded path text) =>
    (.ok ⟨true, text⟩, { s with registry := s.registry.set name text },
      [.readComplete name path text.length])
  | .error (.violation rule) => (.error (.violation rule), s, [])
  | .error fault => (.ok ⟨false, faultMessage fault⟩, s, [faultNotice name fault])

def load (host : Host) (s : Session) (name : Text) :
    Except Fault Answer × Session × List Notice :=
  s.conclude name (find host s.sandbox name)

def read (host : Host) (s : Session) (kind name : Text) :
    Except Fault Answer × Session × List Notice :=
  if kind = sourceKind then
    let (answer, s, notices) := s.load host name
    (answer, s, .readStarted (some name) :: notices)
  else (.error (.violation (.unsupportedKind kind)), s, [])

end Session

/-! ## Operations -/

inductive Operation
  | change (change : Sandbox.Change)
  | isAllowed (candidate : Text)
  | unitName (path : Text)
  | setSource (path text : Text)
  | setStdin (text : Text)
  | setSources (sources : List (Text × Text))
  | read (kind name : Text)
  deriving DecidableEq

inductive Reply
  | done
  | verdict (allowed : Bool)
  | name (name : Text)
  | answer (answer : Session.Answer)
  deriving DecidableEq

namespace Session

def perform (host : Host) (s : Session) : Operation → Except Fault Reply × Session
  | .change change =>
    match s.sandbox.apply host change with
    | .ok (sandbox, _) => (.ok .done, { s with sandbox := sandbox })
    | .error fault => (.error fault, s)
  | .isAllowed candidate => (.verdict <$> s.sandbox.isAllowed host candidate, s)
  | .unitName path => (.name <$> s.sandbox.unitName host path, s)
  | .setSource path text =>
    match s.setSource host path text with
    | .ok (s, _) => (.ok .done, s)
    | .error fault => (.error fault, s)
  | .setStdin text => (.ok .done, (s.setStdin text).1)
  | .setSources sources => (.ok .done, (s.setSources (.ofList sources)).1)
  | .read kind name =>
    let (answer, s, _) := s.read host kind name
    (.answer <$> answer, s)

/-- Whether a session can come about: it is set up on a host, and every operation that follows may
meet another one. -/
inductive Reachable : Session → Prop
  | start {host : Host} {basePath : Text} {includePaths allowed : List Text} {sandbox : Sandbox}
      (posix : host.platform = .posix)
      (built : (Sandbox.build host basePath includePaths allowed).1 = .ok sandbox)
      (sources : List (Text × Text)) : Reachable ⟨sandbox, .ofList sources⟩
  | step {s : Session} {host : Host} (before : Reachable s) (posix : host.platform = .posix)
      (operation : Operation) : Reachable (s.perform host operation).2

end Session

end SourceLoader
