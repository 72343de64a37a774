import SourceLoader.Host.Lookup
import SourceLoader.Path.Basic

/-!
The link-free form of a path. The path is rebuilt component by component, and where a component
turns out to be a link, its target is rebuilt in its place. What does not exist is kept as it is
written. A link that is met again while its own target is being rebuilt makes a loop: from there on
the rest of the path is kept as it is written as well.

The canonical form of a path. It is rooted, uses forward slashes only, and has no empty, `.` or `..`
segment. The name of the working directory's own root is left out; that of another root is kept. A
slash at the end stays where the path as given says that it names a directory. Links are resolved on
request only, and nothing is asked about the existence of what the path names.
-/

namespace SourceLoader.Host

/-- The links met so far, by path, with their link-free form once it is known. -/
abbrev Seen := List (Text × Option Text)

structure Rebuilt where
  path : Text
  complete : Bool
  seen : Seen

def above (path : Text) : Text :=
  if path = [] then Path.dotDot
  else
    match Path.splitLast path with
    | (directory, name) =>
      if name = Path.dotDot then Path.append (Path.append directory Path.dotDot) Path.dotDot
      else directory

/-- The components of a path that come after its start, and the path that they are added to. -/
def beginRebuild (start path : Text) : Text × List Text :=
  match path.splitOn '/' with
  | [] :: second :: rest => (['/'], second :: rest)
  | components => (start, components)

/-- Rebuilds `path` further along the components. `depth` bounds how deep links may be nested in
links; the number of links on the host is always enough. -/
def rebuild (host : Host) (depth : Nat) (path : Text) (components : List Text) (seen : Seen) :
    Except Fault Rebuilt :=
  match components with
  | [] => .ok ⟨path, true, seen⟩
  | name :: rest =>
    if name = [] ∨ name = Path.dot then rebuild host depth path rest seen
    else if name = Path.dotDot then rebuild host depth (above path) rest seen
    else
      let next := Path.append path name
      match host.linkTarget? next with
      | .error fault => .error fault
      | .ok none => rebuild host depth next rest seen
      | .ok (some target) =>
        let broken (path : Text) (seen : Seen) : Rebuilt :=
          ⟨Path.append path (Text.join ['/'] rest), false, seen⟩
        match seen.lookup next with
        | some (some known) => rebuild host depth known rest seen
        | some none => .ok (broken next seen)
        | none =>
          match depth with
          | 0 => .ok (broken next seen)
          | depth + 1 =>
            let inner := beginRebuild path target
            match rebuild host depth inner.1 inner.2 ((next, none) :: seen) with
            | .error fault => .error fault
            | .ok ⟨path, false, seen⟩ => .ok (broken path seen)
            | .ok ⟨path, true, seen⟩ =>
              rebuild host (depth + 1) path rest ((next, some path) :: seen)
termination_by (depth, components.length)

/-- The link-free form of a path, made absolute and normal. A Windows host only does the latter. How
deep links may be nested is not bounded here, while a host that rebuilds by recursion has a limit. -/
def realPath (host : Host) (path : Text) : Except Fault Text :=
  match host.platform with
  | .windows =>
    if Path.Windows.isAbsolute path then .ok (Path.Windows.normalize path)
    else (Path.Windows.absolute · path) <$> host.askWorkDir
  | .posix =>
    let outset := beginRebuild [] path
    match host.rebuild host.tree.linkCount outset.1 outset.2 [] with
    | .error fault => .error fault
    | .ok rebuilt =>
      if Path.isAbsolute rebuilt.path then .ok (Path.normalize rebuilt.path)
      else (Path.absolute · rebuilt.path) <$> host.askWorkDir

end SourceLoader.Host

/-! ## The canonical form -/

namespace SourceLoader

def Host.canonicalWorkDir (host : Host) : Except Fault Text := do
  let path ← host.askWorkDir
  host.platform.generic <$> host.realPath path

namespace Path

def trimSlashes (path : Text) : Text := (path.reverse.dropWhile (· = '/')).reverse

/-- The path seen from the working directory. A path with a root name of its own but no root below
it lands where the working directory is below its root. -/
def anchor (platform : Platform) (workDir path : Text) : Text :=
  let generic := platform.generic path
  let name := rootName platform generic
  let rest := generic.drop name.length
  let workRoot := rootName platform workDir
  if path = [] then workDir
  else if isAbsolute rest then if name = [] then workRoot ++ generic else generic
  else if name ≠ [] then name ++ workDir.drop workRoot.length ++ '/' :: rest
  else trimSlashes workDir ++ '/' :: generic

def render (rootName : Text) (segments : List Text) (isDirectory : Bool) : Text :=
  rootName ++ '/' :: Text.join ['/'] segments ++
    if segments ≠ [] ∧ isDirectory then ['/'] else []

/-- The canonical form of an anchored path; `isDirectory` tells whether the path as given names a
directory. -/
def canonicalOfAnchored (platform : Platform) (workDir anchored : Text) (isDirectory : Bool) :
    Except Fault Text :=
  let parts := split platform anchored
  if ¬ parts.rooted then .error (.violation (.anchoredPathNotRooted anchored))
  else
    let segments := dropLeadingDotDots (collapseDots parts.segments)
    if dotDot ∈ segments then .error (.violation (.dotDotLeft anchored))
    else
      let name := parts.rootName
      let keptName :=
        if ¬ isUnc platform name ∧ name = rootName platform workDir then [] else name
      .ok (render keptName segments isDirectory)

end Path

namespace Host

/-- The anchored path without links. A network root cannot be resolved by a POSIX host. -/
def resolveLinks (host : Host) (anchored : Text) : Except Fault Text :=
  if Path.isUnc host.platform anchored ∧ host.platform = .posix then .ok anchored
  else host.platform.generic <$> host.realPath anchored

def canonicalize (host : Host) (path : Text) (resolve : Bool) : Except Fault Text := do
  let workDir ← host.canonicalWorkDir
  let anchored := Path.anchor host.platform workDir path
  let anchored ← if resolve then host.resolveLinks anchored else .ok anchored
  let isDirectory := (Path.split host.platform path).isDirectory
  Path.canonicalOfAnchored host.platform workDir anchored isDirectory

end Host

end SourceLoader
