import SourceLoader.Path.Basic
import SourceLoader.Text.Unicode

/-!
Paths of a POSIX host as texts, without a look at the host. A path that begins with exactly two
slashes keeps both; any other number of leading slashes counts as one.

Paths of a Windows host as texts. Such a path begins with a drive, which is a character and a colon
or the host and share of a network path; what follows the drive is rooted or not on its own.
-/

namespace SourceLoader.Path

def isAbsolute (path : Text) : Bool := path.head? = some '/'

/-- `path` below `directory`. An absolute path stands for itself. -/
def append (directory path : Text) : Text :=
  if isAbsolute path then path
  else if directory = [] ∨ directory.getLast? = some '/' then directory ++ path
  else directory ++ '/' :: path

def leadingSlashes : Text → Text
  | '/' :: '/' :: '/' :: _ => ['/']
  | '/' :: '/' :: _ => ['/', '/']
  | '/' :: _ => ['/']
  | _ => []

/-- Adds one component to those collected so far, the last of which comes first. Empty components
and `.` are dropped, `..` takes the component before it away, and nothing lies above the root. -/
def pushComponent (rooted : Bool) (collected : List Text) (component : Text) : List Text :=
  if component = [] ∨ component = dot then collected
  else if component = dotDot then
    match collected with
    | [] => if rooted then [] else [component]
    | last :: before => if last = dotDot then component :: collected else before
  else component :: collected

/-- The path without empty components, `.` and resolvable `..`, and without a slash at its end. -/
def normalize (path : Text) : Text :=
  let lead := leadingSlashes path
  let components := (path.splitOn '/').foldl (pushComponent (lead ≠ [])) []
  let result := lead ++ Text.join ['/'] components.reverse
  if result = [] then dot else result

def absolute (workDir path : Text) : Text := normalize (append workDir path)

/-- The directory part and the last component of a path. The slashes between the two are dropped
unless the directory part is made of slashes only. -/
def splitLast (path : Text) : Text × Text :=
  let tail := (path.reverse.takeWhile (· ≠ '/')).reverse
  let head := path.take (path.length - tail.length)
  let trimmed := (head.reverse.dropWhile (· = '/')).reverse
  (if trimmed = [] then head else trimmed, tail)

/-- A path as its leading slashes and its components. Empty components and `.` are left out, `..`
is kept. -/
structure Plain where
  lead : Text
  components : List Text
  deriving DecidableEq

def Plain.ofText (path : Text) : Plain :=
  { lead := leadingSlashes path
    components := (path.splitOn '/').filter fun c => c ≠ [] ∧ c ≠ dot }

def Plain.toText (p : Plain) : Text :=
  if p.lead = [] ∧ p.components = [] then dot else p.lead ++ Text.join ['/'] p.components

/-- The path without its last component; one without components is its own parent. -/
def Plain.parent (p : Plain) : Plain := { p with components := p.components.dropLast }

end SourceLoader.Path

/-! ## Windows -/

namespace SourceLoader.Path.Windows

def isSeparator (c : Char) : Bool := Platform.windows.isSeparator c

def native (path : Text) : Text := path.map fun c => if c = '/' then '\\' else c

def literalNetworkLead : Text := "\\\\?\\UNC\\".toList

def networkLeadLength (path : Text) : Nat :=
  if Text.upper (path.take literalNetworkLead.length) = literalNetworkLead then
    literalNetworkLead.length
  else 2

/-- The number of characters that the drive of a path takes: two for a character and a colon, and
for a network path those of its lead, the host and the share. A network path that ends before its
share is nothing but a drive, and host and share may be empty. -/
def driveLength (path : Text) : Nat :=
  match native path with
  | '\\' :: '\\' :: _ =>
    let lead := networkLeadLength (native path)
    let rest := (native path).drop lead
    let host := rest.takeWhile (· ≠ '\\')
    match rest.drop host.length with
    | [] => path.length
    | _ :: below => lead + host.length + 1 + (below.takeWhile (· ≠ '\\')).length
  | _ :: ':' :: _ => 2
  | _ => 0

def drive (path : Text) : Text := path.take (driveLength path)

def withoutDrive (path : Text) : Text := path.drop (driveLength path)

def startsWithSeparator (path : Text) : Bool :=
  match path with
  | c :: _ => isSeparator c
  | [] => false

/-- A path is absolute when it begins with a separator, and when a separator follows a character and
a colon. -/
def isAbsolute (path : Text) : Bool :=
  match native path with
  | '\\' :: _ | _ :: ':' :: '\\' :: _ => true
  | _ => false

def endsWithSeparator (path : Text) : Bool :=
  match path.getLast? with
  | some c => isSeparator c
  | none => false

/-- A drive and what follows it, as one path. A network drive is set off by a separator. -/
def attach (drive path : Text) : Text :=
  if path ≠ [] ∧ ¬ startsWithSeparator path ∧ drive ≠ [] ∧ drive.getLast? ≠ some ':' then
    drive ++ '\\' :: path
  else drive ++ path

/-- `path` seen from `directory`. The drive of the path wins where it names another one. -/
def append (directory path : Text) : Text :=
  let ownDrive := drive path
  let ownRest := withoutDrive path
  let baseDrive := drive directory
  let baseRest := withoutDrive directory
  if startsWithSeparator ownRest then
    attach (if ownDrive ≠ [] ∨ baseDrive = [] then ownDrive else baseDrive) ownRest
  else if ownDrive ≠ [] ∧ Text.lower ownDrive ≠ Text.lower baseDrive then attach ownDrive ownRest
  else
    let joined :=
      if baseRest ≠ [] ∧ ¬ endsWithSeparator baseRest then baseRest ++ '\\' :: ownRest
      else baseRest ++ ownRest
    attach (if ownDrive ≠ [] then ownDrive else baseDrive) joined

/-- Adds one component to those collected so far, the last of which comes first. -/
def pushComponent (rooted : Bool) (collected : List Text) (component : Text) : List Text :=
  if component = [] ∨ component = dot then collected
  else if component = dotDot then
    match collected with
    | [] => if rooted then [] else [component]
    | last :: before => if last = dotDot then component :: collected else before
  else component :: collected

def normalize (path : Text) : Text :=
  let path := native path
  let rest := withoutDrive path
  let lead := if startsWithSeparator rest then drive path ++ ['\\'] else drive path
  let components :=
    ((rest.dropWhile (· = '\\')).splitOn '\\').foldl (pushComponent (endsWithSeparator lead)) []
  if lead = [] ∧ components = [] then dot else lead ++ Text.join ['\\'] components.reverse

def absolute (workDir path : Text) : Text :=
  normalize (if isAbsolute path then path else append workDir path)

end SourceLoader.Path.Windows
