import SourceLoader.Host.Basic

/-!
How a host looks up a path: component by component through directories, following links from where
they stand. An empty component asks for nothing but a directory, so a slash at the end of a path
requires one.

Reading files, and the two changes that a log makes to a host: directories come into being on the
way to a log file, and the log file itself is opened for writing at its end.
-/

namespace SourceLoader

/-- Where a look-up ends: at something that exists, or at a free name in an existing directory. -/
inductive Place
  | existing (location : Location)
  | free (directory : Location) (name : Text)
  deriving DecidableEq

namespace Host

def maxName : Nat := 255

def pathLimit : Nat := 4096

def maxLinks : Nat := 40

/-- Whether a path can be looked up at all, judged by its length. -/
def checkLength (path : Text) : Except Errno Unit :=
  if path = [] then .error .notFound
  else if pathLimit ≤ path.utf8Length then .error .nameTooLong
  else .ok ()

/-- Goes from the place `here` along the components. A link in last position is followed only if
`followLast` says so; `links` is the number of links that may still be followed. -/
def walk (tree : Tree) (followLast : Bool) (links : Nat) (here : Location) :
    List Text → Except Errno Place
  | [] => .ok (.existing here)
  | name :: rest =>
    match tree.get? here with
    | some (.directory denied) =>
      if name = [] then walk tree followLast links here rest
      else if denied then .error .accessDenied
      else if name = Path.dot then walk tree followLast links here rest
      else if name = Path.dotDot then walk tree followLast links here.dropLast rest
      else if maxName < Text.utf8Length name then .error .nameTooLong
      else
        match tree.get? (here ++ [name]) with
        | none => if rest = [] then .ok (.free here name) else .error .notFound
        | some (.link target) =>
          if rest = [] ∧ ¬ followLast then .ok (.existing (here ++ [name]))
          else
            match links with
            | 0 => .error .tooManyLinks
            | links + 1 =>
              match checkLength target with
              | .error e => .error e
              | .ok () =>
                walk tree followLast links (origin target here) (target.splitOn '/' ++ rest)
        | some _ => walk tree followLast links (here ++ [name]) rest
    | _ => .error .notDirectory
termination_by path => (links, path.length)

def lookupFrom (tree : Tree) (followLast : Bool) (here : Location) (path : Text) :
    Except Errno Place :=
  match checkLength path with
  | .error e => .error e
  | .ok () => walk tree followLast maxLinks here (path.splitOn '/')

/-- The working directory as a place, looked up from the root for every path that begins there. One
without a name is the root. -/
def workPlace (host : Host) : Except Errno Location :=
  match host.workDir with
  | none => .error .notFound
  | some [] => .ok []
  | some path =>
    match lookupFrom host.tree true [] path with
    | .ok (.existing location) => .ok location
    | .ok (.free _ _) => .error .notFound
    | .error e => .error e

/-- The place where the look-up of a path begins: the root, or the working directory. -/
def outset (host : Host) (path : Text) : Except Errno Location :=
  if Path.isAbsolute path then .ok [] else host.workPlace

def lookup (host : Host) (followLast : Bool) (path : Text) : Except Errno Place :=
  match checkLength path, host.outset path with
  | .ok (), .error e => .error e
  | .ok (), .ok here => walk host.tree followLast maxLinks here (path.splitOn '/')
  | .error e, _ => .error e

theorem lookup_of_isAbsolute (host : Host) (followLast : Bool) {path : Text}
    (h : Path.isAbsolute path = true) :
    host.lookup followLast path = lookupFrom host.tree followLast [] path := by
  simp only [lookup, lookupFrom, outset, h, if_true]
  split <;> simp_all

/-- The answer to a request for `path`: requests with a NUL in the path are refused, and failures
name the path. -/
def request (path : Text) (answer : Except Errno α) : Except Fault α :=
  if '\x00' ∈ path then .error .embeddedNul
  else
    match answer with
    | .ok a => .ok a
    | .error errno => .error (.os ⟨errno, some path⟩)

def entryAt (host : Host) : Except Errno Place → Except Errno Entry
  | .error e => .error e
  | .ok (.free _ _) => .error .notFound
  | .ok (.existing location) =>
    match host.tree.get? location with
    | some entry => .ok entry
    | none => .error .notFound

def stat (host : Host) (path : Text) : Except Fault Entry :=
  request path (host.entryAt (host.lookup true path))

/-- The target of the link that a path names, or none if it names something else or nothing. -/
def linkTarget? (host : Host) (path : Text) : Except Fault (Option Text) :=
  match request path (host.entryAt (host.lookup false path)) with
  | .ok (.link target) => .ok (some target)
  | .ok _ => .ok none
  | .error (.os _) => .ok none
  | .error fault => .error fault

/-- The answer to a question about what a path leads to. It is no where the path leads nowhere. -/
def ask (host : Host) (path : Text) (question : Entry → Bool) : Except Fault Bool :=
  match host.stat path with
  | .ok entry => .ok (question entry)
  | .error .embeddedNul => .ok false
  | .error (.os e) => if e.errno.meansAbsent then .ok false else .error (.os e)
  | .error fault => .error fault

def pathExists (host : Host) (path : Text) : Except Fault Bool :=
  host.ask path fun _ => true

def isFile (host : Host) (path : Text) : Except Fault Bool :=
  host.ask path fun
    | .file _ _ => true
    | _ => false

def isDirectory (host : Host) (path : Text) : Except Fault Bool :=
  host.ask path Entry.isDirectory

end Host

end SourceLoader

/-! ## Reading and writing -/

namespace SourceLoader.Host

def readEntry : Entry → Except Errno Text.Utf8.Bytes
  | .file bytes denied => if denied then .error .accessDenied else .ok bytes
  | .directory _ => .error .isDirectory
  | .link _ => .error .tooManyLinks
  | .pipe bytes => .ok bytes

def readBytes (host : Host) (path : Text) : Except Fault Text.Utf8.Bytes :=
  request path (host.entryAt (host.lookup true path) >>= readEntry)

def readText (host : Host) (path : Text) : Except Fault Text :=
  match host.readBytes path with
  | .error fault => .error fault
  | .ok bytes =>
    match Text.Utf8.decode bytes with
    | .ok text => .ok text
    | .error e => .error (.malformed e)

/-- Opens a file for writing at its end, and creates it where the name is free. -/
def openLog (host : Host) (path : Text) : Except Fault (Host × Location) :=
  request path <|
    match host.lookup true path with
    | .error e => .error e
    | .ok (.free directory name) =>
      let location := directory ++ [name]
      .ok ({ host with tree := host.tree.set location (.file [] false) }, location)
    | .ok (.existing location) =>
      match host.tree.get? location with
      | some (.file _ true) => .error .accessDenied
      | some (.directory _) => .error .isDirectory
      | _ => .ok (host, location)

def makeEntry (host : Host) (path : Text) : Except Errno Host := do
  checkLength path
  let components := path.splitOn '/'
  let name := components.getLastD []
  let here ← host.outset path
  let place ← walk host.tree true maxLinks here components.dropLast
  match place with
  | .free _ _ => .error .notFound
  | .existing above =>
    match host.tree.get? above with
    | some (.directory denied) =>
      if Path.namesDirectory name ∨ (host.tree.get? (above ++ [name])).isSome then
        .error .alreadyExists
      else if denied then .error .accessDenied
      else if maxName < Text.utf8Length name then .error .nameTooLong
      else .ok { host with tree := host.tree.set (above ++ [name]) (.directory false) }
    | _ => .error .notDirectory

/-- Makes one directory, or says for which path that failed. The name may hold a NUL. -/
def makeDirectory (host : Host) (path : Text) : Except Fault Host :=
  match host.makeEntry path with
  | .ok host => .ok host
  | .error errno => .error (.os ⟨errno, some path⟩)

/-- The outcome of making a directory that may be there already: a failure counts only if no
directory stands there. -/
def acceptDirectory (host : Host) (path : Text) (fault : Fault) : Except Fault Unit × Host :=
  match fault with
  | .os e =>
    if e.errno = .notFound then (.error fault, host)
    else
      match host.isDirectory path with
      | .ok true => (.ok (), host)
      | .ok false => (.error fault, host)
      | .error fault => (.error fault, host)
  | _ => (.error fault, host)

def makeDirectories (host : Host) (path : Path.Plain) : Except Fault Unit × Host :=
  match host.makeDirectory path.toText with
  | .ok host => (.ok (), host)
  | .error fault =>
    match fault, _inside : path.components with
    | .os ⟨.notFound, _⟩, _ :: _ =>
      match makeDirectories host path.parent with
      | (.error fault, host) => (.error fault, host)
      | (.ok (), host) =>
        match host.makeDirectory path.toText with
        | .ok host => (.ok (), host)
        | .error fault => host.acceptDirectory path.toText fault
    | fault, _ => host.acceptDirectory path.toText fault
termination_by path.components.length
decreasing_by simp [Path.Plain.parent, *]

end SourceLoader.Host
