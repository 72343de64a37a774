import Std.Time.DateTime.Timestamp
import SourceLoader.Program

/-!
The command line. A call sees the host through the places that its arguments and settings lead to:
those are looked at first and make up the tree that the run works on. Afterwards the output of the
run is printed, and what it wrote to log files is written to the files of the host.
-/

namespace SourceLoader.Command

def ofLocation (location : Location) : Text := '/' :: Text.join ['/'] location

def toLocation (path : Text) : Location := (path.splitOn '/').filter (· ≠ [])

def resolve? (path : Text) : IO (Option Location) := do
  match ← (IO.FS.realPath ⟨String.ofList path⟩).toBaseIO with
  | .ok real => return some (toLocation (toString real).toList)
  | .error _ => return none

def inspect (location : Location) : IO Entry := do
  let path := ofLocation location
  match ← (IO.FS.realPath ⟨String.ofList (path ++ ['/', '.'])⟩).toBaseIO with
  | .ok _ => return .directory false
  | .error (.permissionDenied ..) => return .directory true
  | .error _ =>
    match ← (IO.FS.readBinFile ⟨String.ofList path⟩).toBaseIO with
    | .ok bytes => return .file bytes.toList false
    | .error _ => return .file [] true

/-- Adds to a tree what stands on the way from a directory along the components, up to the first
that is absent. -/
def survey (tree : Tree) (here : Location) : List Text → IO Tree
  | [] => return tree
  | name :: rest => do
    if name = [] ∨ name = Path.dot then survey tree here rest
    else if name = Path.dotDot then survey tree here.dropLast rest
    else
      let place := here ++ [name]
      match ← resolve? (ofLocation place) with
      | none => return tree
      | some real =>
        let tree := tree.put real (← inspect real)
        if real = place then survey tree real rest
        else survey (tree.put place (.link (ofLocation real))) real rest

/-- Adds what stands on the way along each of the paths, both as they are written and in their
normal form. -/
def surveyAll (workDir : Text) (tree : Tree) (paths : List Text) : IO Tree :=
  paths.foldlM
    (fun tree path =>
      if '\x00' ∈ path then return tree
      else do
        let tree ← survey tree [] ((Path.append workDir path).splitOn '/')
        survey tree [] ((Path.absolute workDir path).splitOn '/'))
    tree

def settingPaths (settings : Options.Settings) (config : Config) : List Text :=
  Path.dot :: settings.logDestination.toList ++ config.basePath.toList ++
    config.includePaths.filterMap id ++ config.allowedDirectories ++ config.inputFiles ++
    config.inputFiles.map Program.inputDirectory

def searchPaths (sandbox : Sandbox) (config : Config) : List Text :=
  sandbox.searchPrefixes.flatMap fun root =>
    (config.resolveNames.filterMap id).map fun name =>
      Session.joinSearchPath root (Session.withoutScheme name)

/-- The host, as far as a call with these settings looks at it. -/
def hostFor (settings : Options.Settings) (config : Config) : IO Host := do
  let workDir := (toString (← IO.currentDir)).toList
  let tree ← surveyAll workDir Tree.empty (settingPaths settings config)
  let host : Host := ⟨.posix, tree, some workDir⟩
  match (Sandbox.build host (config.basePath.getD []) (config.includePaths.map (·.getD []))
      config.allowedDirectories).1 with
  | .ok sandbox =>
    return { host with tree := ← surveyAll workDir tree (searchPaths sandbox config) }
  | .error _ => return host

def variableNames : List String :=
  ["SOURCEVFS_BASE_PATH", "SOURCEVFS_INCLUDE_PATHS", "SOURCEVFS_ALLOW_PATHS",
    "SOURCEVFS_LOG_LEVEL", "SOURCEVFS_LOG_DESTINATION", "SOURCEVFS_LOG_FORMAT", "COLUMNS"]

def environment : IO Options.Environment :=
  variableNames.filterMapM fun name => do
    return (← IO.getEnv name).map fun value => (name.toList, value.toList)

/-- Writes to the host's log file what a run added to it. -/
def store (before after : Tree) (path : Text) (location : Location) : IO Unit := do
  let directory := (Path.Plain.ofText path).parent.toText
  IO.FS.createDirAll ⟨String.ofList directory⟩
  let file ← IO.FS.Handle.mk ⟨String.ofList path⟩ .append
  file.write ⟨((after.bytesAt location).drop (before.bytesAt location).length).toArray⟩

def accepted? (env : Options.Environment) (arguments : List Text) :
    Option (Options.Settings × Config) :=
  match Options.parse env arguments with
  | .settings settings => (Config.ofSettings settings).toOption.map (settings, ·)
  | _ => none

def call (args : List String) : IO UInt32 := do
  let env ← environment
  let arguments := args.map String.toList
  let seconds := (← Std.Time.Timestamp.now).toSecondsSinceUnixEpoch.val
  let accepted := accepted? env arguments
  let host ← match accepted with
    | some (settings, config) => hostFor settings config
    | none => pure ⟨.posix, Tree.empty, some ['/']⟩
  let stdin ← match accepted with
    | some (_, config) => if config.readStdin then (← IO.getStdin).readToEnd else pure ""
    | none => pure ""
  let (ending, journal) := Program.call host env seconds arguments stdin.toList
  IO.print (String.ofList journal.stdout)
  IO.eprint (String.ofList journal.stderr)
  for (path, location) in journal.opened do
    store host.tree journal.host.tree path location
  match ending with
  | .exit code => return UInt32.ofNat code.toNat
  | .fault fault =>
    IO.eprintln (String.ofList fault.summary)
    return 1

end SourceLoader.Command

def main (args : List String) : IO UInt32 := SourceLoader.Command.call args
