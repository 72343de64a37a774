import SourceLoader.Log.Journal
import SourceLoader.Log.Record
import SourceLoader.Options.Settings
import SourceLoader.Options.Usage
import SourceLoader.Session

/-!
A whole run of the loader. The inputs are registered, the requested imports are resolved, and the
outcome of each is reported on standard output, followed by the names of all sources known at the
end.
-/

namespace SourceLoader.Program

/-- A run that is going on: the log with the host it writes to, the session, and whether an import
has failed. -/
structure State where
  journal : Log.Journal
  session : Session
  failed : Bool

/-- What does not change during a run: its id and the time. -/
structure Stamp where
  run : Text
  seconds : Int

def State.host (s : State) : Host := s.journal.host

def State.report (stamp : Stamp) (s : State) (notices : List Notice) : State :=
  { s with journal := s.journal.report stamp.run stamp.seconds notices }

def State.print (s : State) (line : Text) : State :=
  { s with journal := s.journal.write .stdout (line ++ ['\n']) }

def inputDirectory (path : Text) : Text := (Path.Plain.ofText path).parent.toText

/-- Sets up the sandbox. Files next to an input may be read. -/
def openSession (stamp : Stamp) (config : Config) (journal : Log.Journal) :
    Except Fault Unit × State :=
  let allowed := config.allowedDirectories ++ config.inputFiles.map inputDirectory
  let (sandbox, notices) := Sandbox.build journal.host (config.basePath.getD [])
    (config.includePaths.map (·.getD [])) allowed
  let state (sandbox : Sandbox) : State :=
    State.report stamp ⟨journal, ⟨sandbox, Registry.empty⟩, false⟩ notices
  match sandbox with
  | .ok sandbox => (.ok (), state sandbox)
  | .error fault => (.error fault, state Sandbox.empty)

def loadFile (stamp : Stamp) (s : State) (path : Text) : Except Fault Unit × State :=
  match s.host.readText path with
  | .error fault => (.error fault, s)
  | .ok text =>
    match s.session.setSource s.host path text with
    | .error fault => (.error fault, s)
    | .ok (session, notices) => (.ok (), State.report stamp { s with session := session } notices)

/-- Registers the input files, up to the first that fails. -/
def loadFiles (stamp : Stamp) (s : State) : List Text → Except Fault Unit × State
  | [] => (.ok (), s)
  | path :: rest =>
    match loadFile stamp s path with
    | (.error fault, s) => (.error fault, s)
    | (.ok (), s) => loadFiles stamp s rest

def loadStdin (stamp : Stamp) (config : Config) (stdin : Text) (s : State) : State :=
  if config.readStdin then
    let (session, notices) := s.session.setStdin stdin
    State.report stamp { s with session := session } notices
  else s

def answerLine (name : Text) (answer : Session.Answer) : Text :=
  if answer.success then "ok ".toList ++ name
  else "error ".toList ++ name ++ ": ".toList ++ answer.content

def namelessAnswer (s : State) : Except Fault Session.Answer × Session × List Notice :=
  let fault := Fault.noText "startswith".toList
  (.ok ⟨false, Session.faultMessage fault⟩, s.session, [.readUnexpected none fault])

def resolve (stamp : Stamp) (s : State) (name : Option Text) : Except Fault Unit × State :=
  let s := State.report stamp s [.readStarted name]
  let (answer, session, notices) := match name with
    | some name => s.session.load s.host name
    | none => namelessAnswer s
  let s := State.report stamp { s with session := session } notices
  match answer with
  | .error fault => (.error fault, s)
  | .ok answer =>
    let s := s.print (answerLine (Notice.given name).display answer)
    (.ok (), { s with failed := s.failed || !answer.success })

/-- Resolves imports in order, up to the first violation. -/
def resolveAll (stamp : Stamp) (s : State) : List (Option Text) → Except Fault Unit × State
  | [] => (.ok (), s)
  | name :: rest =>
    match resolve stamp s name with
    | (.error fault, s) => (.error fault, s)
    | (.ok (), s) => resolveAll stamp s rest

def listSources (s : State) : State :=
  s.session.registry.names.foldl (fun s name => s.print ("source ".toList ++ name)) s

/-- Runs the loader as configured. The result is the exit code. -/
def run (stamp : Stamp) (config : Config) (stdin : Text) (journal : Log.Journal) :
    Except Fault Int × Log.Journal :=
  match openSession stamp config journal with
  | (.error fault, s) => (.error fault, s.journal)
  | (.ok (), s) =>
    match loadFiles stamp s config.inputFiles with
    | (.error fault, s) => (.error fault, s.journal)
    | (.ok (), s) =>
      match resolveAll stamp (loadStdin stamp config stdin s) config.resolveNames with
      | (.error fault, s) => (.error fault, s.journal)
      | (.ok (), s) => (.ok (if s.failed then 1 else 0), (listSources s).journal)

/-- How a call ends: with an exit code, or with a fault that nothing handles. -/
inductive Ending
  | exit (code : Int)
  | fault (fault : Fault)
  deriving DecidableEq

def refusedCode : Int := 2

/-- Turns the end of a run into the end of the call. A file that cannot be opened is reported and
makes the call fail, a violation is reported and passed on. -/
def conclude (stamp : Stamp) : Except Fault Int × Log.Journal → Ending × Log.Journal
  | (.ok code, journal) => (.exit code, journal)
  | (.error (.os error), journal) =>
    (.exit 1, journal.report stamp.run stamp.seconds [.inputFailed error])
  | (.error (.violation rule), journal) =>
    (.fault (.violation rule),
      journal.report stamp.run stamp.seconds [.invalidConfiguration (.violation rule)])
  | (.error fault, journal) => (.fault fault, journal)

def start (seconds : Int) (settings : Options.Settings) (stdin : Text) (journal : Log.Journal) :
    Ending × Log.Journal :=
  let stamp : Stamp := ⟨(Runs.none.enter none).current, seconds⟩
  match settings.logLevel with
  | none => (.fault (.noText "upper".toList), journal)
  | some level =>
    let json := settings.logFormat = some "json".toList
    match journal.configure stamp.run seconds level settings.logDestination json with
    | (.error fault, journal) => (.fault fault, journal)
    | (.ok (), journal) =>
      match Config.ofSettings settings with
      | .error fault => (.fault fault, journal)
      | .ok config =>
        let journal := journal.report stamp.run seconds
          [.starting config.basePath config.includePaths config.allowedDirectories
            config.inputFiles]
        conclude stamp (run stamp config stdin journal)

/-- A call of the program. Standard input is given as the text that it is decoded to, and standard
output takes every character. -/
def call (host : Host) (env : Options.Environment) (seconds : Int) (arguments : List Text)
    (stdin : Text) : Ending × Log.Journal :=
  let journal := Log.Journal.initial host
  match Options.parse env arguments with
  | .help => (.exit 0, journal.write .stdout (Options.help (Options.columns env)))
  | .refused refusal =>
    (.exit refusedCode, journal.write .stderr (refusal.report (Options.columns env)))
  | .settings settings => start seconds settings stdin journal

end SourceLoader.Program
