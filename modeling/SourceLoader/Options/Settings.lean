import SourceLoader.Fault
import SourceLoader.Options.Word
import SourceLoader.Text.Unicode

/-!
The settings of one call, from the environment and the command line. Of an option given twice the
last value counts, but `--include-path` and `--resolve` collect theirs. The inputs are the first
unbroken run of values; a later run is not recognized. A value that is `--` itself is taken for the
terminator and dropped, which leaves its option without text.

What a call of the loader is to do: the sandbox, the inputs, and the names to resolve.
-/

namespace SourceLoader.Options

structure Settings where
  inputs : List Text
  basePath : Option Text
  includePaths : List (Option Text)
  allowPaths : Option Text
  resolve : List (Option Text)
  logLevel : Option Text
  logDestination : Option Text
  logFormat : Option Text
  deriving DecidableEq

abbrev Environment := List (Text × Text)

/-- A list from the environment; none when the variable is not set. -/
def listOf (env : Environment) (name : Text) : List Text :=
  match env.lookup name with
  | some value => Text.commaItems value
  | none => []

/-- The settings of an empty command line. They are not checked. -/
def defaults (env : Environment) : Settings :=
  { inputs := []
    basePath := some ((env.lookup "SOURCEVFS_BASE_PATH".toList).getD [])
    includePaths := (listOf env "SOURCEVFS_INCLUDE_PATHS".toList).map some
    allowPaths := some (Text.join [','] (listOf env "SOURCEVFS_ALLOW_PATHS".toList))
    resolve := []
    logLevel := some ((env.lookup "SOURCEVFS_LOG_LEVEL".toList).getD "INFO".toList).upper
    logDestination := some ((env.lookup "SOURCEVFS_LOG_DESTINATION".toList).getD "stderr".toList)
    logFormat := some ((env.lookup "SOURCEVFS_LOG_FORMAT".toList).getD "json".toList).lower }

def choose (flag : Flag) (choices : List Text) (value : Text) : Except Refusal (Option Text) :=
  if value ∈ choices then .ok (some value) else .error (.badChoice flag value choices)

def Settings.set (s : Settings) (flag : Flag) (value : Option Text) : Except Refusal Settings :=
  match flag, value with
  | .help, _ => .ok s
  | .basePath, _ => .ok { s with basePath := value }
  | .includePath, _ => .ok { s with includePaths := s.includePaths ++ [value] }
  | .allowPaths, _ => .ok { s with allowPaths := value }
  | .resolve, _ => .ok { s with resolve := s.resolve ++ [value] }
  | .logDestination, _ => .ok { s with logDestination := value }
  | .logLevel, none => .ok { s with logLevel := none }
  | .logLevel, some text => do
    return { s with logLevel := ← choose .logLevel levelChoices text.upper }
  | .logFormat, none => .ok { s with logFormat := none }
  | .logFormat, some text => do
    return { s with logFormat := ← choose .logFormat formatChoices text.lower }

inductive Progress
  | before
  | inside
  | behind
  deriving DecidableEq

/-- What has been read of a command line: the settings, the run of inputs, and the words that were
not recognized. -/
structure Reading where
  settings : Settings
  progress : Progress
  unrecognized : List Text

def Reading.value (r : Reading) (text : Text) : Reading :=
  match r.progress with
  | .behind => { r with unrecognized := r.unrecognized ++ [text] }
  | _ =>
    { r with
      settings := { r.settings with inputs := r.settings.inputs ++ [text] }
      progress := .inside }

/-- Reads the terminator, which belongs to the run of inputs if that is still open. -/
def Reading.terminator (r : Reading) : Reading :=
  match r.progress with
  | .behind => { r with unrecognized := r.unrecognized ++ [terminatorText] }
  | _ => { r with progress := .inside }

def Reading.endRun (r : Reading) : Reading :=
  match r.progress with
  | .inside => { r with progress := .behind }
  | _ => r

def Reading.unknown (r : Reading) (text : Text) : Reading :=
  let r := r.endRun
  { r with unrecognized := r.unrecognized ++ [text] }

def Reading.set (r : Reading) (flag : Flag) (value : Option Text) : Except Refusal Reading := do
  let r := r.endRun
  return { r with settings := ← r.settings.set flag value }

inductive Outcome
  | settings (settings : Settings)
  | help
  | refused (refusal : Refusal)
  deriving DecidableEq

/-- An explicit value, which is dropped if it is the terminator. Older releases of the option parser
do this, and newer ones keep the terminator as a value. -/
def explicitValue (value : Text) : Option Text :=
  if value = terminatorText then none else some value

def read (r : Reading) : List Word → Outcome
  | [] =>
    if r.unrecognized = [] then .settings r.settings
    else .refused (.unrecognized r.unrecognized)
  | .value text :: rest => read (r.value text) rest
  | .terminator :: rest => read r.terminator rest
  | .unknown text :: rest => read (r.unknown text) rest
  | .option .help none :: _ => .help
  | .option .help (some text) :: _ => .refused (.unusedValue .help text)
  | .option flag (some text) :: rest =>
    match r.set flag (explicitValue text) with
    | .ok r => read r rest
    | .error refusal => .refused refusal
  | .option flag none :: .value text :: rest =>
    match r.set flag (some text) with
    | .ok r => read r rest
    | .error refusal => .refused refusal
  | .option flag none :: _ => .refused (.missingValue flag)

def parse (env : Environment) (arguments : List Text) : Outcome :=
  match classifyAll arguments with
  | .ok words => read ⟨defaults env, .before, []⟩ words
  | .error refusal => .refused refusal

end SourceLoader.Options

/-! ## The configuration -/

namespace SourceLoader

structure Config where
  basePath : Option Text
  includePaths : List (Option Text)
  allowedDirectories : List Text
  inputFiles : List Text
  readStdin : Bool
  resolveNames : List (Option Text)
  deriving DecidableEq

namespace Config

def stdinArgument : Text := ['-']

def ofSettings (s : Options.Settings) : Except Fault Config :=
  match s.allowPaths with
  | none => .error (.noText "split".toList)
  | some allowPaths =>
    .ok
      { basePath := s.basePath
        includePaths := s.includePaths
        allowedDirectories := Text.commaItems allowPaths
        inputFiles := s.inputs.filter (· ≠ stdinArgument)
        readStdin := stdinArgument ∈ s.inputs
        resolveNames := s.resolve }

end Config

end SourceLoader
