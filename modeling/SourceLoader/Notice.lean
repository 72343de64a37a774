import SourceLoader.Fault
import SourceLoader.Json.Basic
import SourceLoader.Text.Unicode

/-!
How important a log record is. Levels are numbers, and a few of them have names.

Everything that the loader reports about its own work. A notice knows who reports it, how important
it is, its wording and the fields that go with it.
-/

namespace SourceLoader.Log

def debug : Int := 10

def info : Int := 20

def warning : Int := 30

def error : Int := 40

def critical : Int := 50

def levelName (level : Int) : Text :=
  if level = 0 then "NOTSET".toList
  else if level = debug then "DEBUG".toList
  else if level = info then "INFO".toList
  else if level = warning then "WARNING".toList
  else if level = error then "ERROR".toList
  else if level = critical then "CRITICAL".toList
  else "Level ".toList ++ Text.ofInt level

def levelNames : List (Text × Int) :=
  [("CRITICAL".toList, critical), ("FATAL".toList, critical), ("ERROR".toList, error),
    ("WARNING".toList, warning), ("WARN".toList, warning), ("INFO".toList, info),
    ("DEBUG".toList, debug), ("NOTSET".toList, 0)]

/-- The level that a name in any case stands for. A name that stands for none means the middle
one. -/
def levelOfName (name : Text) : Int := (levelNames.lookup name.upper).getD info

end SourceLoader.Log

/-! ## Notices -/

namespace SourceLoader

inductive Notice
  | baseConfigured (path : Text)
  | includeAdded (path : Text)
  | directoryAllowed (path : Text)
  | sourceSet (name : Text)
  | sourcesReplaced (count : Nat)
  | readStarted (name : Option Text)
  | readOutside (name path : Text)
  | readNotFound (path : Text)
  | readNotRegular (path : Text)
  | readComplete (name path : Text) (size : Nat)
  | readFailed (name : Text) (fault : Fault)
  | readUnexpected (name : Option Text) (fault : Fault)
  | logConfigured (destination : Text) (level : Int) (json : Bool)
  | starting (basePath : Option Text) (includePaths : List (Option Text))
      (allowed inputs : List Text)
  | invalidConfiguration (fault : Fault)
  | inputFailed (error : OsError)

namespace Notice

/-- The value of an option, which may have been left without text. -/
def given : Option Text → Json
  | some value => .str value
  | none => .arr []

def sandboxLogger : Text := "sourcevfs.sandbox".toList

def readerLogger : Text := "sourcevfs.handlers.reader".toList

def driverLogger : Text := "sourcevfs.driver".toList

def rootLogger : Text := "sourcevfs".toList

def logger : Notice → Text
  | baseConfigured _ | includeAdded _ | directoryAllowed _ => sandboxLogger
  | sourceSet _ | sourcesReplaced _ | readStarted _ | readOutside _ _ | readNotFound _
  | readNotRegular _ | readComplete _ _ _ | readFailed _ _ | readUnexpected _ _ => readerLogger
  | logConfigured _ _ _ => rootLogger
  | starting _ _ _ _ | invalidConfiguration _ | inputFailed _ => driverLogger

def level : Notice → Int
  | sourceSet _ | readStarted _ => Log.debug
  | readOutside _ _ | readFailed _ _ => Log.warning
  | readUnexpected _ _ | inputFailed _ => Log.error
  | invalidConfiguration _ => Log.critical
  | _ => Log.info

def message : Notice → Text
  | baseConfigured _ => "Base path configured".toList
  | includeAdded _ => "Include path added".toList
  | directoryAllowed _ => "Directory allowed".toList
  | sourceSet _ => "Source registered".toList
  | sourcesReplaced _ => "Sources replaced".toList
  | readStarted _ => "File read started".toList
  | readOutside _ _ => "Read outside allowed directories blocked".toList
  | readNotFound _ => "File not found".toList
  | readNotRegular _ => "Not a regular file".toList
  | readComplete _ _ _ => "File read complete".toList
  | readFailed _ _ => "File read failed".toList
  | readUnexpected _ _ => "Unexpected error in read callback".toList
  | logConfigured _ _ _ => "Logging configured".toList
  | starting _ _ _ _ => "Starting source loader".toList
  | invalidConfiguration _ => "Invalid source loader configuration".toList
  | inputFailed _ => "Failed to load input file".toList

def event? : Notice → Option Text
  | baseConfigured _ => some "sandbox_configured".toList
  | includeAdded _ => some "include_path_added".toList
  | directoryAllowed _ => some "directory_allowed".toList
  | sourceSet _ => some "source_set".toList
  | sourcesReplaced _ => some "sources_replaced".toList
  | readStarted _ => some "read_started".toList
  | readOutside _ _ => some "read_outside_sandbox".toList
  | readNotFound _ => some "read_not_found".toList
  | readNotRegular _ => some "read_not_regular_file".toList
  | readComplete _ _ _ => some "read_complete".toList
  | readFailed _ _ | readUnexpected _ _ => some "read_failed".toList
  | logConfigured _ _ _ => some "logging_configured".toList
  | starting _ _ _ _ | invalidConfiguration _ | inputFailed _ => none

def details : Notice → List (Text × Json)
  | baseConfigured path => [("base_path".toList, .str path)]
  | includeAdded path | directoryAllowed path | readNotFound path | readNotRegular path =>
    [("path".toList, .str path)]
  | sourceSet name => [("source_unit_name".toList, .str name)]
  | sourcesReplaced count => [("source_count".toList, .int count)]
  | readStarted name => [("source_unit_name".toList, given name)]
  | readOutside name path =>
    [("source_unit_name".toList, .str name), ("path".toList, .str path)]
  | readComplete name path size =>
    [("source_unit_name".toList, .str name), ("path".toList, .str path),
      ("bytes_in".toList, .int size)]
  | readFailed name fault =>
    [("source_unit_name".toList, .str name), ("error_type".toList, .str fault.kind)]
  | readUnexpected name fault =>
    [("source_unit_name".toList, given name), ("error_type".toList, .str fault.kind)]
  | logConfigured destination level json =>
    [("destination".toList, .str destination), ("log_level".toList, .str (Log.levelName level)),
      ("use_json".toList, .bool json)]
  | starting basePath includePaths allowed inputs =>
    [("base_path".toList, given basePath), ("include_paths".toList, .arr (includePaths.map given)),
      ("allowed_directories".toList, Json.ofTexts allowed),
      ("inputs".toList, Json.ofTexts inputs)]
  | invalidConfiguration fault => [("error_type".toList, .str fault.kind)]
  | inputFailed error =>
    [("error_type".toList, .str error.errno.kind), ("path".toList, Json.ofOption error.path)]

def fields (notice : Notice) : List (Text × Json) :=
  match notice.event? with
  | some event => ("event".toList, .str event) :: notice.details
  | none => notice.details

/-- The fault that a notice shows in full. -/
def fault? : Notice → Option Fault
  | readUnexpected _ fault => some fault
  | _ => none

end Notice

end SourceLoader
