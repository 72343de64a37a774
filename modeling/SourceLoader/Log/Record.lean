import SourceLoader.Json.Basic
import SourceLoader.Log.Clock
import SourceLoader.Log.Message
import SourceLoader.Log.Thrown
import SourceLoader.Notice

/-!
Log records and their two written forms, a JSON object and a plain line. A field that comes with a
record takes the place of the record's own value of that name, and where it is unfit for that place
the record cannot be written.

Compilation runs. Runs nest, and what is logged belongs to the innermost run that is open. A run
that is entered without an id takes a fresh one; ids are handed out by counting.
-/

namespace SourceLoader.Log

structure Record where
  logger : Text
  level : Int
  message : Text
  fields : List (Text × Json)
  exception : Option Text
  seconds : Int
  milliseconds : Int
  /-- Whether the fields stand for everything that the record had of its own. -/
  bare : Bool

def noRun : Text := ['-']

def projectLead : Text := "sourcevfs.".toList

def componentName (logger : Text) : Text := (Text.after? projectLead logger).getD logger

/-- The name of the logger that one asks for by `name`. The empty name asks for the one at the root,
which has a name of its own. -/
def loggerName (name : Text) : Text := if name = [] then "root".toList else name

def withComponent (logger : Text) (fields : List (Text × Json)) : List (Text × Json) :=
  ("component".toList, .str (componentName (loggerName logger))) ::
    fields.filter (·.1 ≠ "component".toList)

namespace Record

def kindName : Text := "LogRecord".toList

/-- The field of this name, or what the record has of its own if it brought none. -/
def value (r : Record) (name : Text) (own : α) (ofField : Json → Except Obstacle α) :
    Except Obstacle α :=
  match r.fields.lookup name with
  | some value => ofField value
  | none => if r.bare then .error (.noAttribute kindName name) else .ok own

/-- Sets a field of a record. Three names are special: nothing can become the kind of a record, its
place in memory is fixed, and an object set as all of its fields replaces what it had. -/
def assign (r : Record) (field : Text × Json) : Except Obstacle Record :=
  if field.1 = "__class__".toList then .error (.notKind field.2.typeName)
  else if field.1 = "__weakref__".toList then .error (.notWritable kindName field.1)
  else if field.1 = "__dict__".toList then
    match field.2 with
    | .obj members => .ok { r with fields := members, bare := true }
    | value => .error (.notFields value.typeName)
  else .ok { r with fields := r.fields.filter (·.1 ≠ field.1) ++ [field] }

/-- The record with the run that is open at this moment, unless it brought one. -/
def stamp (run : Text) (r : Record) : Record :=
  match r.fields.lookup "run_id".toList with
  | some _ => r
  | none => { r with fields := r.fields ++ [("run_id".toList, .str run)] }

/-- The point in time that a field stands for; null leaves it to the clock. -/
def secondsOf (clock : Int) : Json → Except Obstacle Int
  | .null => .ok clock
  | value =>
    match value.number? with
    | some seconds => .ok seconds
    | none => .error (.notWhole value.typeName)

def time (template : Option Text) (r : Record) : Except Obstacle Text := do
  let seconds ← r.value "created".toList r.seconds (secondsOf r.seconds)
  timestamp template seconds (r.value "msecs".toList (.int r.milliseconds) .ok)

def messageText (r : Record) : Except Obstacle CodePoints :=
  match r.fields.lookup "getMessage".toList with
  | some value => .error (.notCallable value.typeName)
  | none => do
    let message ← r.value "msg".toList r.message fun value => .ok value.display
    let arguments ← r.value "args".toList .null .ok
    if arguments.isNone then return CodePoints.ofText message else fillMessage message arguments

def exceptionText (r : Record) : Except Obstacle (Option Text) :=
  r.value "exc_info".toList r.exception Thrown.summaryOfValue

def levelValue (r : Record) : Except Obstacle Json :=
  r.value "levelname".toList (.str (levelName r.level)) .ok

def fieldOr (r : Record) (name : Text) (default : Text) : Json :=
  (r.fields.lookup name).getD (.str default)

def shownFields : List Text :=
  ["event".toList, "source_unit_name".toList, "path".toList, "base_path".toList,
    "include_paths".toList, "allowed_directories".toList, "source_count".toList,
    "bytes_in".toList, "error_type".toList, "inputs".toList, "destination".toList,
    "log_level".toList, "use_json".toList]

/-- The members of the JSON form apart from the message. -/
def details (r : Record) (time : Text) (level : Json) (exception : Option Text) :
    List (Text × Json) :=
  [("timestamp".toList, .str time), ("level".toList, level),
    ("run_id".toList, r.fieldOr "run_id".toList noRun),
    ("component".toList, r.fieldOr "component".toList "unknown".toList)] ++
  (shownFields.filterMap fun name => (r.fields.lookup name).map (name, ·)) ++
  match exception with
  | some exception => [("exception".toList, .str exception)]
  | none => []

def jsonLine (template : Option Text) (r : Record) : Except Obstacle Text := do
  let time ← r.time template
  let level ← r.levelValue
  let message ← r.messageText
  let exception ← r.exceptionText
  return Json.renderObject <|
    ("message".toList, Json.renderCodes message) ::
      Json.renderMembers (r.details time level exception)

theorem jsonLine_of_messageText {template : Option Text} {r : Record} {time message : Text}
    {level : Json} {exception : Option Text} (ht : r.time template = .ok time)
    (hl : r.levelValue = .ok level) (hm : r.messageText = .ok (CodePoints.ofText message))
    (he : r.exceptionText = .ok exception) :
    let members := ("message".toList, .str message) :: r.details time level exception
    r.jsonLine template = .ok (Json.obj members).render := by
  simp [jsonLine, ht, hl, hm, he, Json.render, Json.renderMembers, bind, Except.bind, pure,
    Except.pure]

/-- The text with a further part on a line of its own. A part that counts as none is left out. -/
def addPart (line : CodePoints) (part : Json) : Except Obstacle CodePoints :=
  if part.isNone then .ok line
  else
    match part with
    | .str part =>
      let feed := '\n'.toNat
      .ok (line ++ (if line.getLast? = some feed then [] else [feed]) ++ CodePoints.ofText part)
    | part => .error (.notText part.typeName)

/-- The text that stands for what was thrown: that of a field of its own, or the line for it. -/
def exceptionPart (r : Record) : Except Obstacle Json := do
  r.value "exc_info".toList () fun _ => .ok ()
  let own ← r.value "exc_text".toList .null .ok
  if own.isNone then Json.ofOption <$> r.exceptionText else return own

def shown (r : Record) (name : Text) (own : Option Text) : Except Obstacle Text :=
  match r.fields.lookup name, own, r.bare with
  | some value, _, _ => .ok value.display
  | none, some own, false => .ok own
  | none, _, _ => .error (.fieldMissing name)

def plainLine (template : Option Text) (r : Record) : Except Obstacle CodePoints := do
  let message ← r.messageText
  let time ← r.time template
  let level ← r.shown "levelname".toList (some (levelName r.level))
  let run ← r.shown "run_id".toList none
  let name ← r.shown "name".toList (some r.logger)
  let head := time ++ ' ' :: level ++ ' ' :: '[' :: run ++ ']' :: ' ' :: name ++ " :: ".toList
  let line ← addPart (CodePoints.ofText head ++ message) (← r.exceptionPart)
  addPart line (← r.value "stack_info".toList .null .ok)

end Record

/-- The record of a notice at this time. Of a fault that was not expected it keeps the one line with
kind and wording; the trace of calls that a log may show above that line is left out. -/
def ofNotice (seconds : Int) (notice : Notice) : Record :=
  { logger := notice.logger
    level := notice.level
    message := notice.message
    fields := withComponent notice.logger notice.fields
    exception := notice.fault?.map Fault.summary
    seconds := seconds
    milliseconds := 0
    bare := false }

def reservedNames : List Text :=
  ["message".toList, "asctime".toList, "name".toList, "msg".toList, "args".toList,
    "levelname".toList, "levelno".toList, "pathname".toList, "filename".toList, "module".toList,
    "exc_info".toList, "exc_text".toList, "stack_info".toList, "lineno".toList, "funcName".toList,
    "created".toList, "msecs".toList, "relativeCreated".toList, "thread".toList,
    "threadName".toList, "processName".toList, "process".toList]

/-- The record of a free-form log call. The first field with a reserved name is refused. -/
def ofCall (logger : Text) (level : Int) (message : Text) (fields : List (Text × Json))
    (seconds : Int) : Except Fault Record :=
  match fields.find? (·.1 ∈ reservedNames) with
  | some field => .error (.reservedField field.1)
  | none =>
    .ok
      { logger := logger
        level := level
        message := message
        fields := withComponent logger fields
        exception := none
        seconds := seconds
        milliseconds := 0
        bare := false }

end SourceLoader.Log

/-! ## Runs -/

namespace SourceLoader

structure Runs where
  /-- The ids of the runs that are open, the innermost first. -/
  stack : List Text
  issued : Nat
  deriving DecidableEq

namespace Runs

def none : Runs := ⟨[], 0⟩

/-- The `n`-th id, 32 hexadecimal digits long. -/
def idOf (n : Nat) : Text := Text.padded 16 32 n

def newId (r : Runs) : Text × Runs := (idOf (r.issued + 1), { r with issued := r.issued + 1 })

/-- Enters a run. An empty id counts as none. -/
def enter (r : Runs) (id? : Option Text) : Runs :=
  match id? with
  | some (c :: id) => { r with stack := (c :: id) :: r.stack }
  | _ =>
    let (id, r) := r.newId
    { r with stack := id :: r.stack }

/-- Leaves the innermost run, whether by an error or not. -/
def leave (r : Runs) : Runs := { r with stack := r.stack.tail }

def current (r : Runs) : Text := r.stack.headD Log.noRun

@[simp] theorem leave_enter_stack (r : Runs) (id? : Option Text) :
    (r.enter id?).leave.stack = r.stack := by
  unfold enter
  split <;> rfl

end Runs

end SourceLoader
