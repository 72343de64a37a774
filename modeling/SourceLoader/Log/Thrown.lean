import SourceLoader.Fault
import SourceLoader.Json.Basic
import SourceLoader.Text.Unicode

/-!
Why a log record cannot be written. A field that a record brings along may hold a value that is
unfit for its place, a placeholder of the message may be malformed or go without its value, and the
calendar does not reach to every point in time.

Errors of foreign code that a record carries: a kind and what the error was made from, and the one
line by which a log shows it.
-/

namespace SourceLoader.Log

inductive Obstacle
  | secondsOutOfRange
  | yearOutOfRange
  | yearTooLarge
  | nulInTemplate
  /-- A request to the host carries a count of bytes that no file can have. -/
  | countTooLarge
  | notWhole (type : Text)
  | notSubscriptable (type : Text)
  | notCallable (type : Text)
  | notText (type : Text)
  | noAttribute (type name : Text)
  /-- A field that the text form shows is not there. -/
  | fieldMissing (name : Text)
  /-- The kind of a record was to become something that is no kind. -/
  | notKind (type : Text)
  /-- The fields of a record were to become something that is no object. -/
  | notFields (type : Text)
  | notWritable (type name : Text)
  | noSuchPlace (kind : Text)
  | noSuchKey (key : Text)
  | keyNotWhole
  | mappingRequired
  | keyUnclosed
  | placeholderUnclosed
  | widthTooBig
  | precisionTooBig
  | extentNotWhole
  | widthTooLarge
  | precisionTooLarge
  | tooFewArguments
  | unusedArguments
  | unknownLetter (letter : Char) (index : Nat)
  | numberRequired (letter : Char) (type : Text)
  | wholeRequired (letter : Char) (type : Text)
  | realRequired (type : Text)
  | characterRequired
  | noSuchCharacter
  | digitsTooMany
  | realTooLarge
  | noRoom
  deriving DecidableEq

namespace Obstacle

def kind : Obstacle → Text
  | .secondsOutOfRange | .yearTooLarge | .widthTooLarge | .precisionTooLarge | .noSuchCharacter
  | .digitsTooMany | .realTooLarge => "OverflowError".toList
  | .yearOutOfRange => "OSError".toList
  | .nulInTemplate | .countTooLarge | .keyUnclosed | .placeholderUnclosed | .widthTooBig
  | .precisionTooBig | .unknownLetter _ _ | .fieldMissing _ => "ValueError".toList
  | .noAttribute _ _ | .notWritable _ _ => "AttributeError".toList
  | .noSuchPlace _ => "IndexError".toList
  | .noSuchKey _ => "KeyError".toList
  | .noRoom => "MemoryError".toList
  | _ => "TypeError".toList

def shownLetter (c : Char) : Char := if '\x1f' ≤ c ∧ c ≤ '~' then c else '?'

def message : Obstacle → Text
  | .secondsOutOfRange => "timestamp out of range for platform time_t".toList
  | .yearOutOfRange => "[Errno 75] Value too large for defined data type".toList
  | .yearTooLarge => "signed integer is greater than maximum".toList
  | .nulInTemplate => "embedded null character".toList
  | .countTooLarge => "cannot fit 'int' into an index-sized integer".toList
  | .notWhole type => type.quoted ++ " object cannot be interpreted as an integer".toList
  | .notSubscriptable type => type.quoted ++ " object is not subscriptable".toList
  | .notCallable type => type.quoted ++ " object is not callable".toList
  | .notText type =>
    "can only concatenate str (not \"".toList ++ type ++ "\") to str".toList
  | .noAttribute type name => type.quoted ++ " object has no attribute ".toList ++ name.quoted
  | .fieldMissing name => "Formatting field not found in record: ".toList ++ name.quoted
  | .notKind type => "__class__ must be set to a class, not ".toList ++ type.quoted ++
    " object".toList
  | .notFields type => "__dict__ must be set to a dictionary, not a ".toList ++ type.quoted
  | .notWritable type name => "attribute ".toList ++ name.quoted ++ " of ".toList ++ type.quoted ++
    " objects is not writable".toList
  | .noSuchPlace kind => kind ++ " index out of range".toList
  | .noSuchKey key => key
  | .keyNotWhole => "list indices must be integers or slices, not str".toList
  | .mappingRequired => "format requires a mapping".toList
  | .keyUnclosed => "incomplete format key".toList
  | .placeholderUnclosed => "incomplete format".toList
  | .widthTooBig => "width too big".toList
  | .precisionTooBig => "precision too big".toList
  | .extentNotWhole => "* wants int".toList
  | .widthTooLarge => "Python int too large to convert to C ssize_t".toList
  | .precisionTooLarge => "Python int too large to convert to C int".toList
  | .tooFewArguments => "not enough arguments for format string".toList
  | .unusedArguments => "not all arguments converted during string formatting".toList
  | .unknownLetter letter index =>
    "unsupported format character '".toList ++ shownLetter letter :: "' (0x".toList ++
      Nat.toDigits 16 letter.toNat ++ ") at index ".toList ++ Text.ofNat index
  | .numberRequired letter type =>
    '%' :: letter :: " format: a real number is required, not ".toList ++ type
  | .wholeRequired letter type =>
    '%' :: letter :: " format: an integer is required, not ".toList ++ type
  | .realRequired type => "must be real number, not ".toList ++ type
  | .characterRequired => "%c requires int or char".toList
  | .noSuchCharacter => "%c arg not in range(0x110000)".toList
  | .digitsTooMany => "precision too large".toList
  | .realTooLarge => "int too large to convert to float".toList
  | .noRoom => []

end Obstacle

/-! ## Errors in a record -/

structure Thrown where
  kind : Text
  arguments : List Json

namespace Thrown

def parenthesized (values : List Json) : Text :=
  '(' :: Text.join [',', ' '] (values.map Json.literal) ++ [')']

/-- The wording of an error that says nothing special: nothing, its one argument, or all of them. -/
def plainMessage : List Json → Text
  | [] => []
  | [value] => value.display
  | values => parenthesized values

/-- The wording of a failed request to the host: number and text, then the path it was made for and
the second path, if there are any. -/
def osMessage (arguments : List Json) : Text :=
  let number (n text : Json) : Text :=
    "[Errno ".toList ++ n.display ++ "] ".toList ++ text.display
  match arguments with
  | [n, text] | [n, text, .null] | [n, text, .null, _] | [n, text, .null, _, _] => number n text
  | [n, text, path] | [n, text, path, _] | [n, text, path, _, .null] =>
    number n text ++ ": ".toList ++ path.literal
  | [n, text, path, _, other] =>
    number n text ++ ": ".toList ++ path.literal ++ " -> ".toList ++ other.literal
  | values => plainMessage values

def countLimit : Int := 9223372036854775808

/-- The arguments of a failed request, without a count of written bytes. A request that
would have to wait may carry one in the place of the path. -/
def osArguments (arguments : List Json) : Except Obstacle (List Json) :=
  match arguments with
  | number :: text :: count :: rest =>
    if rest.length ≤ 2 ∧ number.number?.any Errno.wouldWait then
      match count.number? with
      | some n =>
        if n < -countLimit ∨ countLimit ≤ n then .error .countTooLarge else .ok [number, text]
      | none => .ok arguments
    else .ok arguments
  | _ => .ok arguments

def osKind (kind : Text) : List Json → Text
  | number :: rest =>
    match number.number? with
    | some n => if 1 ≤ rest.length ∧ rest.length ≤ 4 then Errno.kindOfNumber n else kind
    | none => kind
  | [] => kind

def line (kind message : Text) : Text :=
  if message = [] then kind else kind ++ ": ".toList ++ message

/-- The error in one line. Violations tell where their kind belongs. -/
def summary (t : Thrown) : Except Obstacle Text :=
  if t.kind = "OSError".toList then do
    let arguments ← osArguments t.arguments
    return line (osKind t.kind arguments) (osMessage arguments)
  else if t.kind = "VfsInvariantError".toList then
    .ok (line ("sourcevfs.domain.errors.".toList ++ t.kind) (plainMessage t.arguments))
  else
    match t.arguments with
    | [value] =>
      .ok (line t.kind (if t.kind = "KeyError".toList then value.literal else value.display))
    | arguments => .ok (line t.kind (plainMessage arguments))

/-- What a log shows for a value in the place of an error: nothing for a value that counts as none.
Others are asked for the place of the error, which only a list can have, and then for the error
itself, which is no value. -/
def summaryOfValue (value : Json) : Except Obstacle (Option Text) :=
  let traced (place : Json) : Except Obstacle (Option Text) :=
    .error (.noAttribute place.typeName "tb_frame".toList)
  if value.isNone then .ok none
  else
    match value with
    | .str (_ :: _ :: c :: _) => traced (.str [c])
    | .str _ => .error (.noSuchPlace "string".toList)
    | .arr (_ :: .null :: .null :: _) => .ok (some (line Json.null.typeName Json.null.display))
    | .arr (_ :: error :: .null :: _) =>
      .error (.noAttribute error.typeName "__suppress_context__".toList)
    | .arr (_ :: _ :: place :: _) => traced place
    | .arr _ => .error (.noSuchPlace "list".toList)
    | .obj _ => .error (.noSuchKey ['2'])
    | value => .error (.notSubscriptable value.typeName)

end Thrown

end SourceLoader.Log
