import SourceLoader.Text.Basic
import SourceLoader.Text.Unicode

/-!
The options of the command line, how they are spelled, and the wording of every refusal.

The words of a command line, sorted into options and values. An option may be shortened as long as
only one option begins that way, and may carry its value behind an equals sign. A word that looks
like a negative number or holds a space is a value even if it begins with a dash, and behind `--`
every word is one.
-/

namespace SourceLoader.Options

inductive Flag
  | help
  | basePath
  | includePath
  | allowPaths
  | resolve
  | logLevel
  | logDestination
  | logFormat
  deriving DecidableEq

def spellings : List (Text × Flag) :=
  [("-h".toList, .help), ("--help".toList, .help), ("--base-path".toList, .basePath),
    ("--include-path".toList, .includePath), ("--allow-paths".toList, .allowPaths),
    ("--resolve".toList, .resolve), ("--log-level".toList, .logLevel),
    ("--log-destination".toList, .logDestination), ("--log-format".toList, .logFormat)]

def Flag.spelledAs (flag : Flag) : List Text := (spellings.filter (·.2 = flag)).map Prod.fst

def Flag.title (flag : Flag) : Text := Text.join ['/'] flag.spelledAs

def levelChoices : List Text :=
  ["DEBUG".toList, "INFO".toList, "WARNING".toList, "ERROR".toList, "CRITICAL".toList]

def formatChoices : List Text := ["json".toList, "text".toList]

inductive Refusal
  | ambiguous (word : Text) (candidates : List Text)
  | missingValue (flag : Flag)
  | unusedValue (flag : Flag) (value : Text)
  | badChoice (flag : Flag) (value : Text) (choices : List Text)
  | unrecognized (words : List Text)
  deriving DecidableEq

def Refusal.message : Refusal → Text
  | .ambiguous word candidates =>
    "ambiguous option: ".toList ++ word ++ " could match ".toList ++
      Text.join ", ".toList candidates
  | .missingValue flag => "argument ".toList ++ flag.title ++ ": expected one argument".toList
  | .unusedValue flag value =>
    "argument ".toList ++ flag.title ++ ": ignored explicit argument ".toList ++ value.quoted
  | .badChoice flag value choices =>
    "argument ".toList ++ flag.title ++ ": invalid choice: ".toList ++ value.quoted ++
      " (choose from ".toList ++ Text.join ", ".toList (choices.map Text.quoted) ++ [')']
  | .unrecognized words => "unrecognized arguments: ".toList ++ Text.join [' '] words

/-! ## Words -/

inductive Word
  | value (text : Text)
  /-- The `--` behind which every word is a value. -/
  | terminator
  /-- An option, with the text behind its equals sign if there is one. -/
  | option (flag : Flag) (explicit : Option Text)
  | unknown (text : Text)
  deriving DecidableEq

def terminatorText : Text := ['-', '-']

/-- A word that looks like a negative number. A line feed may stand at its end. -/
def looksNegative (word : Text) : Bool :=
  match word with
  | '-' :: number =>
    let number := if number.getLast? = some '\n' then number.dropLast else number
    match Text.cut '.' number with
    | (whole, none) => Text.areDigits whole
    | (whole, some fraction) => whole.all Text.isDecimalDigit && Text.areDigits fraction
  | _ => false

/-- The text behind `-h`: more letters `h` change nothing, anything else has no use. -/
def helpTail : Text → Option Text
  | [] => none
  | 'h' :: rest => helpTail rest
  | tail => some tail

/-- An option met under one of its spellings. Only `-h` can be followed by more letters. -/
def ofSpelling (spelling : Text) (flag : Flag) (explicit : Option Text) : Word :=
  match explicit with
  | some (c :: tail) =>
    if spelling = "-h".toList then .option flag (helpTail (c :: tail))
    else .option flag explicit
  | _ => .option flag explicit

/-- The options that a word could mean, with the text that it gives to each. A word with one dash
is a shortened option or `-h` with more letters behind it. -/
def candidates (word : Text) : List (Text × Flag × Option Text) :=
  if terminatorText.isPrefixOf word then
    let (lead, explicit) := Text.cut '=' word
    spellings.filterMap fun s =>
      if lead.isPrefixOf s.1 then some (s.1, s.2, explicit) else none
  else
    spellings.filterMap fun s =>
      if s.1 = word.take 2 then some (s.1, s.2, some (word.drop 2))
      else if word.isPrefixOf s.1 then some (s.1, s.2, none)
      else none

def ofCandidates (word : Text) : Except Refusal Word :=
  match candidates word with
  | [] =>
    .ok (if looksNegative word ∨ ' ' ∈ word then .value word else .unknown word)
  | [(spelling, flag, explicit)] => .ok (ofSpelling spelling flag explicit)
  | several => .error (.ambiguous word (several.map Prod.fst))

def classify (word : Text) : Except Refusal Word :=
  match word with
  | '-' :: _ :: _ =>
    match spellings.lookup word with
    | some flag => .ok (.option flag none)
    | none =>
      match Text.cut '=' word with
      | (lead, some explicit) =>
        match spellings.lookup lead with
        | some flag => .ok (ofSpelling lead flag (some explicit))
        | none => ofCandidates word
      | (_, none) => ofCandidates word
  | _ => .ok (.value word)

def classifyAll : List Text → Except Refusal (List Word)
  | [] => .ok []
  | word :: rest =>
    if word = terminatorText then .ok (.terminator :: rest.map .value)
    else do
      let first ← classify word
      let others ← classifyAll rest
      return first :: others

end SourceLoader.Options
