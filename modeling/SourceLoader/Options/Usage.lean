import SourceLoader.Options.Settings
import SourceLoader.Text.Basic

/-!
Whole numbers as people write them: with blanks around, with a sign, with digits of any script and
with single underscores between the digits.

Text broken into lines. It is taken in pieces that stay whole, and a line takes pieces as long as
they end within a given number of columns. The first piece of a line is taken however long it is.

What the program prints about itself: how it is called, what its options are for, and why it refuses
a command line. The lines are broken to fit the screen, whose width the environment tells.
-/

namespace SourceLoader.Text

/-- Whether a character may stand around a number. The separators of ASCII are blank but may not. -/
def isGap (c : Char) : Bool := isBlank c && !(inRanges [(0x1c, 0x1f)] c.toNat)

def stripGaps (t : Text) : Text := ((t.dropWhile isGap).reverse.dropWhile isGap).reverse

def maxDigits : Nat := 4300

/-- The number that digits stand for when single underscores may part them. -/
def digits? (t : Text) : Option Nat :=
  let rows := t.splitOn '_'
  let digits := rows.flatten
  if rows.all areDigits ∧ digits.length ≤ maxDigits then
    some (digits.foldl (fun n c => 10 * n + (digitOf? c).getD 0) 0)
  else none

def whole? (t : Text) : Option Int :=
  match stripGaps t with
  | '-' :: rest => (digits? rest).map fun n => -(n : Int)
  | '+' :: rest => (digits? rest).map fun n => (n : Int)
  | rest => (digits? rest).map fun n => (n : Int)

/-! ## Lines -/

/-- A part of a text that no line break goes through. -/
structure Piece where
  text : Text
  /-- Whether a blank keeps it apart from the piece before it on the same line. -/
  spaced : Bool

namespace Piece

def continued (p : Piece) : Text := if p.spaced then ' ' :: p.text else p.text

/-- Whether a word can be parted behind a hyphen that stands between these two characters. -/
def mayPart (before after : Char) : Bool := before.isAlpha && after.isAlpha

def ofWord : Text → List Text
  | a :: '-' :: b :: rest =>
    if mayPart a b then [a, '-'] :: ofWord (b :: rest)
    else
      match ofWord ('-' :: b :: rest) with
      | [] => [[a]]
      | first :: others => (a :: first) :: others
  | c :: rest =>
    match ofWord rest with
    | [] => [[c]]
    | first :: others => (c :: first) :: others
  | [] => []
termination_by t => t.length

def ofText (t : Text) : List Piece :=
  ((t.splitOn ' ').map ofWord).flatMap fun
    | [] => []
    | first :: others => ⟨first, true⟩ :: others.map (⟨·, false⟩)

end Piece

/-- Goes on with a line that ends at a column. The next lines begin at the column `indent`. -/
def continueLine (width indent : Nat) (line : Text) (column : Nat) : List Piece → List Text
  | [] => [line]
  | p :: rest =>
    if column + p.continued.length ≤ width then
      continueLine width indent (line ++ p.continued) (column + p.continued.length) rest
    else line :: continueLine width indent p.text (indent + p.text.length) rest

/-- The lines for some pieces. The first line begins at the column `start`, the next ones at
`indent`; what stands before those columns is left out. -/
def wrap (width start indent : Nat) : List Piece → List Text
  | [] => []
  | p :: rest => continueLine width indent p.text (start + p.text.length) rest

end SourceLoader.Text

/-! ## Usage and help -/

namespace SourceLoader.Options

def defaultColumns : Nat := 80

def columns (env : Environment) : Nat :=
  match (env.lookup "COLUMNS".toList).bind Text.whole? with
  | some n => if 0 < n then n.toNat else defaultColumns
  | none => defaultColumns

def lineWidth (columns : Nat) : Nat := columns - 2

def blanks (n : Nat) : Text := List.replicate n ' '

def choiceName (choices : List Text) : Text := '\x7b' :: Text.join [','] choices ++ ['\x7d']

namespace Flag

def all : List Flag :=
  [.help, .basePath, .includePath, .allowPaths, .resolve, .logLevel, .logDestination, .logFormat]

def valuePart : Flag → Text
  | .help => []
  | .basePath => " BASE_PATH".toList
  | .includePath => " INCLUDE_PATHS".toList
  | .allowPaths => " ALLOW_PATHS".toList
  | .resolve => " RESOLVE".toList
  | .logLevel => ' ' :: choiceName levelChoices
  | .logDestination => " LOG_DESTINATION".toList
  | .logFormat => ' ' :: choiceName formatChoices

def purpose : Flag → Text
  | .help => "show this help message and exit".toList
  | .basePath => "Primary search root for imports and source unit names".toList
  | .includePath => "Additional search root, consulted in order after the base path".toList
  | .allowPaths => "Comma-separated list of directories imports may be read from".toList
  | .resolve => "Source unit name to read through the import callback".toList
  | .logLevel => []
  | .logDestination => "stderr (default), stdout or a file path".toList
  | .logFormat => []

def optionalPart (flag : Flag) : Text :=
  '[' :: flag.spelledAs.head?.getD [] ++ flag.valuePart ++ [']']

def listedPart (flag : Flag) : Text :=
  Text.join ", ".toList (flag.spelledAs.map (· ++ flag.valuePart))

end Flag

def programName : Text := "main.py".toList

def usageLead : Text := "usage: ".toList

/-- How the program is called, in lines of a width. The options stand behind the name of the program
if there is enough room, and below it otherwise; the inputs have lines of their own. -/
def usage (width : Nat) : Text :=
  let options := Flag.all.map Flag.optionalPart
  let inputs := "[inputs ...]".toList
  let whole := usageLead ++ Text.join [' '] (programName :: options ++ [inputs])
  let pieces (parts : List Text) : List Text.Piece := parts.map (⟨·, true⟩)
  let lead := usageLead.length
  if whole.length ≤ width then whole ++ ['\n']
  else
    let (indent, lines) :=
      if 4 * (lead + programName.length) ≤ 3 * width then
        let indent := lead + programName.length + 1
        (indent, Text.wrap width lead indent (pieces (programName :: options)) ++
          Text.wrap width indent indent (pieces [inputs]))
      else
        (lead, programName :: Text.wrap width lead lead (pieces options) ++
          Text.wrap width lead lead (pieces [inputs]))
    usageLead ++ Text.join ('\n' :: blanks indent) lines ++ ['\n']

def leastColumns : Nat := 11

def purposeColumn (width : Nat) : Nat := min 24 (max (width - 20) 4)

/-- What something is for, behind its name if that is short enough, and below it otherwise. -/
def item (width : Nat) (name purpose : Text) : Text :=
  let column := purposeColumn width
  let head := ' ' :: ' ' :: name
  let below (line : Text) : Text := '\n' :: blanks column ++ line
  match Text.wrap (max (width - column) leastColumns) 0 0 (Text.Piece.ofText purpose) with
  | [] => head ++ ['\n']
  | first :: others =>
    let first :=
      if head.length + 2 ≤ column then blanks (column - head.length) ++ first else below first
    head ++ first ++ others.flatMap below ++ ['\n']

def description : Text := "Sandboxed compiler source loader".toList

def help (columns : Nat) : Text :=
  let width := lineWidth columns
  usage width ++ '\n' ::
    Text.join ['\n'] (Text.wrap (max width leastColumns) 0 0 (Text.Piece.ofText description)) ++
    "\n\npositional arguments:\n".toList ++
    item width "inputs".toList "Source files to load; '-' reads standard input".toList ++
    "\noptions:\n".toList ++
    Flag.all.flatMap fun flag => item width flag.listedPart flag.purpose

def Refusal.report (columns : Nat) (refusal : Refusal) : Text :=
  usage (lineWidth columns) ++ programName ++ ": error: ".toList ++ refusal.message ++ ['\n']

end SourceLoader.Options
