import SourceLoader.Json.Basic
import SourceLoader.Log.Thrown
import SourceLoader.Text.Basic
import SourceLoader.Text.Unicode

/-!
Points in time, counted in seconds from the start of 1970, as dates of the Gregorian calendar and
times of day, in universal time.

Templates by which points in time are written. A field begins with `%`; flags, a width and a
modifier may stand between that and the letter that names it. A letter that names no field, or not
with this modifier, leaves what was written in its place, and that is filled up to the width too.

The points in time that a record can show, and how it shows them. The clock counts seconds in 64
bits and years, from 1900 on, in 32.
-/

namespace SourceLoader.Log

def secondsPerDay : Int := 86400

/-- The days of 400 years, after which the calendar repeats. -/
def daysPerEra : Int := 146097

/-- The days from the first of March of the year 0 to the start of 1970. -/
def daysBefore1970 : Int := 719468

structure Date where
  year : Int
  month : Nat
  day : Nat
  deriving DecidableEq

/-- The date that lies `days` days after the first of March of the year 0. Years are counted from
March on, so that the leap day comes last. -/
def Date.ofMarchDays (days : Int) : Date :=
  let era := days.fdiv daysPerEra
  let dayOfEra := (days.fmod daysPerEra).toNat
  let yearOfEra := (dayOfEra - dayOfEra / 1460 + dayOfEra / 36524 - dayOfEra / 146096) / 365
  let dayOfYear := dayOfEra - (365 * yearOfEra + yearOfEra / 4 - yearOfEra / 100)
  let monthFromMarch := (5 * dayOfYear + 2) / 153
  let day := dayOfYear - (153 * monthFromMarch + 2) / 5 + 1
  let month := if monthFromMarch < 10 then monthFromMarch + 3 else monthFromMarch - 9
  { year := yearOfEra + era * 400 + if month ≤ 2 then 1 else 0
    month := month
    day := day }

def Date.ofDays (days : Int) : Date := Date.ofMarchDays (days + daysBefore1970)

def Date.isLeapYear (date : Date) : Bool :=
  date.year.fmod 4 = 0 && (date.year.fmod 100 ≠ 0 || date.year.fmod 400 = 0)

def daysBeforeMonth : List Nat := [0, 31, 59, 90, 120, 151, 181, 212, 243, 273, 304, 334]

def Date.dayOfYear (date : Date) : Nat :=
  daysBeforeMonth.getD (date.month - 1) 0 + date.day +
    if 2 < date.month ∧ date.isLeapYear then 1 else 0

structure Instant where
  /-- The days since the first one of 1970. -/
  days : Int
  seconds : Nat
  deriving DecidableEq

namespace Instant

/-- The point in universal time that so many seconds since the start of 1970 lead to. -/
def ofSeconds (seconds : Int) : Instant :=
  ⟨seconds.fdiv secondsPerDay, (seconds.fmod secondsPerDay).toNat⟩

def date (t : Instant) : Date := Date.ofDays t.days

def hour (t : Instant) : Nat := t.seconds / 3600

def minute (t : Instant) : Nat := t.seconds / 60 % 60

def second (t : Instant) : Nat := t.seconds % 60

def faceHour (t : Instant) : Nat := if t.hour % 12 = 0 then 12 else t.hour % 12

def weekday (t : Instant) : Nat := ((t.days + 4).fmod 7).toNat

def weekdayFromMonday (t : Instant) : Nat := (t.weekday + 6) % 7

/-- The Thursday of the same week, by which the week belongs to a year. -/
def thursday (t : Instant) : Date := Date.ofDays (t.days - t.weekdayFromMonday + 3)

def weekdayNames : List Text :=
  ["Sunday".toList, "Monday".toList, "Tuesday".toList, "Wednesday".toList, "Thursday".toList,
    "Friday".toList, "Saturday".toList]

def monthNames : List Text :=
  ["January".toList, "February".toList, "March".toList, "April".toList, "May".toList,
    "June".toList, "July".toList, "August".toList, "September".toList, "October".toList,
    "November".toList, "December".toList]

def weekdayName (t : Instant) : Text := weekdayNames.getD t.weekday []

def monthName (t : Instant) : Text := monthNames.getD (t.date.month - 1) []

/-- The number of the week in its year, where weeks begin on Sunday and the days before the first
Sunday belong to week zero. -/
def weekFromSunday (t : Instant) : Nat := (t.date.dayOfYear + 6 - t.weekday) / 7

def weekFromMonday (t : Instant) : Nat := (t.date.dayOfYear + 6 - t.weekdayFromMonday) / 7

/-- The number of the week in the year that its Thursday belongs to, from one. -/
def weekOfThursday (t : Instant) : Nat := (t.thursday.dayOfYear - 1) / 7 + 1

def toSeconds (t : Instant) : Int := t.days * secondsPerDay + t.seconds

theorem toSeconds_ofSeconds (seconds : Int) : (ofSeconds seconds).toSeconds = seconds := by
  have h := Int.fmod_nonneg_of_pos seconds (b := secondsPerDay) (by decide)
  simp only [ofSeconds, toSeconds, Int.toNat_of_nonneg h]
  have := Int.mul_fdiv_add_fmod seconds secondsPerDay
  rw [Int.mul_comm] at this
  exact this

end Instant

/-! ## Templates -/

inductive Filler
  | zeros
  | blanks
  | nothing
  deriving DecidableEq

/-- A field as it is written behind its `%`. -/
structure Field where
  flags : Text
  digits : Text
  modifier : Option Char
  /-- There is none at the end of the template. -/
  letter : Option Char

inductive FieldValue
  /-- A number of at least so many places, with zeros in the free ones. -/
  | number (places : Nat) (value : Int)
  | aligned (places : Nat) (value : Int)
  | count (value : Int)
  /-- The distance from universal time, which is always zero. -/
  | offset
  | name (text : Text)
  | capitals (upper lower : Text)
  | fixed (text : Text)

namespace Field

def isFlag (c : Char) : Bool := c = '_' || c = '-' || c = '0' || c = '^' || c = '#'

def readModifier : Text → Option Char × Text
  | 'E' :: rest => (some 'E', rest)
  | 'O' :: rest => (some 'O', rest)
  | rest => (none, rest)

def read (t : Text) : Field × Text :=
  let afterFlags := t.dropWhile isFlag
  let (modifier, rest) := readModifier (afterFlags.dropWhile Text.isDigit)
  (⟨t.takeWhile isFlag, afterFlags.takeWhile Text.isDigit, modifier, rest.head?⟩, rest.tail)

def source (f : Field) : Text :=
  '%' :: f.flags ++ f.digits ++ f.modifier.toList ++ f.letter.toList

theorem source_append_snd_read (t : Text) : (read t).1.source ++ (read t).2 = '%' :: t := by
  have modified (s : Text) :
      (readModifier s).1.toList ++ ((readModifier s).2.head?.toList ++ (readModifier s).2.tail) =
        s := by
    have split (s : Text) : s.head?.toList ++ s.tail = s := by cases s <;> rfl
    rw [split]
    fun_cases readModifier s <;> rfl
  simp [read, source, modified, List.takeWhile_append_dropWhile]

theorem length_snd_read_le (t : Text) : (read t).2.length ≤ t.length := by
  have h := congrArg List.length (source_append_snd_read t)
  simp only [List.length_append, List.length_cons, source] at h
  omega

/-- The filler that the last flag about it asks for. -/
def filler? (f : Field) : Option Filler :=
  f.flags.reverse.findSome? fun
    | '0' => some .zeros
    | '_' => some .blanks
    | '-' => some .nothing
    | _ => none

def width (f : Field) : Nat := Text.digitsValue f.digits

def isRaised (f : Field) : Bool := '^' ∈ f.flags

def isSwapped (f : Field) : Bool := '#' ∈ f.flags

/-- The letters that do not go with a modifier. -/
def refusedBy : (modifier : Char) → Text
  | 'E' => "%aADFbhBdeHIkljmMSUVgGWw".toList
  | _ => "%aADFcxXY".toList

def admits (f : Field) (letter : Char) : Bool :=
  match f.modifier with
  | none => true
  | some modifier => letter ∉ refusedBy modifier

def raise (f : Field) (text : Text) : Text :=
  if f.isRaised then text.map Text.upperChar else text

def fillUp (f : Field) (text : Text) : Text :=
  Text.padLeft (if f.filler? = some .zeros then '0' else ' ') f.width text

/-- A number with so many places, or more if the width asks for them. -/
def number (f : Field) (filler : Option Filler) (places : Nat) (value : Int) : Text :=
  match filler with
  | some .nothing => f.fillUp (Text.ofInt value)
  | some .blanks => Text.padLeft ' ' (max places f.width) (Text.ofInt value)
  | _ => Text.zeroFilled (max places f.width) value

def write (f : Field) : FieldValue → Text
  | .number places value => f.number f.filler? places value
  | .aligned places value => f.number (f.filler?.getD .blanks) places value
  | .count value => f.fillUp (Text.ofInt value)
  | .offset => f.fillUp ['+'] ++ f.number f.filler? 4 0
  | .name text =>
    f.fillUp (if f.isRaised || f.isSwapped then text.map Text.upperChar else text)
  | .capitals upper lower => f.fillUp (if f.isSwapped then lower else upper)
  | .fixed text => f.fillUp text

def stray (f : Field) : Text := f.fillUp (f.raise f.source)

/-- The text of a field whose letter does not go with its modifier. A `%` stands alone, and a flag
that puts the short name of a month into upper case works on what was written for it. -/
def refused (f : Field) (letter : Char) : Text :=
  if letter = '%' then f.fillUp ['%']
  else if f.isSwapped ∧ (letter = 'b' ∨ letter = 'h') then f.fillUp (f.source.map Text.upperChar)
  else f.stray

end Field

inductive Template.Piece
  | char (c : Char)
  | field (f : Field)

/-- A template in pieces: characters that stand for themselves, and fields. -/
abbrev Template := List Template.Piece

def Template.ofText : Text → Template
  | [] => []
  | c :: rest =>
    if c = '%' then .field (Field.read rest).1 :: ofText (Field.read rest).2
    else .char c :: ofText rest
termination_by t => t.length
decreasing_by
  · have := Field.length_snd_read_le rest
    simp only [List.length_cons]
    omega
  · simp

namespace Instant

/-- The year that the week belongs to, as a number of 32 bits. -/
def weekYear (t : Instant) : Int := t.thursday.year.bmod 4294967296

def value? (t : Instant) : Char → Option FieldValue
  | 'Y' => some (.number 1 t.date.year)
  | 'C' => some (.number 1 (t.date.year.fdiv 100))
  | 'y' => some (.number 2 (t.date.year.fmod 100))
  | 'm' => some (.number 2 t.date.month)
  | 'B' => some (.name t.monthName)
  | 'b' | 'h' => some (.name (t.monthName.take 3))
  | 'd' => some (.number 2 t.date.day)
  | 'e' => some (.aligned 2 t.date.day)
  | 'j' => some (.number 3 t.date.dayOfYear)
  | 'H' => some (.number 2 t.hour)
  | 'k' => some (.aligned 2 t.hour)
  | 'I' => some (.number 2 t.faceHour)
  | 'l' => some (.aligned 2 t.faceHour)
  | 'p' =>
    some (if t.hour < 12 then .capitals "AM".toList "am".toList
      else .capitals "PM".toList "pm".toList)
  | 'P' => some (.fixed (if t.hour < 12 then "am".toList else "pm".toList))
  | 'M' => some (.number 2 t.minute)
  | 'S' => some (.number 2 t.second)
  | 's' => some (.count t.toSeconds)
  | 'A' => some (.name t.weekdayName)
  | 'a' => some (.name (t.weekdayName.take 3))
  | 'w' => some (.number 1 t.weekday)
  | 'u' => some (.number 1 (t.weekdayFromMonday + 1))
  | 'U' => some (.number 2 t.weekFromSunday)
  | 'W' => some (.number 2 t.weekFromMonday)
  | 'V' => some (.number 2 t.weekOfThursday)
  | 'G' => some (.number 1 t.weekYear)
  | 'g' => some (.number 2 (t.weekYear.fmod 100))
  | 'z' => some .offset
  | 'Z' => some (.capitals "UTC".toList "utc".toList)
  | 'n' => some (.fixed ['\n'])
  | 't' => some (.fixed ['\t'])
  | '%' => some (.fixed ['%'])
  | _ => none

/-- The template that a letter stands for when it names several fields at once. -/
def compound? : Char → Option Text
  | 'c' => some "%a %b %e %H:%M:%S %Y".toList
  | 'D' | 'x' => some "%m/%d/%y".toList
  | 'F' => some "%Y-%m-%d".toList
  | 'r' => some "%I:%M:%S %p".toList
  | 'R' => some "%H:%M".toList
  | 'T' | 'X' => some "%H:%M:%S".toList
  | _ => none

def plainField (t : Instant) (letter : Char) : Text :=
  match t.value? letter with
  | some value => (Field.mk [] [] none (some letter)).write value
  | none => []

def fillPlain (t : Instant) : (template : Text) → Text
  | '%' :: letter :: rest => t.plainField letter ++ t.fillPlain rest
  | c :: rest => c :: t.fillPlain rest
  | [] => []

def fillField (t : Instant) (f : Field) : Text :=
  match f.letter with
  | none => f.stray
  | some letter =>
    if ¬ f.admits letter then f.refused letter
    else
      match compound? letter, t.value? letter with
      | some template, _ => f.fillUp (f.raise (t.fillPlain template))
      | none, some value => f.write value
      | none, none => f.stray

/-- The text of the pieces, if it stays shorter than `room`. -/
def fillPieces (t : Instant) (room : Nat) : Template → Option Text
  | [] => some []
  | .char c :: rest => if room ≤ 1 then none else (c :: ·) <$> t.fillPieces (room - 1) rest
  | .field f :: rest =>
    if room ≤ f.width then none
    else
      let text := t.fillField f
      if room ≤ text.length then none
      else (text ++ ·) <$> t.fillPieces (room - text.length) rest

/-- The length that a text by this template must stay below: 256 characters for each one of the
template, rounded up to a power of two, and at least 1024. -/
def room (template : Text) : Nat := 256 * (max 4 template.length).nextPowerOfTwo

/-- The instant as a template writes it. A text that takes too much room is not written at all. -/
def fill (t : Instant) (template : Text) : Text :=
  (t.fillPieces (room template) (Template.ofText template)).getD []

end Instant

/-! ## The clock -/

/-- The number of seconds from the start of 1970 on that a clock can count to, and back to. -/
def secondsLimit : Int := 9223372036854775808

/-- The number of years from 1900 on that a clock can count to, and back to. -/
def yearLimit : Int := 2147483648

def instantOf (seconds : Int) : Except Obstacle Instant :=
  let t := Instant.ofSeconds seconds
  let year := t.date.year - 1900
  if seconds < -secondsLimit ∨ secondsLimit ≤ seconds then .error .secondsOutOfRange
  else if year < -yearLimit ∨ yearLimit ≤ year then .error .yearOutOfRange
  else .ok t

/-- A point in time by a template. The year that is written is bounded again. -/
def writeInstant (template : Text) (t : Instant) : Except Obstacle Text :=
  if yearLimit ≤ t.date.year then .error .yearTooLarge
  else if '\x00' ∈ template then .error .nulInTemplate
  else .ok (t.fill template)

def dateTemplate : Text := "%Y-%m-%d %H:%M:%S".toList

def writeMilliseconds (milliseconds : Json) : Except Obstacle Text :=
  match milliseconds.number? with
  | some n => .ok (Text.zeroFilled 3 n)
  | none => .error (.numberRequired 'd' milliseconds.typeName)

/-- A point in time as a log shows it: by a template, or without one by the usual one and the
milliseconds, which are asked for only then. It is universal time; no other time zone is known. -/
def timestamp (template : Option Text) (seconds : Int) (milliseconds : Except Obstacle Json) :
    Except Obstacle Text := do
  let t ← instantOf seconds
  match template with
  | none | some [] =>
    let date ← writeInstant dateTemplate t
    return date ++ ',' :: (← milliseconds >>= writeMilliseconds)
  | some template => writeInstant template t

end SourceLoader.Log
