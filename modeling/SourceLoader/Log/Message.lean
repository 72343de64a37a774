import SourceLoader.Json.Basic
import SourceLoader.Log.Thrown
import SourceLoader.Text.Basic

/-!
Numbers as the placeholders of a message show them: whole ones in three bases, with a decimal point
and with an exponent. A layout fills the result up to a width, on either side.

Messages with placeholders, and the value that is put into them. A placeholder begins with `%`; it
shows the value as a whole, or the member that it names between parentheses. Flags, a width and a
precision may follow, and a letter tells the form. Two `%` in a row stand for one.
-/

namespace SourceLoader.Log

structure Layout where
  flags : Text
  width : Nat
  precision : Option Nat
  /-- Whether the text stands to the left of what fills it up. -/
  left : Bool

namespace Layout

/-- Whether a flag asks for the marked form of a number. -/
def marked (l : Layout) : Bool := '#' ∈ l.flags

def word (l : Layout) (blank : α) (text : List α) : List α :=
  let gap := List.replicate (l.width - text.length) blank
  if l.left then text ++ gap else gap ++ text

def sign (l : Layout) (negative : Bool) : Text :=
  if negative then ['-']
  else if '+' ∈ l.flags then ['+']
  else if ' ' ∈ l.flags then [' ']
  else []

/-- A number by its sign, the mark of its base and its digits. Zeros stand behind the mark, blanks
before the sign. -/
def number (l : Layout) (negative : Bool) (mark digits : Text) : Text :=
  let head := l.sign negative ++ mark
  let gap := l.width - (head.length + digits.length)
  if l.left then head ++ digits ++ List.replicate gap ' '
  else if '0' ∈ l.flags then head ++ List.replicate gap '0' ++ digits
  else List.replicate gap ' ' ++ head ++ digits

def digits (l : Layout) (base n : Nat) : Text := Text.padded base (l.precision.getD 0) n

/-- A point and the places behind it. Without places the point is a matter of the flags. -/
def fraction (l : Layout) (places : Text) : Text :=
  if places = [] ∧ ¬ l.marked then [] else '.' :: places

end Layout

/-- The quotient, rounded to the nearest whole number, halves to the even one. -/
def roundedQuotient (n d : Nat) : Nat :=
  let rest := n % d
  if 2 * rest < d ∨ 2 * rest = d ∧ (n / d) % 2 = 0 then n / d else n / d + 1

/-- The number with no more than 53 binary digits before zeros that is nearest to `n`. -/
def nearestReal (n : Nat) : Nat :=
  let unit := Nat.pow 2 (n.log2 - 52)
  roundedQuotient n unit * unit

/-- The first decimal digits of a number, `places + 1` at most, rounded, and the power of ten that
the first one counts. -/
def leadingDigits (places n : Nat) : Text × Nat :=
  let digits := Text.ofNat n
  let exponent := digits.length - 1
  if exponent ≤ places then (digits, exponent)
  else
    let rounded := Text.ofNat (roundedQuotient n (Nat.pow 10 (exponent - places)))
    if rounded.length = places + 1 then (rounded, exponent) else (rounded.dropLast, exponent + 1)

def extended (count : Nat) (digits : Text) : Text :=
  digits ++ List.replicate (count - digits.length) '0'

def precisionLimit : Nat := 2147483648

namespace Layout

def places (l : Layout) : Nat := l.precision.getD 6

/-- The number of places behind the point of a number with an exponent. The digit before the point
counts as well, and the highest precision leaves no room for it: that one stands for none. -/
def exponentPlaces (l : Layout) : Nat := if l.places + 1 < precisionLimit then l.places else 0

def digitCount (l : Layout) : Nat := max 1 l.places

def fixedPoint (l : Layout) (n : Nat) : Text :=
  Text.ofNat (nearestReal n) ++ l.fraction (List.replicate l.places '0')

def scientific (l : Layout) (mark : Char) (digits : Text) (exponent : Nat) : Text :=
  digits.take 1 ++ l.fraction (digits.drop 1) ++ mark :: '+' :: Text.padded 10 2 exponent

def exponential (l : Layout) (mark : Char) (n : Nat) : Text :=
  let (digits, exponent) := leadingDigits l.exponentPlaces (nearestReal n)
  l.scientific mark (extended (l.exponentPlaces + 1) digits) exponent

def shortened (l : Layout) (digits : Text) : Text :=
  if l.marked then digits else (digits.reverse.dropWhile (· = '0')).reverse

/-- The digits of a number in the shorter form: with an exponent if the precision does not reach to
the last place before the point. Places behind the point are a matter of the flags. -/
def shortest (l : Layout) (mark : Char) (n : Nat) : Text :=
  let (digits, exponent) := leadingDigits (l.digitCount - 1) (nearestReal n)
  let free := l.digitCount - digits.length
  if exponent < l.digitCount then
    digits ++ l.fraction (List.replicate (if l.marked then free else 0) '0')
  else l.scientific mark (digits.take 1 ++ l.shortened (digits.drop 1)) exponent

end Layout

/-! ## Messages -/

inductive Subject
  | whole
  | member (name : Text)
  /-- A name whose closing parenthesis is missing. -/
  | unclosed

/-- A width or a precision as it is written; a `*` leaves it to a value. -/
inductive Extent
  | unset
  | fixed (n : Nat)
  | starred

/-- A placeholder as it is written behind its `%`. -/
structure Placeholder where
  subject : Subject
  flags : Text
  width : Extent
  precision : Extent
  /-- There is none at the end of the message. -/
  letter : Option Char

namespace Placeholder

/-- The text before the parenthesis that closes `depth + 1` open ones, and what follows it. -/
def closeName : (depth : Nat) → Text → Option (Text × Text)
  | _, [] => none
  | depth, '(' :: rest => (closeName (depth + 1) rest).map fun r => ('(' :: r.1, r.2)
  | 0, ')' :: rest => some ([], rest)
  | depth + 1, ')' :: rest => (closeName depth rest).map fun r => (')' :: r.1, r.2)
  | depth, c :: rest => (closeName depth rest).map fun r => (c :: r.1, r.2)

def readSubject : Text → Subject × Text
  | '(' :: rest =>
    match closeName 0 rest with
    | some (name, rest) => (.member name, rest)
    | none => (.unclosed, [])
  | rest => (.whole, rest)

def isFlag (c : Char) : Bool := c = '-' || c = '+' || c = ' ' || c = '#' || c = '0'

def readExtent : Text → Extent × Text
  | '*' :: rest => (.starred, rest)
  | t =>
    match t.takeWhile Text.isDigit with
    | [] => (.unset, t)
    | digits => (.fixed (Text.digitsValue digits), t.dropWhile Text.isDigit)

/-- A precision stands behind a point; a point alone is the precision zero. -/
def readPrecision : Text → Extent × Text
  | '.' :: rest =>
    match readExtent rest with
    | (.unset, rest) => (.fixed 0, rest)
    | read => read
  | rest => (.unset, rest)

/-- A letter for the size of a number may stand before the letter for the form. It says nothing. -/
def skipSize : Text → Text
  | 'h' :: rest | 'l' :: rest | 'L' :: rest => rest
  | rest => rest

def read (t : Text) : Placeholder × Text :=
  let (subject, rest) := readSubject t
  let (width, afterWidth) := readExtent (rest.dropWhile isFlag)
  let (precision, afterPrecision) := readPrecision afterWidth
  let rest' := skipSize afterPrecision
  (⟨subject, rest.takeWhile isFlag, width, precision, rest'.head?⟩, rest'.tail)

theorem length_snd_closeName_le {depth : Nat} {t : Text} {r : Text × Text}
    (h : closeName depth t = some r) : r.2.length ≤ t.length := by
  fun_induction closeName depth t generalizing r with
  | case1 => simp at h
  | case3 =>
    obtain rfl := Option.some.inj h
    simp
  | case2 _ _ ih | case4 _ _ ih | case5 _ _ _ _ _ _ ih =>
    obtain ⟨s, hs, rfl⟩ := Option.map_eq_some_iff.1 h
    have := ih hs
    simp only [List.length_cons]
    omega

theorem length_snd_readSubject_le (t : Text) : (readSubject t).2.length ≤ t.length := by
  unfold readSubject
  split
  · split
    · next h =>
      exact Nat.le_succ_of_le (length_snd_closeName_le h)
    · simp
  · simp

theorem length_snd_readExtent_le (t : Text) : (readExtent t).2.length ≤ t.length := by
  unfold readExtent
  split
  · simp
  · split
    · simp
    · exact (List.dropWhile_suffix _).length_le

theorem length_snd_readPrecision_le (t : Text) : (readPrecision t).2.length ≤ t.length := by
  unfold readPrecision
  split
  · next rest =>
    have := length_snd_readExtent_le rest
    split <;> simp_all <;> omega
  · simp

theorem length_skipSize_le (t : Text) : (skipSize t).length ≤ t.length := by
  unfold skipSize
  split <;> simp

theorem length_snd_read_le (t : Text) : (read t).2.length ≤ t.length := by
  have h₁ := length_snd_readSubject_le t
  have h₂ : ((readSubject t).2.dropWhile isFlag).length ≤ (readSubject t).2.length :=
    (List.dropWhile_suffix _).length_le
  have h₃ := length_snd_readExtent_le ((readSubject t).2.dropWhile isFlag)
  have h₄ := length_snd_readPrecision_le (readExtent ((readSubject t).2.dropWhile isFlag)).2
  have h₅ := length_skipSize_le
    (readPrecision (readExtent ((readSubject t).2.dropWhile isFlag)).2).2
  simp only [read, List.length_tail]
  omega

end Placeholder

inductive Message.Piece
  | char (c : Char)
  /-- A placeholder, and the place of its letter in the message. -/
  | placeholder (p : Placeholder) (index : Nat)

/-- A message in pieces: characters that stand for themselves, and placeholders. -/
abbrev Message := List Message.Piece

def Message.ofText (length : Nat) : (rest : Text) → Message
  | [] => []
  | '%' :: '%' :: rest => .char '%' :: ofText length rest
  | '%' :: rest =>
    let after := (Placeholder.read rest).2
    .placeholder (Placeholder.read rest).1 (length - after.length - 1) :: ofText length after
  | c :: rest => .char c :: ofText length rest
termination_by t => t.length
decreasing_by
  · simp only [List.length_cons]
    omega
  · have := Placeholder.length_snd_read_le rest
    simp only [List.length_cons]
    omega
  · simp

def hasMembers : Json → Bool
  | .arr _ | .obj _ => true
  | _ => false

/-- The value that a placeholder waits for is there only once. -/
def takeValue : Option Json → Except Obstacle Json
  | some value => .ok value
  | none => .error .tooFewArguments

def memberOf (value : Json) (name : Text) : Except Obstacle Json :=
  match value with
  | .obj members =>
    match members.lookup name with
    | some found => .ok found
    | none => .error (.noSuchKey name.quoted)
  | .arr _ => .error .keyNotWhole
  | _ => .error .mappingRequired

def Subject.prepare (value : Json) (ready : Option Json) :
    Subject → Except Obstacle (Option Json)
  | .whole => .ok ready
  | .member name => some <$> memberOf value name
  | .unclosed => .error (if hasMembers value then .keyUnclosed else .mappingRequired)

/-- An extent as a number, and the value that is still ready after that. Written ones stay below
`limit`, and so do those that are left to a value, on both sides of zero. -/
def Extent.measure (limit : Nat) (tooBig tooLarge : Obstacle) (ready : Option Json) :
    Extent → Except Obstacle (Option Int × Option Json)
  | .unset => .ok (none, ready)
  | .fixed n => if limit ≤ n then .error tooBig else .ok (some n, ready)
  | .starred => do
    let value ← takeValue ready
    match value.number? with
    | none => .error .extentNotWhole
    | some n => if n < -limit ∨ limit ≤ n then .error tooLarge else .ok (some n, none)

def escapeForeign (t : Text) : Text :=
  t.flatMap fun c => if c.toNat < 0x80 then [c] else Text.numberEscape c.toNat

def Layout.showText (l : Layout) (text : Text) : Text :=
  l.word ' ' (match l.precision with
    | some length => text.take length
    | none => text)

/-- A value as a whole number; `mark` stands before its digits in the marked form. -/
def Layout.showWhole (l : Layout) (base : Nat) (mark : Text) (n : Int) : Text :=
  l.number (n < 0) (if l.marked then mark else []) (l.digits base n.natAbs)

def textLimit : Nat := 268435456

/-- There is no room for a text as wide as this layout, or with so many zeros, if it reaches the
limit. -/
def Layout.checkRoom (l : Layout) (zeros : Nat) : Except Obstacle Unit :=
  if textLimit ≤ max l.width zeros then .error .noRoom else .ok ()

def wholePrecisionLimit : Nat := 2147483645

def realLimit : Nat := Nat.pow 2 1024

def requireNumber (missing : Obstacle) (value : Json) : Except Obstacle Int :=
  match value.number? with
  | some n => .ok n
  | none => .error missing

def Layout.checkWhole (l : Layout) (missing : Obstacle) (value : Json) : Except Obstacle Int := do
  let n ← requireNumber missing value
  let zeros := l.precision.getD 0
  if wholePrecisionLimit ≤ zeros then .error .digitsTooMany
  else do
    l.checkRoom zeros
    return n

def Layout.checkReal (l : Layout) (zeros : Nat) (value : Json) : Except Obstacle Int := do
  let n ← requireNumber (.realRequired value.typeName) value
  if realLimit ≤ nearestReal n.natAbs then .error .realTooLarge
  else do
    l.checkRoom zeros
    return n

def Layout.showReal (l : Layout) (digits : Nat → Text) (n : Int) : Text :=
  l.number (n < 0) [] (digits n.natAbs)

/-- The code point of a value that is a single character or the number of one. -/
def codePointOf (value : Json) : Except Obstacle Nat :=
  match value, value.number? with
  | .str [c], _ => .ok c.toNat
  | _, some n => if n < 0 ∨ 0x110000 ≤ n then .error .noSuchCharacter else .ok n.toNat
  | _, none => .error .characterRequired

def Layout.showChar (l : Layout) (value : Json) : Except Obstacle CodePoints := do
  let point ← codePointOf value
  l.checkRoom 0
  return l.word ' '.toNat [point]

/-- A value in the form that a letter tells; `index` is the place of the letter in the message. -/
def Layout.show (l : Layout) (letter : Char) (index : Nat) (value : Json) :
    Except Obstacle CodePoints :=
  let text (shown : Text) : Except Obstacle CodePoints := do
    l.checkRoom 0
    return CodePoints.ofText (l.showText shown)
  let whole (missing : Obstacle) (form : Int → Text) : Except Obstacle CodePoints :=
    (CodePoints.ofText ∘ form) <$> l.checkWhole missing value
  let wholeOnly := whole (.wholeRequired letter value.typeName)
  let real (zeros : Nat) (digits : Nat → Text) : Except Obstacle CodePoints :=
    (CodePoints.ofText ∘ l.showReal digits) <$> l.checkReal zeros value
  let zerosOfShortest := if l.marked then l.digitCount else 0
  match letter with
  | 's' => text value.display
  | 'r' => text value.literal
  | 'a' => text (escapeForeign value.literal)
  | 'd' | 'i' | 'u' => whole (.numberRequired letter value.typeName) (l.showWhole 10 [])
  | 'o' => wholeOnly (l.showWhole 8 ['0', 'o'])
  | 'x' => wholeOnly (l.showWhole 16 ['0', 'x'])
  | 'X' => wholeOnly fun n => (l.showWhole 16 ['0', 'x'] n).map Char.toUpper
  | 'c' => l.showChar value
  | 'f' | 'F' => real l.places l.fixedPoint
  | 'e' => real l.exponentPlaces (l.exponential 'e')
  | 'E' => real l.exponentPlaces (l.exponential 'E')
  | 'g' => real zerosOfShortest (l.shortest 'e')
  | 'G' => real zerosOfShortest (l.shortest 'E')
  | _ => .error (.unknownLetter letter index)

def widthLimit : Nat := 9223372036854775808

def Placeholder.fill (value : Json) (ready : Option Json) (index : Nat) (p : Placeholder) :
    Except Obstacle (CodePoints × Option Json) := do
  let ready ← p.subject.prepare value ready
  let (width, ready) ← p.width.measure widthLimit .widthTooBig .widthTooLarge ready
  let (precision, ready) ←
    p.precision.measure precisionLimit .precisionTooBig .precisionTooLarge ready
  match p.letter with
  | none => .error .placeholderUnclosed
  | some letter =>
    let shown ← takeValue ready
    let layout : Layout :=
      ⟨p.flags, (width.getD 0).natAbs, precision.map Int.toNat, '-' ∈ p.flags || width.any (· < 0)⟩
    let text ← layout.show letter index shown
    return (text, none)

/-- The text of a message for a value, as long as that is ready. Every value but one with members
has to be shown. -/
def Message.fill (value : Json) : (ready : Option Json) → Message → Except Obstacle CodePoints
  | ready, [] =>
    if ready.isSome ∧ ¬ hasMembers value then .error .unusedArguments else .ok []
  | ready, .char c :: rest => (c.toNat :: ·) <$> fill value ready rest
  | ready, .placeholder p index :: rest => do
    let (text, ready) ← p.fill value ready index
    (text ++ ·) <$> fill value ready rest

def fillMessage (message : Text) (value : Json) : Except Obstacle CodePoints :=
  (Message.ofText message.length message).fill value (some value)

end SourceLoader.Log
