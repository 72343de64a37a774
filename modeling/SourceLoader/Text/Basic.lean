/-!
Text is a list of characters. Every rule of the loader takes text apart by recursion, so it is kept
in that form throughout; the outer layer turns it into strings when it reads and prints.

Rows of code points. A message that shows numbers as characters can be made to hold code points that
are none, so it is kept as such a row; it is a text if all of its code points are characters.

Decimal digits. Numbers are written with the ten of ASCII; other scripts have digits of their own,
ten in a row each, so that the zeros determine them.

Blank characters, and lists written in one text with commas between the items. The items of such a
list never begin or end with a blank and are never empty.
-/

namespace SourceLoader

/-- A text is made of characters. A host may also hand on lone surrogates, for arguments and names of
files that are not UTF-8; they are no text. -/
abbrev Text := List Char

namespace Text

instance : LawfulBEq Text := inferInstanceAs (LawfulBEq (List Char))

def ofNat (n : Nat) : Text := Nat.toDigits 10 n

def ofInt : Int → Text
  | .ofNat n => ofNat n
  | .negSucc n => '-' :: ofNat (n + 1)

/-- A number in base `base`, filled up with zeros on the left to `width` digits. -/
def padded (base width n : Nat) : Text :=
  let digits := Nat.toDigits base n
  List.replicate (width - digits.length) '0' ++ digits

def zeroFilled (width : Nat) : Int → Text
  | .ofNat n => padded 10 width n
  | .negSucc n => '-' :: padded 10 (width - 1) (n + 1)

def padLeft (fill : Char) (width : Nat) (t : Text) : Text :=
  List.replicate (width - t.length) fill ++ t

def utf8Length : Text → Nat
  | [] => 0
  | c :: t => c.utf8Size + utf8Length t

/-- What follows `lead` in a text that begins with it. -/
def after? : (lead : Text) → Text → Option Text
  | [], t => some t
  | _ :: _, [] => none
  | a :: lead, c :: t => if a = c then after? lead t else none

/-- The part before the first `sep`, and what follows that `sep` if there is one. -/
def cut (sep : Char) : Text → Text × Option Text
  | [] => ([], none)
  | c :: t => if c = sep then ([], some t) else ((cut sep t).map (c :: ·) id)

def join (sep : Text) (pieces : List Text) : Text := sep.intercalate pieces

@[simp] theorem after?_append (lead t : Text) : after? lead (lead ++ t) = some t := by
  induction lead with
  | nil => rfl
  | cons a lead ih => simp [after?, ih]

theorem eq_append_of_after? {lead t rest : Text} (h : after? lead t = some rest) :
    t = lead ++ rest := by
  fun_induction after? lead t with
  | case1 => simpa using h
  | case2 => simp at h
  | case3 => simp_all
  | case4 => simp at h

theorem after?_eq_some_iff {lead t rest : Text} : after? lead t = some rest ↔ t = lead ++ rest :=
  ⟨eq_append_of_after?, fun h => h ▸ after?_append lead rest⟩

@[simp] theorem utf8Length_nil : utf8Length [] = 0 := rfl

@[simp] theorem utf8Length_cons (c : Char) (t : Text) :
    utf8Length (c :: t) = c.utf8Size + utf8Length t := rfl

@[simp] theorem utf8Length_append (s t : Text) :
    utf8Length (s ++ t) = utf8Length s + utf8Length t := by
  induction s with
  | nil => simp
  | cons c s ih => simp [ih, Nat.add_assoc]

end Text

/-! ## Code points -/

abbrev CodePoints := List Nat

namespace CodePoints

def ofText (t : Text) : CodePoints := t.map Char.toNat

def char? (n : Nat) : Option Char :=
  if h : n.isValidChar then some (Char.ofNatAux n h) else none

/-- The text with these code points, if all of them are characters. -/
def toText? (points : CodePoints) : Option Text := points.mapM char?

@[simp] theorem char?_toNat (c : Char) : char? c.toNat = some c := by
  have h : c.toNat.isValidChar := c.valid
  rw [char?, dif_pos h]
  rfl

@[simp] theorem ofText_nil : ofText [] = [] := rfl

@[simp] theorem ofText_cons (c : Char) (t : Text) : ofText (c :: t) = c.toNat :: ofText t := rfl

@[simp] theorem ofText_append (s t : Text) : ofText (s ++ t) = ofText s ++ ofText t := by
  simp [ofText]

@[simp] theorem toText?_ofText (t : Text) : toText? (ofText t) = some t := by
  induction t with
  | nil => rfl
  | cons c t ih => simp_all [toText?]

end CodePoints

end SourceLoader

/-! ## Digits -/

namespace SourceLoader.Text

def isDigit (c : Char) : Bool := '0' ≤ c && c ≤ '9'

def digitsValue (digits : Text) : Nat :=
  digits.foldl (fun n c => 10 * n + (c.toNat - '0'.toNat)) 0

/-- The code points of the digit zero, one for each script. -/
def zeros : List Nat :=
  [0x0030, 0x0660, 0x06f0, 0x07c0, 0x0966, 0x09e6, 0x0a66, 0x0ae6, 0x0b66, 0x0be6, 0x0c66, 0x0ce6,
    0x0d66, 0x0de6, 0x0e50, 0x0ed0, 0x0f20, 0x1040, 0x1090, 0x17e0, 0x1810, 0x1946, 0x19d0, 0x1a80,
    0x1a90, 0x1b50, 0x1bb0, 0x1c40, 0x1c50, 0xa620, 0xa8d0, 0xa900, 0xa9d0, 0xa9f0, 0xaa50, 0xabf0,
    0xff10, 0x104a0, 0x10d30, 0x11066, 0x110f0, 0x11136, 0x111d0, 0x112f0, 0x11450, 0x114d0,
    0x11650, 0x116c0, 0x11730, 0x118e0, 0x11950, 0x11c50, 0x11d50, 0x11da0, 0x16a60, 0x16ac0,
    0x16b50, 0x1d7ce, 0x1d7d8, 0x1d7e2, 0x1d7ec, 0x1d7f6, 0x1e140, 0x1e2f0, 0x1e950, 0x1fbf0]

def digitOf? (c : Char) : Option Nat :=
  (zeros.find? fun z => z ≤ c.toNat && c.toNat ≤ z + 9).map (c.toNat - ·)

def isDecimalDigit (c : Char) : Bool := (digitOf? c).isSome

def areDigits (t : Text) : Bool := t ≠ [] && t.all isDecimalDigit

/-! ## Blanks and lists -/

def blankRanges : List (Nat × Nat) :=
  [(0x09, 0x0d), (0x1c, 0x20), (0x85, 0x85), (0xa0, 0xa0), (0x1680, 0x1680), (0x2000, 0x200a),
    (0x2028, 0x2029), (0x202f, 0x202f), (0x205f, 0x205f), (0x3000, 0x3000)]

def inRanges (ranges : List (Nat × Nat)) (n : Nat) : Bool :=
  ranges.any fun r => r.1 ≤ n && n ≤ r.2

def isBlank (c : Char) : Bool := inRanges blankRanges c.toNat

def trimEnd (t : Text) : Text := (t.reverse.dropWhile isBlank).reverse

def strip (t : Text) : Text := trimEnd (t.dropWhile isBlank)

/-- The items of a list written with commas: each without the blanks around it, empty ones left
out. -/
def commaItems (t : Text) : List Text :=
  ((t.splitOn ',').map strip).filter (· ≠ [])

theorem ne_nil_of_mem_commaItems {t item : Text} (h : item ∈ commaItems t) : item ≠ [] := by
  simpa using (List.mem_filter.1 h).2

end SourceLoader.Text
