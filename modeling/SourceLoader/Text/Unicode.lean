import SourceLoader.Text.Basic
import SourceLoader.Text.CaseTable
import SourceLoader.Text.PrintableTable

/-!
Upper and lower case of a whole text. Some characters take several characters in the other case, and
a capital sigma becomes the final form where it ends a word.

Text in quotation marks, as messages show it. The quotation mark, the backslash and every character
without a visible form are escaped, so the result always stays on one line.

Text as UTF-8 bytes. Reading is strict: overlong forms, surrogates, code points above the last one
and sequences cut short are refused, and the error tells where the first bad sequence begins and how
many of its bytes were still good.
-/

namespace SourceLoader.Text

def CaseRun.map? (run : CaseRun) (n : Nat) : Option Nat :=
  if run.first ≤ n ∧ n ≤ run.last ∧ (n - run.first) % run.stride = 0 then
    some (n + run.shift).toNat
  else
    none

/-- The other case of one character: its expansion if it has one, else where its run moves it. -/
def mapCase (runs : List CaseRun) (expansions : List (Nat × List Nat)) (c : Char) : Text :=
  match expansions.lookup c.toNat with
  | some codes => codes.map Char.ofNat
  | none =>
    match runs.findSome? (·.map? c.toNat) with
    | some code => [Char.ofNat code]
    | none => [c]

def upperChar (c : Char) : Char :=
  match upperRuns.findSome? (·.map? c.toNat) with
  | some code => Char.ofNat code
  | none => c

def upper (t : Text) : Text := t.flatMap (mapCase upperRuns upperExpansions)

/-- Whether the nearest character that is not passed over is a cased one. -/
def meetsCased (t : Text) : Bool :=
  match t.dropWhile fun c => inRanges ignorableRanges c.toNat with
  | [] => false
  | c :: _ => inRanges casedRanges c.toNat

/-- The lower case of a text that stands after `before`, which is given backwards. A capital sigma
is final when a cased character comes before it and none comes after it. -/
def lowerAfter : (before : Text) → Text → Text
  | _, [] => []
  | before, c :: rest =>
    let here :=
      if c = 'Σ' then [if meetsCased before && !meetsCased rest then 'ς' else 'σ']
      else mapCase lowerRuns lowerExpansions c
    here ++ lowerAfter (c :: before) rest

def lower (t : Text) : Text := lowerAfter [] t

/-! ## Quotation marks -/

def isHidden (c : Char) : Bool := inRanges hiddenRanges c.toNat

/-- The escape of a character by its number, in the shortest of the three widths. -/
def numberEscape (n : Nat) : Text :=
  if n < 0x100 then '\\' :: 'x' :: padded 16 2 n
  else if n < 0x10000 then '\\' :: 'u' :: padded 16 4 n
  else '\\' :: 'U' :: padded 16 8 n

def escape (mark c : Char) : Text :=
  if c = mark ∨ c = '\\' then ['\\', c]
  else if c = '\n' then ['\\', 'n']
  else if c = '\r' then ['\\', 'r']
  else if c = '\t' then ['\\', 't']
  else if isHidden c then numberEscape c.toNat
  else [c]

/-- Single quotation marks, unless the text holds those and no double ones. -/
def quotationMark (t : Text) : Char :=
  if '\'' ∈ t ∧ '"' ∉ t then '"' else '\''

def quoted (t : Text) : Text :=
  let mark := quotationMark t
  mark :: t.flatMap (escape mark) ++ [mark]

end SourceLoader.Text

/-! ## UTF-8 -/

namespace SourceLoader.Text.Utf8

abbrev Bytes := List UInt8

inductive Defect
  /-- No sequence begins with this byte. -/
  | start
  /-- A byte inside a sequence is out of its range. -/
  | continuation
  /-- The bytes end inside a sequence. -/
  | cutShort
  deriving DecidableEq

def Defect.message : Defect → Text
  | .start => "invalid start byte".toList
  | .continuation => "invalid continuation byte".toList
  | .cutShort => "unexpected end of data".toList

/-- The first bad sequence: its first byte, where it begins, and the number of bytes blamed. -/
structure Malformed where
  byte : UInt8
  position : Nat
  length : Nat
  defect : Defect
  deriving DecidableEq

def Malformed.message (e : Malformed) : Text :=
  let place :=
    if e.length = 1 then
      "byte 0x".toList ++ padded 16 2 e.byte.toNat ++ " in position ".toList ++ ofNat e.position
    else
      "bytes in position ".toList ++ ofNat e.position ++
        '-' :: ofNat (e.position + e.length - 1)
  "'utf-8' codec can't decode ".toList ++ place ++ ": ".toList ++ e.defect.message

/-- A sequence that has begun: its first byte, where it began, how many bytes are still to come, the
range that the next of them must lie in, and the bits gathered so far. -/
structure Sequence where
  first : UInt8
  position : Nat
  missing : Nat
  low : UInt8
  high : UInt8
  bits : Nat

def Sequence.ofFirst? (b : UInt8) (position : Nat) : Option Sequence :=
  let bits := b.toNat
  if b < 0xc2 then none
  else if b < 0xe0 then some ⟨b, position, 1, 0x80, 0xbf, bits - 0xc0⟩
  else if b < 0xf0 then
    some ⟨b, position, 2, if b = 0xe0 then 0xa0 else 0x80, if b = 0xed then 0x9f else 0xbf,
      bits - 0xe0⟩
  else if b < 0xf5 then
    some ⟨b, position, 3, if b = 0xf0 then 0x90 else 0x80, if b = 0xf4 then 0x8f else 0xbf,
      bits - 0xf0⟩
  else none

/-- Reads bytes from `position` on, inside the sequence `open?` if there is one. -/
def decodeFrom : (position : Nat) → (open? : Option Sequence) → Bytes → Except Malformed Text
  | _, none, [] => .ok []
  | position, some s, [] => .error ⟨s.first, s.position, position - s.position, .cutShort⟩
  | position, none, b :: rest =>
    if b < 0x80 then (Char.ofNat b.toNat :: ·) <$> decodeFrom (position + 1) none rest
    else
      match Sequence.ofFirst? b position with
      | some s => decodeFrom (position + 1) (some s) rest
      | none => .error ⟨b, position, 1, .start⟩
  | position, some s, b :: rest =>
    if s.low ≤ b ∧ b ≤ s.high then
      let bits := s.bits * 64 + (b.toNat - 0x80)
      if s.missing = 1 then (Char.ofNat bits :: ·) <$> decodeFrom (position + 1) none rest
      else
        decodeFrom (position + 1)
          (some { s with missing := s.missing - 1, low := 0x80, high := 0xbf, bits := bits }) rest
    else
      .error ⟨s.first, s.position, position - s.position, .continuation⟩

def decode (bytes : Bytes) : Except Malformed Text := decodeFrom 0 none bytes

def encode (t : Text) : Bytes := t.flatMap String.utf8EncodeChar

@[simp] theorem encode_nil : encode [] = [] := rfl

@[simp] theorem encode_append (s t : Text) : encode (s ++ t) = encode s ++ encode t := by
  simp [encode]

@[simp] theorem decode_nil : decode [] = .ok [] := rfl

/-- The text that the bytes encode, with a mark in the place of every bad sequence. -/
def decodeMarked (bytes : Bytes) : Text :=
  match _bad : decode bytes with
  | .ok text => text
  | .error e =>
    ((decode (bytes.take e.position)).toOption.getD []) ++
      '\ufffd' :: decodeMarked (bytes.drop (e.position + max 1 e.length))
termination_by bytes.length
decreasing_by
  have : bytes ≠ [] := by
    rintro rfl
    simp at _bad
  have := List.length_pos_iff.2 this
  simp only [List.length_drop]
  omega

theorem decodeMarked_of_decode {bytes : Bytes} {text : Text} (h : decode bytes = .ok text) :
    decodeMarked bytes = text := by
  rw [decodeMarked]
  split <;> simp_all

end SourceLoader.Text.Utf8
