import SourceLoader.Text.Basic
import SourceLoader.Text.Unicode

/-!
JSON values with whole numbers. The members of an object keep the order in which they are written.

JSON on one line, in printable ASCII characters only. The members of an object are written in
increasing order of their names, by code points. What is no character is written by its number, as
the characters outside ASCII are.

Values as a plain log line shows them. A text on its own stands for itself; inside a list or an
object it is put in quotation marks.
-/

namespace SourceLoader

inductive Json
  | null
  | bool (value : Bool)
  | int (value : Int)
  | str (value : Text)
  | arr (items : List Json)
  | obj (members : List (Text × Json))

namespace Json

def ofTexts (texts : List Text) : Json := .arr (texts.map .str)

def ofOption (value? : Option Text) : Json :=
  match value? with
  | some value => .str value
  | none => .null

def member? (name : Text) : Json → Option Json
  | .obj members => members.lookup name
  | _ => none

def text? : Json → Option Text
  | .str value => some value
  | _ => none

def int? : Json → Option Int
  | .int value => some value
  | _ => none

def bool? : Json → Option Bool
  | .bool value => some value
  | _ => none

def items? : Json → Option (List Json)
  | .arr items => some items
  | _ => none

def members? : Json → Option (List (Text × Json))
  | .obj members => some members
  | _ => none

end Json

end SourceLoader

/-! ## The printed form -/

namespace SourceLoader.Json

def unitEscape (unit : Nat) : Text := '\\' :: 'u' :: Text.padded 16 4 unit

/-- The escape of a code point: one code unit, or two above the first 65536 code points. -/
def codeEscape (n : Nat) : Text :=
  if n < 0x10000 then unitEscape n
  else
    let above := n - 0x10000
    unitEscape (0xd800 + above / 0x400) ++ unitEscape (0xdc00 + above % 0x400)

def escapeChar (c : Char) : Text :=
  if c = '"' then ['\\', '"']
  else if c = '\\' then ['\\', '\\']
  else if c = '\n' then ['\\', 'n']
  else if c = '\r' then ['\\', 'r']
  else if c = '\t' then ['\\', 't']
  else if c = '\x0c' then ['\\', 'f']
  else if c = '\x08' then ['\\', 'b']
  else if ' ' ≤ c ∧ c ≤ '~' then [c]
  else codeEscape c.toNat

def renderText (t : Text) : Text := '"' :: t.flatMap escapeChar ++ ['"']

def escapeCode (n : Nat) : Text :=
  match CodePoints.char? n with
  | some c => escapeChar c
  | none => codeEscape n

def renderCodes (points : CodePoints) : Text := '"' :: points.flatMap escapeCode ++ ['"']

@[simp] theorem renderCodes_ofText (t : Text) :
    renderCodes (CodePoints.ofText t) = renderText t := by
  simp [renderCodes, renderText, CodePoints.ofText, List.flatMap_map, escapeCode]

/-- Puts a member before the first one whose name does not come before its own. -/
def insertMember (m : Text × α) : List (Text × α) → List (Text × α)
  | [] => [m]
  | x :: rest => if x.1 < m.1 then x :: insertMember m rest else m :: x :: rest

def sortMembers (members : List (Text × α)) : List (Text × α) := members.foldr insertMember []

def renderMember (m : Text × Text) : Text := renderText m.1 ++ ':' :: ' ' :: m.2

def separator : Text := [',', ' ']

def renderObject (members : List (Text × Text)) : Text :=
  '\x7b' :: Text.join separator ((sortMembers members).map renderMember) ++ ['\x7d']

mutual

def render : Json → Text
  | .null => "null".toList
  | .bool true => "true".toList
  | .bool false => "false".toList
  | .int value => Text.ofInt value
  | .str value => renderText value
  | .arr items => '[' :: Text.join separator (renderItems items) ++ [']']
  | .obj members => renderObject (renderMembers members)

def renderItems : List Json → List Text
  | [] => []
  | item :: rest => render item :: renderItems rest

def renderMembers : List (Text × Json) → List (Text × Text)
  | [] => []
  | (name, value) :: rest => (name, render value) :: renderMembers rest

end

/-! ## The displayed form -/

mutual

/-- A value as it stands inside another one. -/
def literal : Json → Text
  | .null => "None".toList
  | .bool true => "True".toList
  | .bool false => "False".toList
  | .int value => Text.ofInt value
  | .str value => value.quoted
  | .arr items => '[' :: Text.join [',', ' '] (literalItems items) ++ [']']
  | .obj members => '\x7b' :: Text.join [',', ' '] (literalMembers members) ++ ['\x7d']

def literalItems : List Json → List Text
  | [] => []
  | item :: rest => literal item :: literalItems rest

def literalMembers : List (Text × Json) → List Text
  | [] => []
  | (name, value) :: rest => (name.quoted ++ ':' :: ' ' :: literal value) :: literalMembers rest

end

def display : Json → Text
  | .str value => value
  | value => literal value

def typeName : Json → Text
  | .null => "NoneType".toList
  | .bool _ => "bool".toList
  | .int _ => "int".toList
  | .str _ => "str".toList
  | .arr _ => "list".toList
  | .obj _ => "dict".toList

/-- Whether a value counts as none: null, false, zero and everything empty. -/
def isNone : Json → Bool
  | .null | .bool false | .int 0 | .str [] | .arr [] | .obj [] => true
  | _ => false

/-- The number that a value counts as; true is one and false is zero. -/
def number? : Json → Option Int
  | .int value => some value
  | .bool value => some (if value then 1 else 0)
  | _ => none

end SourceLoader.Json
