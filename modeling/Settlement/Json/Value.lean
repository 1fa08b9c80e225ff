import Settlement.Json.Doc.Parser

/-!
# JSON values

A value that a program holds, whatever its kind. Members of an object that was read are in the order
of their names, each name once; the last of several members of one name counts. `Value.text` writes
a value without white space.
-/

namespace Settlement.Json

inductive Value where
  | null
  | boolean (b : Bool)
  | number (n : Number)
  | string (s : String)
  | array (items : List Value)
  | object (members : List (String × Value))
  deriving Inhabited

/-- Lower-case hexadecimal digits of a control character's code, four of them. -/
def controlEscape (c : Char) : List Char :=
  let digits := Nat.toDigits 16 c.toNat
  ['\\', 'u'] ++ List.replicate (4 - digits.length) '0' ++ digits

/-- A character as it stands in a string. -/
def escaped (c : Char) : List Char :=
  match c with
  | '"' => ['\\', '"']
  | '\\' => ['\\', '\\']
  | '\x08' => ['\\', 'b']
  | '\x0c' => ['\\', 'f']
  | '\n' => ['\\', 'n']
  | '\r' => ['\\', 'r']
  | '\t' => ['\\', 't']
  | c => if c < ' ' then controlEscape c else [c]

/-- A string between quotes. -/
def stringText (s : String) : String :=
  if s.toList.all fun c => ' ' ≤ c && c != '"' && c != '\\' then "\"" ++ s ++ "\""
  else String.ofList ('"' :: s.toList.flatMap escaped ++ ['"'])

/-- Texts with commas between them. -/
def commaSeparated (texts : List String) : String := ",".intercalate texts

namespace Value

def ofNat (n : Nat) : Value := .number (.whole n)

def ofInt (n : Int) : Value := .number (.whole n)

mutual

/-- The text of a value, without white space. -/
def text : Value → String
  | null => "null"
  | boolean b => if b then "true" else "false"
  | number n => n.text
  | string s => stringText s
  | array items => "[" ++ commaSeparated (itemTexts items) ++ "]"
  | object members => "\x7b" ++ commaSeparated (memberTexts members) ++ "\x7d"

def itemTexts : List Value → List String
  | [] => []
  | item :: rest => item.text :: itemTexts rest

def memberTexts : List (String × Value) → List String
  | [] => []
  | (name, value) :: rest => (stringText name ++ ":" ++ value.text) :: memberTexts rest

end

/-- A member put at its place in the order of names; it takes the place of one of its name. -/
def insertMember (name : String) (value : Value) :
    List (String × Value) → List (String × Value)
  | [] => [(name, value)]
  | (other, old) :: rest =>
    if name = other then (name, value) :: rest
    else if name < other then (name, value) :: (other, old) :: rest
    else (other, old) :: insertMember name value rest

/-- The member of a name. -/
def member? : Value → String → Option Value
  | object members, name => members.lookup name
  | _, _ => none

end Value

/-- Arrays and objects within each other that a reader of values follows. -/
def maxDepth : Nat := 127

mutual

/-- The value of a document, with at most `depth` arrays and objects within each other. -/
def Doc.value : Nat → Doc → Except Fault Value
  | _, .null => .ok .null
  | _, .boolean b => .ok (.boolean b)
  | _, .number n => n.map .number
  | _, .string s => s.map .string
  | 0, .array _ => .error .malformed
  | depth + 1, .array items => do return .array (← items.values depth)
  | 0, .object _ => .error .malformed
  | depth + 1, .object fields => do return .object (← fields.members depth [])
  | _, .broken b => .error b.onRead

def Items.values : Nat → Items → Except Fault (List Value)
  | _, .close => .ok []
  | _, .broken fault _ => .error fault
  | depth, .cons item rest => do
    let value ← item.value depth
    return value :: (← rest.values depth)

def Fields.members : Nat → Fields → List (String × Value) → Except Fault (List (String × Value))
  | _, .close, members => .ok members
  | _, .broken b _, _ => .error b.onRead
  | _, .stray _, _ => .error .malformed
  | depth, .cons key value rest, members => do
    let name ← key
    let value ← value.value depth
    rest.members depth (Value.insertMember name value members)

end

mutual

/-- A value as a document. -/
def Value.doc : Value → Doc
  | .null => .null
  | .boolean b => .boolean b
  | .number n => .number (.ok n)
  | .string s => .string (.ok s)
  | .array items => .array (Value.docItems items)
  | .object members => .object (Value.docFields members)

def Value.docItems : List Value → Items
  | [] => .close
  | item :: rest => .cons item.doc (Value.docItems rest)

def Value.docFields : List (String × Value) → Fields
  | [] => .close
  | (name, value) :: rest => .cons (.ok name) value.doc (Value.docFields rest)

end

/-- Reads a text that holds one value. -/
def Value.read (cs : List Glyph) : Except Fault Value := Doc.read (Doc.value maxDepth) cs

end Settlement.Json
