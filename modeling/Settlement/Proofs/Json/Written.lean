import Settlement.Json.Doc.Parser

/-!
# Documents as they are written

One document has many texts. `Written` is a JSON text with all that its writer is free in: the white
space, the digits of a number and the mark of its exponent, and for each character of a string
whether it stands as it is, behind a backslash, or by its code. `Written.glyphs` is the text itself,
and `Written.doc` the document that it means. That a text is read as this document is
`parse_written` in `Settlement.Proofs.Json.Parsing`.
-/

namespace Settlement.Json

/-- White space. -/
abbrev Gap := { gap : List Glyph // ∀ g ∈ gap, isSpace g = true }

namespace Gap

def none : Gap := ⟨[], nofun⟩

end Gap

/-- The character may stand in a string as it is. -/
def isPlain (c : Char) : Bool := ' ' ≤ c && c != '"' && c != '\\'

/-- Four hexadecimal digits, in either case. -/
structure CodeUnit where
  digits : Fin 4 → Char
  hex : ∀ i, (hexDigit? (some (digits i))).isSome = true

namespace CodeUnit

def glyphs (u : CodeUnit) : List Glyph := [u.digits 0, u.digits 1, u.digits 2, u.digits 3].map some

def digit (u : CodeUnit) (i : Fin 4) : Nat := (hexDigit? (some (u.digits i))).get (u.hex i)

def value (u : CodeUnit) : Nat := ((u.digit 0 * 16 + u.digit 1) * 16 + u.digit 2) * 16 + u.digit 3

/-- The unit is the first half of a pair. -/
def IsHigh (u : CodeUnit) : Prop := 0xD800 ≤ u.value ∧ u.value < 0xDC00

/-- The unit is the second half of a pair. -/
def IsLow (u : CodeUnit) : Prop := 0xDC00 ≤ u.value ∧ u.value < 0xE000

end CodeUnit

/-- A character in a written string: as it is, as an escape by letter, or by its code, which takes
two units for a character behind the first 65536. -/
inductive Piece where
  | plain (c : Char) (h : isPlain c = true)
  | letter (l c : Char) (h : letterEscape? (some l) = some c)
  | code (u : CodeUnit) (high : ¬u.IsHigh) (low : ¬u.IsLow)
  | pair (u v : CodeUnit) (high : u.IsHigh) (low : v.IsLow)

namespace Piece

def glyphs : Piece → List Glyph
  | plain c _ => [some c]
  | letter l _ _ => [some '\\', some l]
  | code u _ _ => some '\\' :: some 'u' :: u.glyphs
  | pair u v _ _ => some '\\' :: some 'u' :: (u.glyphs ++ some '\\' :: some 'u' :: v.glyphs)

/-- The character that is meant. -/
def char : Piece → Char
  | plain c _ => c
  | letter _ c _ => c
  | code u _ _ => Char.ofNat u.value
  | pair u v _ _ => Char.ofNat ((u.value - 0xD800) * 0x400 + (v.value - 0xDC00) + 0x10000)

end Piece

/-- A written string, without its quotes. -/
abbrev WrittenString := List Piece

namespace WrittenString

def glyphs (s : WrittenString) : List Glyph := s.flatMap Piece.glyphs

/-- The string with its quotes. -/
def quoted (s : WrittenString) : List Glyph := some '"' :: (glyphs s ++ [some '"'])

/-- The text that is meant. -/
def text (s : WrittenString) : String := String.ofList (s.map Piece.char)

end WrittenString

/-- The digits behind the mark of an exponent, and the sign between them: `true` for a minus. -/
structure WrittenExponent where
  capital : Bool
  sign : Option Bool
  digits : List Char
  digits_ne : digits ≠ []
  isDigit : ∀ c ∈ digits, c.isDigit = true

namespace WrittenExponent

def signChars : Option Bool → List Char
  | none => []
  | some true => ['-']
  | some false => ['+']

def chars (e : WrittenExponent) : List Char :=
  (if e.capital then 'E' else 'e') :: (signChars e.sign ++ e.digits)

end WrittenExponent

/-- The value of a decimal digit. -/
def digitValue (c : Char) : Nat := c.toNat - '0'.toNat

/-- A written number. A first zero stands alone before the point; an empty fraction is written
without its point. -/
structure WrittenNumber where
  negative : Bool
  whole : List Char
  fraction : List Char
  exponent : Option WrittenExponent
  isDigit : ∀ c ∈ whole ++ fraction, c.isDigit = true
  whole_ne : whole ≠ []
  leading : whole.head? = some '0' → whole = ['0']

namespace WrittenNumber

/-- The fraction with its point. -/
def fractionChars (fraction : List Char) : List Char :=
  if fraction.isEmpty then [] else '.' :: fraction

def exponentChars : Option WrittenExponent → List Char
  | none => []
  | some e => e.chars

/-- The number without its sign. -/
def unsigned (n : WrittenNumber) : List Char :=
  n.whole ++ (fractionChars n.fraction ++ exponentChars n.exponent)

def chars (n : WrittenNumber) : List Char :=
  if n.negative then '-' :: n.unsigned else n.unsigned

/-- The parts of the number. -/
def numeral (n : WrittenNumber) : Numeral where
  negative := n.negative
  whole := n.whole.map digitValue
  fraction := n.fraction.map digitValue
  exponent := n.exponent.map fun e => (e.sign == some true, e.digits.map digitValue)

/-- The number that is meant, a fault past the largest one. -/
def doc (n : WrittenNumber) : Doc :=
  match n.numeral.number? with
  | some x => .number (.ok x)
  | none => .number (.error .malformed)

/-- A number past the largest one is passed over like any other. -/
theorem skip_doc (n : WrittenNumber) : n.doc.skip = .ok () := by
  rw [doc]
  split <;> rfl

end WrittenNumber

mutual

/-- A written value, without the white space around it. -/
inductive Written where
  | null
  | boolean (b : Bool)
  | number (n : WrittenNumber)
  | string (s : WrittenString)
  | array (items : WrittenItems)
  | object (fields : WrittenFields)

/-- The elements of a written array, with the white space before each comma or the bracket and the
one before each element. -/
inductive WrittenItems where
  | close (gap : Gap)
  | cons (gap before : Gap) (item : Written) (rest : WrittenItems)

/-- The members of a written object, with the white space before each comma or the brace, before
each name, and on both sides of the colon. -/
inductive WrittenFields where
  | close (gap : Gap)
  | cons (gap before : Gap) (key : WrittenString) (colon behind : Gap) (value : Written)
      (rest : WrittenFields)

end

/-- What stands before an element or a member that is not the first. -/
def separator (first : Bool) : List Glyph := if first then [] else [some ',']

mutual

/-- The text of a value. -/
def Written.glyphs : Written → List Glyph
  | .null => ['n', 'u', 'l', 'l'].map some
  | .boolean true => ['t', 'r', 'u', 'e'].map some
  | .boolean false => ['f', 'a', 'l', 's', 'e'].map some
  | .number n => n.chars.map some
  | .string s => WrittenString.quoted s
  | .array items => some '[' :: items.glyphs true
  | .object fields => some '\x7b' :: fields.glyphs true

/-- The text of elements, from the first one or a later one to the bracket. -/
def WrittenItems.glyphs : WrittenItems → Bool → List Glyph
  | .close gap, _ => gap.1 ++ [some ']']
  | .cons gap before item rest, first =>
    gap.1 ++ (separator first ++ (before.1 ++ (item.glyphs ++ rest.glyphs false)))

/-- The text of members, from the first one or a later one to the brace. -/
def WrittenFields.glyphs : WrittenFields → Bool → List Glyph
  | .close gap, _ => gap.1 ++ [some '\x7d']
  | .cons gap before key colon behind value rest, first =>
    gap.1 ++ (separator first ++ (before.1 ++ (WrittenString.quoted key ++ (colon.1 ++
      some ':' :: (behind.1 ++ (value.glyphs ++ rest.glyphs false))))))

end

mutual

/-- The document that a text means. -/
def Written.doc : Written → Doc
  | .null => .null
  | .boolean b => .boolean b
  | .number n => n.doc
  | .string s => .string (.ok (WrittenString.text s))
  | .array items => .array items.doc
  | .object fields => .object fields.doc

def WrittenItems.doc : WrittenItems → Items
  | .close _ => .close
  | .cons _ _ item rest => .cons item.doc rest.doc

def WrittenFields.doc : WrittenFields → Fields
  | .close _ => .close
  | .cons _ _ key _ _ value rest => .cons (.ok (WrittenString.text key)) value.doc rest.doc

end

end Settlement.Json
