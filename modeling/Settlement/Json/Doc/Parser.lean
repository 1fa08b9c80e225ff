import Settlement.Json.Doc

/-!
# From text to document

The bytes of a text are taken as characters, with a mark for bytes that are none (`glyphs`).
`Doc.parse` reads one value from the start of them and gives the glyphs behind it, or none behind a
place where the text breaks.
-/

namespace Settlement.Json

/-- A character of a text, or a byte that belongs to none. -/
abbrev Glyph := Option Char

/-- The glyphs of a text. -/
def glyphsOf (s : String) : List Glyph := s.toList.map some

/-- Bytes of a character that starts with this one; none for a byte that starts no character. -/
def byteCount? (first : UInt8) : Option Nat :=
  if first < 0x80 then some 1
  else if 0xC2 ≤ first && first < 0xE0 then some 2
  else if 0xE0 ≤ first && first < 0xF0 then some 3
  else if 0xF0 ≤ first && first < 0xF5 then some 4
  else none

/-- Glyphs of bytes that are not all characters, at most `fuel` of them. -/
def mixedGlyphs : Nat → List UInt8 → List Glyph
  | 0, _ => []
  | _, [] => []
  | fuel + 1, b :: bs =>
    match byteCount? b with
    | none => none :: mixedGlyphs fuel bs
    | some n =>
      match String.fromUTF8? ⟨(b :: bs.take (n - 1)).toArray⟩ with
      | some s => s.toList.map some ++ mixedGlyphs fuel (bs.drop (n - 1))
      | none => none :: mixedGlyphs fuel bs

/-- The glyphs of the bytes of a text. -/
def glyphs (bytes : ByteArray) : List Glyph :=
  match String.fromUTF8? bytes with
  | some s => glyphsOf s
  | none => mixedGlyphs bytes.size bytes.toList

def isSpace : Glyph → Bool
  | some c => c == ' ' || c == '\t' || c == '\n' || c == '\r'
  | none => false

/-- The glyphs behind the white space at the start. -/
def skipSpace (cs : List Glyph) : List Glyph := cs.dropWhile isSpace

def digitOf? : Glyph → Option Nat
  | some c => if c.isDigit then some (c.toNat - '0'.toNat) else none
  | none => none

/-- The digits at the start and the glyphs behind them. -/
def takeDigits : List Glyph → List Nat × List Glyph
  | [] => ([], [])
  | c :: cs =>
    match digitOf? c with
    | some d => let (ds, rest) := takeDigits cs; (d :: ds, rest)
    | none => ([], c :: cs)

/-- The fault where a digit is missing: a text that ends there is only truncated for a reader. -/
def missingDigit (rest : List Glyph) : Doc :=
  .broken (.inWord (if rest.isEmpty then .truncated else .malformed) .malformed)

/-- The exponent of a number, if one is there. -/
def scanExponent (cs : List Glyph) : Except Doc (Option (Bool × List Nat) × List Glyph) :=
  match cs with
  | some 'e' :: rest | some 'E' :: rest =>
    let (negative, rest) := match rest with
      | some '-' :: rest => (true, rest)
      | some '+' :: rest => (false, rest)
      | rest => (false, rest)
    match takeDigits rest with
    | ([], rest) => .error (missingDigit rest)
    | (digits, rest) => .ok (some (negative, digits), rest)
  | rest => .ok (none, rest)

/-- The fraction of a number, if one is there. -/
def scanFraction (cs : List Glyph) : Except Doc (List Nat × List Glyph) :=
  match cs with
  | some '.' :: rest =>
    match takeDigits rest with
    | ([], rest) => .error (missingDigit rest)
    | (digits, rest) => .ok (digits, rest)
  | rest => .ok ([], rest)

/-- A number without its sign. -/
def scanNumeral (negative : Bool) (cs : List Glyph) : Except Doc (Numeral × List Glyph) := do
  match takeDigits cs with
  | ([], rest) => .error (missingDigit rest)
  | (0 :: _ :: _, _) => .error (.broken (.all .malformed))
  | (whole, rest) =>
    let (fraction, rest) ← scanFraction rest
    let (exponent, rest) ← scanExponent rest
    return (⟨negative, whole, fraction, exponent⟩, rest)

/-- The number at the start. -/
def scanNumber (cs : List Glyph) : Doc × Option (List Glyph) :=
  let scanned := match cs with
    | some '-' :: rest => scanNumeral true rest
    | rest => scanNumeral false rest
  match scanned with
  | .error broken => (broken, none)
  | .ok (numeral, rest) =>
    match numeral.number? with
    | some n => (.number (.ok n), some rest)
    | none => (.number (.error .malformed), some rest)

/-- The word at the start; `doc` if it is there. -/
def scanWord (doc : Doc) : List Char → List Glyph → Doc × Option (List Glyph)
  | [], rest => (doc, some rest)
  | _ :: _, [] => (.broken (.inWord .truncated .truncated), none)
  | c :: cs, g :: rest =>
    if g = some c then scanWord doc cs rest else (.broken (.all .malformed), none)

def hexDigit? : Glyph → Option Nat
  | none => none
  | some c =>
    if c.isDigit then some (c.toNat - '0'.toNat)
    else if 'a' ≤ c && c ≤ 'f' then some (c.toNat - 'a'.toNat + 10)
    else if 'A' ≤ c && c ≤ 'F' then some (c.toNat - 'A'.toNat + 10)
    else none

def byteLength (cs : List Glyph) : Nat :=
  cs.foldl (fun n c => n + (c.map Char.utf8Size).getD 1) 0

/-- The four hexadecimal digits of an escape. Fewer than four bytes are a text that ends there. -/
def hexEscape (cs : List Glyph) : Except Fault (Nat × List Glyph) :=
  match cs with
  | a :: b :: c :: d :: rest =>
    match hexDigit? a, hexDigit? b, hexDigit? c, hexDigit? d with
    | some a, some b, some c, some d => .ok (((a * 16 + b) * 16 + c) * 16 + d, rest)
    | _, _, _, _ => .error .malformed
  | short => if byteLength short < 4 then .error .truncated else .error .malformed

/-- The low half of a pair of escapes, after the high one. -/
def lowSurrogate (cs : List Glyph) : Except Fault (Nat × List Glyph) :=
  match cs with
  | [] => .error .truncated
  | [some '\\'] => .error .truncated
  | some '\\' :: some 'u' :: rest => do
    let (code, rest) ← hexEscape rest
    if 0xDC00 ≤ code && code < 0xE000 then return (code, rest) else throw .malformed
  | _ => .error .malformed

/-- The character of an escape by code, and what stands behind it. -/
def codeEscape (cs : List Glyph) : Except Fault (Char × List Glyph) := do
  let (code, rest) ← hexEscape cs
  if 0xDC00 ≤ code && code < 0xE000 then throw .malformed
  else if 0xD800 ≤ code && code < 0xDC00 then
    let (low, rest) ← lowSurrogate rest
    return (Char.ofNat ((code - 0xD800) * 0x400 + (low - 0xDC00) + 0x10000), rest)
  else return (Char.ofNat code, rest)

/-- The character of an escape by letter. -/
def letterEscape? : Glyph → Option Char
  | some '"' => some '"'
  | some '\\' => some '\\'
  | some '/' => some '/'
  | some 'b' => some '\x08'
  | some 'f' => some '\x0c'
  | some 'n' => some '\n'
  | some 'r' => some '\r'
  | some 't' => some '\t'
  | _ => none

/-- A string as far as it has been read: its characters, latest first, whether bytes that are none
were among them, and the first fault that only a reader notices. -/
structure Scanned where
  chars : List Char
  invalid : Bool
  fault : Option Fault

namespace Scanned

def empty : Scanned := ⟨[], false, none⟩

def push (s : Scanned) (c : Char) : Scanned := { s with chars := c :: s.chars }

def fail (s : Scanned) (fault : Fault) : Scanned := { s with fault := s.fault.or (some fault) }

def content (s : Scanned) : Except Fault String :=
  match s.fault with
  | some fault => .error fault
  | none => if s.invalid then .error .malformed else .ok (String.ofList s.chars.reverse)

end Scanned

/-- The end of a scanned string: closed with glyphs behind it, or broken. -/
inductive Closing where
  | closed (content : Except Fault String) (rest : List Glyph)
  | broken (onRead onSkip : Fault)

/-- The string behind an opening quote. -/
def scanString : Nat → Scanned → List Glyph → Closing
  | 0, s, _ => .broken (s.fault.getD .truncated) .truncated
  | _, s, [] => .broken (s.fault.getD .truncated) .truncated
  | _, s, some '"' :: rest => .closed s.content rest
  | _, s, [some '\\'] => .broken (s.fault.getD .truncated) .truncated
  | fuel + 1, s, some '\\' :: some 'u' :: rest =>
    match hexEscape rest with
    | .error fault => .broken (s.fault.getD fault) fault
    | .ok (_, after) =>
      match codeEscape rest with
      | .ok (c, rest) => scanString fuel (s.push c) rest
      | .error fault => scanString fuel (s.fail fault) after
  | fuel + 1, s, some '\\' :: letter :: rest =>
    match letterEscape? letter with
    | some c => scanString fuel (s.push c) rest
    | none => .broken (s.fault.getD .malformed) .malformed
  | fuel + 1, s, some c :: rest =>
    if c < ' ' then .broken (s.fault.getD .malformed) .malformed
    else scanString fuel (s.push c) rest
  | fuel + 1, s, none :: rest => scanString fuel { s with invalid := true } rest

/-- The string behind an opening quote, whole. -/
def string (cs : List Glyph) : Closing := scanString (cs.length + 1) .empty cs

mutual

/-- The value at the start, behind white space. -/
def parseValue : Nat → List Glyph → Doc × Option (List Glyph)
  | 0, _ => (.broken (.all .truncated), none)
  | fuel + 1, cs =>
    match skipSpace cs with
    | [] => (.broken (.all .truncated), none)
    | some 'n' :: rest => scanWord .null ['u', 'l', 'l'] rest
    | some 't' :: rest => scanWord (.boolean true) ['r', 'u', 'e'] rest
    | some 'f' :: rest => scanWord (.boolean false) ['a', 'l', 's', 'e'] rest
    | some '"' :: rest =>
      match string rest with
      | .closed content rest => (.string content, some rest)
      | .broken onRead onSkip => (.broken ⟨onRead, onSkip, onRead⟩, none)
    | some '[' :: rest =>
      let (items, rest) := parseItems fuel true rest
      (.array items, rest)
    | some '\x7b' :: rest =>
      let (fields, rest) := parseFields fuel true rest
      (.object fields, rest)
    | c :: rest =>
      if c = some '-' || (digitOf? c).isSome then scanNumber (c :: rest)
      else (.broken (.all .malformed), none)

/-- The elements of an array behind its bracket, or behind an element. -/
def parseItems : Nat → Bool → List Glyph → Items × Option (List Glyph)
  | 0, _, _ => (.broken .truncated false, none)
  | fuel + 1, first, cs =>
    match skipSpace cs, first with
    | [], _ => (.broken .truncated false, none)
    | some ']' :: rest, _ => (.close, some rest)
    | rest, true => parseItem fuel rest
    | some ',' :: rest, false =>
      match skipSpace rest with
      | [] => (.broken .truncated true, none)
      | some ']' :: _ => (.broken .malformed true, none)
      | rest => parseItem fuel rest
    | _, false => (.broken .malformed false, none)

/-- An element and the ones behind it. -/
def parseItem : Nat → List Glyph → Items × Option (List Glyph)
  | 0, _ => (.broken .truncated false, none)
  | fuel + 1, cs =>
    match parseValue fuel cs with
    | (item, none) => (.cons item .close, none)
    | (item, some rest) =>
      let (items, rest) := parseItems fuel false rest
      (.cons item items, rest)

/-- The members of an object behind its brace, or behind a member. -/
def parseFields : Nat → Bool → List Glyph → Fields × Option (List Glyph)
  | 0, _, _ => (.broken (.all .truncated) false, none)
  | fuel + 1, first, cs =>
    match skipSpace cs, first with
    | [], _ => (.broken (.all .truncated) false, none)
    | some '\x7d' :: rest, _ => (.close, some rest)
    | rest, true => parseField fuel true rest
    | some ',' :: rest, false =>
      match skipSpace rest with
      | [] => (.broken (.all .truncated) true, none)
      | some '\x7d' :: _ => (.broken (.all .malformed) true, none)
      | rest => parseField fuel false rest
    | _, false => (.broken (.all .malformed) false, none)

/-- A member, the first or a further one, and the ones behind it. -/
def parseField : Nat → Bool → List Glyph → Fields × Option (List Glyph)
  | 0, _, _ => (.broken (.all .truncated) false, none)
  | fuel + 1, first, cs =>
    match cs with
    | some '"' :: rest =>
      match string rest with
      | .broken onRead onSkip => (.broken ⟨onRead, onSkip, onRead⟩ !first, none)
      | .closed key rest =>
        match skipSpace rest with
        | [] => (.cons key (.broken (.all .truncated)) .close, none)
        | some ':' :: rest =>
          match parseValue fuel rest with
          | (value, none) => (.cons key value .close, none)
          | (value, some rest) =>
            let (fields, rest) := parseFields fuel false rest
            (.cons key value fields, rest)
        | _ => (.cons key (.broken (.all .malformed)) .close, none)
    | other => (.stray (parseValue fuel other).1, none)

end

namespace Doc

/-- The value at the start of a text, and the glyphs behind it. -/
def parse (cs : List Glyph) : Doc × Option (List Glyph) := parseValue (3 * cs.length + 3) cs

/-- Reads a text that holds one value and nothing behind it. -/
def read {α : Type} (reader : Doc → Except Fault α) (cs : List Glyph) : Except Fault α :=
  match parse cs with
  | (doc, none) => reader doc
  | (doc, some rest) => do
    let a ← reader doc
    if (skipSpace rest).isEmpty then return a else throw .malformed

end Doc

end Settlement.Json
