/-!
# Words in hexadecimal

Addresses have 20 bytes and transaction hashes 32. Their text is `0x` and all their digits in lower
case. The text that is read may leave out `0x` and may have blanks between the digits; an excess is
noticed after the last byte, a wrong character where it stands.
-/

namespace Settlement

/-- An account or a contract. -/
abbrev Address := BitVec 160

/-- The hash of a transaction or the topic of a log. -/
abbrev Hash := BitVec 256

/-- Why a text is no word of the wanted size. -/
inductive HexFault where
  | wrongLength
  | wrongCharacter (c : Char) (position : Nat)
  deriving DecidableEq

namespace HexFault

def message : HexFault → String
  | wrongLength => "Invalid input length"
  | wrongCharacter c position => s!"Invalid character '{c}' at position {position}"

end HexFault

namespace Hex

def digit? (c : Char) : Option Nat :=
  if c.isDigit then some (c.toNat - '0'.toNat)
  else if 'a' ≤ c && c ≤ 'f' then some (c.toNat - 'a'.toNat + 10)
  else if 'A' ≤ c && c ≤ 'F' then some (c.toNat - 'A'.toNat + 10)
  else none

def isBlank (c : Char) : Bool := c == ' ' || c == '\t' || c == '\n' || c == '\r'

/-- What has been read of a word: its digits, and how many they are. -/
structure Reading where
  value : Nat
  count : Nat

/-- The value of exactly `wanted` digits, the characters at `position` and behind. -/
def digits (wanted : Nat) : Reading → Nat → List Char → Except HexFault Nat
  | r, _, [] => if r.count = wanted then .ok r.value else .error .wrongLength
  | r, position, c :: cs =>
    if isBlank c then digits wanted r (position + c.utf8Size) cs
    else if r.count = wanted then .error .wrongLength
    else
      match digit? c with
      | none => .error (.wrongCharacter c position)
      | some d => digits wanted ⟨r.value * 16 + d, r.count + 1⟩ (position + c.utf8Size) cs

/-- The characters behind `0x`, where the text starts with it. -/
def withoutMark : List Char → List Char
  | '0' :: 'x' :: rest => rest
  | cs => cs

/-- The characters behind all `0x` that the text starts with. -/
def withoutMarks : List Char → List Char
  | '0' :: 'x' :: rest => withoutMarks rest
  | cs => cs

/-- A word of `bits` bits, a multiple of eight, from its text. -/
def word? (bits : Nat) (cs : List Char) : Except HexFault (BitVec bits) :=
  (digits (bits / 4) ⟨0, 0⟩ 0 (withoutMark cs)).map (BitVec.ofNat bits)

/-- The bytes that pairs of digits stand for. -/
def bytes? : List Char → Option (List UInt8)
  | [] => some []
  | high :: low :: rest => do
    let byte := (← digit? high) * 16 + (← digit? low)
    return UInt8.ofNat byte :: (← bytes? rest)
  | _ => none

/-- Digits in lower case, as many as `count`. -/
def paddedDigits (count value : Nat) : List Char :=
  let digits := Nat.toDigits 16 value
  List.replicate (count - digits.length) '0' ++ digits

/-- Two digits for each byte. -/
def bytesText (bytes : ByteArray) : String :=
  String.ofList (bytes.toList.flatMap fun byte => paddedDigits 2 byte.toNat)

end Hex

/-- The text of a word. -/
def hexText {bits : Nat} (word : BitVec bits) : String :=
  String.ofList ('0' :: 'x' :: Hex.paddedDigits (bits / 4) word.toNat)

def Address.ofText? (s : String) : Except HexFault Address := Hex.word? 160 s.toList

def Hash.ofText? (s : String) : Except HexFault Hash := Hex.word? 256 s.toList

end Settlement
