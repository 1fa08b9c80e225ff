import Settlement.Power

/-!
# Bytes in base 64

Three bytes make four digits of six bits each. At the end a missing byte leaves a digit out, and `=`
stands in its place.
-/

namespace Settlement.Text

/-- The digit of six bits. -/
def base64Digit (n : Nat) : Char :=
  if n < 26 then Char.ofNat ('A'.toNat + n)
  else if n < 52 then Char.ofNat ('a'.toNat + (n - 26))
  else if n < 62 then Char.ofNat ('0'.toNat + (n - 52))
  else if n = 62 then '+'
  else '/'

/-- The first `count` of the four digits of 24 bits, the others left out. -/
def base64Group (bits count : Nat) : List Char :=
  let digits := [bits / twoPow 18, bits / twoPow 12 % 64, bits / twoPow 6 % 64, bits % 64]
  (digits.take count).map base64Digit ++ List.replicate (4 - count) '='

def base64Chars : List UInt8 → List Char
  | [] => []
  | [a] => base64Group (a.toNat * twoPow 16) 2
  | [a, b] => base64Group (a.toNat * twoPow 16 + b.toNat * twoPow 8) 3
  | a :: b :: c :: rest =>
    base64Group (a.toNat * twoPow 16 + b.toNat * twoPow 8 + c.toNat) 4 ++ base64Chars rest

/-- The text of bytes in base 64. -/
def base64 (bytes : ByteArray) : String := String.ofList (base64Chars bytes.toList)

end Settlement.Text
