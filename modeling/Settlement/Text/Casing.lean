import Settlement.Text.Casing.Table

/-!
# Small letters

`toLower` writes a text in small letters by the Unicode rules: each capital by its own small letter,
the dotted capital I by two characters, and a capital sigma by the final one where a letter with
case stands before it and none behind it, marks that are passed over left aside.
-/

namespace Settlement.Text

/-- The code point lies in the run. -/
def LowerRun.covers (run : LowerRun) (code : Nat) : Bool :=
  run.first ≤ code && code ≤ run.last && (code - run.first) % run.step == 0

/-- The small letter of a character, itself where it has none of its own. -/
def lowerOf (c : Char) : Char :=
  if c.toNat < 128 then c.toLower
  else
    match lowerRuns.find? (·.covers c.toNat) with
    | some run => Char.ofNat (c.toNat + run.distance).toNat
    | none => c

/-- The nearest character that is not passed over has a case. -/
def casedAhead (cs : List Char) : Bool :=
  match cs.dropWhile passedOverRanges.contains with
  | [] => false
  | c :: _ => casedRanges.contains c

/-- Small letters for `cs`, with the characters before it, nearest first. -/
def lowerChars : List Char → List Char → List Char
  | _, [] => []
  | before, c :: cs =>
    let small :=
      if c == 'Σ' then
        if casedAhead before && !casedAhead cs then ['ς'] else ['σ']
      else if c == 'İ' then ['i', Char.ofNat 0x307]
      else [lowerOf c]
    small ++ lowerChars (c :: before) cs

/-- The text in small letters. -/
def toLower (s : String) : String := String.ofList (lowerChars [] s.toList)

end Settlement.Text
