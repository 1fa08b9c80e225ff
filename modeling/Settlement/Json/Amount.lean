import Settlement.Decimal.Text
import Settlement.Json.Record
import Settlement.Timestamp

/-!
# Amounts and times in JSON

An amount is written as a string and read from a string, with or without an exponent, or from a
number: a whole one exactly, a binary one through its shortest decimal.
-/

namespace Settlement.Json

def Doc.amountName : String := "a Decimal type representing a fixed-point number"

def Doc.timeName : String := "an RFC 3339 formatted date and time string"

namespace Number

/-- The amount of a number. -/
def amount? : Number → Option Decimal
  | whole n => some (Decimal.ofInt n)
  | real x => Decimal.ofText? x.positionalText

end Number

/-- The amount of a text, with or without an exponent. -/
def textAmount? (s : String) : Option Decimal :=
  match Decimal.ofText? s with
  | some d => some d
  | none => Decimal.ofExponentText? s

namespace Doc

def readAmount : Doc → Except Fault Decimal
  | string (.ok s) =>
    match textAmount? s with
    | some d => .ok d
    | none => .error (.mismatch (.wrongValue (.string s) amountName))
  | number (.ok n) =>
    match n.amount? with
    | some d => .ok d
    | none => .error (.mismatch (.wrongValue (.number n) amountName))
  | other => other.wrongType amountName

def readTime : Doc → Except Fault Timestamp
  | string s => do
    match Timestamp.ofText? (← s) with
    | .ok t => return t
    | .error fault => throw (.mismatch (.unreadable fault.message))
  | other => other.wrongType timeName

end Doc

namespace Value

def ofAmount (d : Decimal) : Value := .string d.text

end Value

end Settlement.Json
