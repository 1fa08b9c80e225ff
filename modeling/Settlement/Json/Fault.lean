import Settlement.Json.Number
import Settlement.Text.Quoted

/-!
# Faults of a JSON text

A text is malformed, ends too early, or holds something else than the reader expects. The last kind
names what was found and what was expected.
-/

namespace Settlement.Json

/-- What stands in a text where something else was expected. -/
inductive Found where
  | null
  | boolean (b : Bool)
  | number (n : Number)
  | string (s : String)
  | sequence
  | map
  deriving DecidableEq

namespace Found

def text : Found → String
  | null => "null"
  | boolean b => s!"boolean `{b}`"
  | number (.whole n) => s!"integer `{n}`"
  | number (.real x) => s!"floating point `{x.text}`"
  | string s => s!"string {Text.quoted s}"
  | sequence => "sequence"
  | map => "map"

end Found

/-- Why a well formed text is not what the reader expects. -/
inductive Mismatch where
  | missingField (name : String)
  | duplicateField (name : String)
  | wrongType (found : Found) (expected : String)
  | wrongValue (found : Found) (expected : String)
  | wrongLength (length : Nat) (expected : String)
  | unknownVariant (name : String) (known : List String)
  | unreadable (reason : String)
  deriving DecidableEq

namespace Mismatch

/-- The known names: two of them with an "or" between, more as a list. -/
def alternatives : List String → String
  | [] => "there are no variants"
  | [a] => s!"expected `{a}`"
  | [a, b] => s!"expected `{a}` or `{b}`"
  | names => "expected one of " ++ ", ".intercalate (names.map fun name => s!"`{name}`")

def message : Mismatch → String
  | missingField name => s!"missing field `{name}`"
  | duplicateField name => s!"duplicate field `{name}`"
  | wrongType found expected => s!"invalid type: {found.text}, expected {expected}"
  | wrongValue found expected => s!"invalid value: {found.text}, expected {expected}"
  | wrongLength length expected => s!"invalid length {length}, expected {expected}"
  | unknownVariant name known => s!"unknown variant `{name}`, {alternatives known}"
  | unreadable reason => reason

end Mismatch

/-- Why a text could not be read. -/
inductive Fault where
  | malformed
  | truncated
  | mismatch (cause : Mismatch)
  deriving DecidableEq

/-- What is said of a text that could not be read: its fault, which the parser puts into words of its
own, or words that it has been put into. -/
inductive Complaint where
  | fault (cause : Fault)
  | words (text : String)
  deriving DecidableEq

instance : Coe String Complaint := ⟨.words⟩

/-- The complaint in words, given how the parser words a fault. -/
def Complaint.text (parser : Fault → String) : Complaint → String
  | fault cause => parser cause
  | words text => text

end Settlement.Json
