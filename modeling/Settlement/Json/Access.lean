import Settlement.Duration
import Settlement.Hex
import Settlement.Json.Amount

/-!
# Looking into values

Members of an object by their names, and values of one kind. A member that is null counts as absent,
so a reader can give it a default.
-/

namespace Settlement.Json

/-- Why a value does not give what was asked of it. -/
inductive AccessFault where
  | absent (name : String)
  | unfit (expected found : String)
  | refused (reason : String)
  deriving DecidableEq

namespace AccessFault

def message : AccessFault → String
  | absent name => s!"no {name}"
  | unfit expected found => s!"not {expected}: {found}"
  | refused reason => reason

end AccessFault

/-- What is found in a value, or why it is not. -/
abbrev Access := Except AccessFault

namespace Access

/-- The member of a name, unless it is null. -/
def field? (v : Value) (name : String) : Option Value :=
  match v.member? name with
  | some .null => none
  | other => other

def unfit {α : Type} (expected : String) (v : Value) : Access α :=
  .error (.unfit expected v.text)

def asText : Value → Access String
  | .string s => .ok s
  | other => unfit "a text" other

def asInt : Value → Access Int
  | .number (.whole n) => .ok n
  | other => unfit "an integer" other

/-- A whole number, zero where it is negative. -/
def asNat (v : Value) : Access Nat := (asInt v).map Int.toNat

def asBool : Value → Access Bool
  | .boolean b => .ok b
  | other => unfit "a boolean" other

def asList : Value → Access (List Value)
  | .array items => .ok items
  | other => unfit "a list" other

def asMembers : Value → Access (List (String × Value))
  | .object members => .ok members
  | other => unfit "an object" other

def asAmount (v : Value) : Access Decimal :=
  match Doc.readAmount v.doc with
  | .ok d => .ok d
  | .error _ => unfit "an amount" v

/-- The member of a name, which has to be there. -/
def get {α : Type} (read : Value → Access α) (v : Value) (name : String) : Access α :=
  match field? v name with
  | some member => read member
  | none => .error (.absent name)

/-- The member of a name, if it is there. -/
def get? {α : Type} (read : Value → Access α) (v : Value) (name : String) : Access (Option α) :=
  match field? v name with
  | some member => (read member).map some
  | none => .ok none

/-- The member of a name, or `default` where it is absent. -/
def getD {α : Type} (read : Value → Access α) (v : Value) (name : String) (default : α) :
    Access α :=
  match field? v name with
  | some member => read member
  | none => .ok default

/-- The elements of a list; none where it is absent. -/
def getList {α : Type} (read : Value → Access α) (v : Value) (name : String) : Access (List α) := do
  (← getD asList v name []).mapM read

/-- A time given in milliseconds. -/
def getMillis (v : Value) (name : String) (default : Nat) : Access Duration :=
  (getD asNat v name default).map Duration.ofMillis

/-- Bytes in hexadecimal. -/
def asHexBytes (v : Value) : Access ByteArray := do
  match Hex.bytes? (← asText v).toList with
  | some bytes => return ⟨bytes.toArray⟩
  | none => unfit "bytes in hexadecimal" v

/-- The bytes of a member, given as a text or, under a name with `_hex`, in hexadecimal. -/
def getBytes (v : Value) (name : String) : Access ByteArray := do
  match field? v (name ++ "_hex") with
  | some digits => asHexBytes digits
  | none => (getD asText v name "").map String.toUTF8

end Access

namespace Value

/-- Bytes as a text, or in hexadecimal where they are none. -/
def ofBytes (bytes : ByteArray) : Value :=
  match String.fromUTF8? bytes with
  | some s => .string s
  | none => .object [("hex", .string (Hex.bytesText bytes))]

end Value

end Settlement.Json
