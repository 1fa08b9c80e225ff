import Settlement.Json.Fault

/-!
# JSON documents

`Doc` is the tree of a JSON text as far as the text goes: where the text breaks, the tree holds the
fault. A reader that walks the tree in the order of the text therefore meets the same first fault
as one that reads the text itself. A value that a reader skips is checked less: numbers may be out
of range and strings may hold lone surrogates or bytes that are no characters. Where that makes a
difference the tree holds both faults, for reading and for skipping.
-/

namespace Settlement.Json

/-- A place where a text breaks: the fault for a reader, for one that skips the value, and for one
that expects a name and looks at the first character only. -/
structure Break where
  onRead : Fault
  onSkip : Fault
  onName : Fault
  deriving DecidableEq

namespace Break

/-- A fault that every reader meets. -/
def all (fault : Fault) : Break := ⟨fault, fault, fault⟩

/-- A fault inside a word or a number, which a name never starts with. -/
def inWord (onRead onSkip : Fault) : Break := ⟨onRead, onSkip, .malformed⟩

end Break

mutual

/-- A value of a text, or the place where the text breaks. -/
inductive Doc where
  | null
  | boolean (b : Bool)
  | number (n : Except Fault Number)
  | string (s : Except Fault String)
  | array (items : Items)
  | object (fields : Fields)
  | broken (b : Break)

/-- The elements of an array. `broken` tells whether a comma stood before the fault. -/
inductive Items where
  | close
  | broken (fault : Fault) (afterComma : Bool)
  | cons (item : Doc) (rest : Items)

/-- The members of an object. `broken` tells whether a comma stood before the fault; `stray` is
something else where a name should stand. -/
inductive Fields where
  | close
  | broken (b : Break) (afterComma : Bool)
  | stray (key : Doc)
  | cons (key : Except Fault String) (value : Doc) (rest : Fields)

end

instance : Inhabited Doc := ⟨.null⟩

mutual

/-- Passes over a value; the fault in it, if it has one that skipping notices. -/
def Doc.skip : Doc → Except Fault Unit
  | .null => .ok ()
  | .boolean _ => .ok ()
  | .number _ => .ok ()
  | .string _ => .ok ()
  | .array items => items.skip
  | .object fields => fields.skip
  | .broken b => .error b.onSkip

def Items.skip : Items → Except Fault Unit
  | .close => .ok ()
  | .broken fault _ => .error fault
  | .cons item rest => do item.skip; rest.skip

def Fields.skip : Fields → Except Fault Unit
  | .close => .ok ()
  | .broken b _ => .error b.onSkip
  | .stray _ => .error .malformed
  | .cons _ value rest => do value.skip; rest.skip

end

namespace Doc

/-- What a reader that expects something else finds; numbers and strings are read first, arrays and
objects are not looked into. -/
def found : Doc → Except Fault Found
  | null => .ok .null
  | boolean b => .ok (.boolean b)
  | number n => n.map .number
  | string s => s.map .string
  | array _ => .ok .sequence
  | object _ => .ok .map
  | broken b => .error b.onRead

/-- The fault of a value of another type than the expected one. -/
def wrongType {α : Type} (doc : Doc) (expected : String) : Except Fault α := do
  throw (.mismatch (.wrongType (← doc.found) expected))

end Doc

end Settlement.Json
