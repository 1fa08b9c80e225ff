import Settlement.Json.Value

/-!
# Records

A record is written as an object of its fields, in any order and among members of other names, or as
an array of its fields in the order of their declaration. `Record.fields` finds the documents of the
fields; it reports the first fault in the order of the text, and a field that is missing after the
whole object. The readers for single values follow.
-/

namespace Settlement.Json

/-- When a field may be missing: never, from an object only, or anywhere. -/
inductive Presence where
  | required
  | nullable
  | defaulted
  deriving DecidableEq

/-- A field: its name, what a value of it has to fulfil, and whether it may be missing. -/
structure Field where
  name : String
  check : Doc → Except Fault Unit
  presence : Presence

/-- A record by the name that messages give it, with its fields as they are declared. -/
structure Record where
  name : String
  fields : List Field

/-- Where a document comes from: a text is followed by further checks of the text, the elements of a
value are counted. -/
inductive Source where
  | text
  | value
  deriving DecidableEq

/-- The documents of a record's fields. -/
abbrev FieldDocs := List (String × Doc)

def Items.length : Items → Nat
  | .close => 0
  | .broken _ _ => 0
  | .cons _ rest => rest.length + 1

namespace Record

/-- The record with its count of fields, as messages write it. -/
def counted (r : Record) : String :=
  let count := r.fields.length
  s!"struct {r.name} with {count} element" ++ (if count = 1 then "" else "s")

def field? (r : Record) (name : String) : Option Field := r.fields.find? (·.name = name)

/-- The fields of an object in the order of the text, after the ones in `seen`. -/
def inText (r : Record) : FieldDocs → Fields → Except Fault FieldDocs
  | seen, .close => .ok seen
  | _, .broken b _ => .error b.onRead
  | _, .stray _ => .error .malformed
  | seen, .cons key value rest => do
    let name ← key
    match r.field? name with
    | none => do
      value.skip
      r.inText seen rest
    | some field => do
      if (seen.lookup name).isSome then throw (.mismatch (.duplicateField name))
      field.check value
      r.inText ((name, value) :: seen) rest

/-- The first declared field that is required and missing. -/
def missing? (r : Record) (docs : FieldDocs) : Option Field :=
  r.fields.find? fun field => field.presence = .required && (docs.lookup field.name).isNone

/-- The elements behind the last field of a record that is written as an array. -/
def ending (source : Source) (length : Nat) : Items → Except Fault Unit
  | .close => .ok ()
  | .broken fault afterComma => .error (if afterComma then .malformed else fault)
  | .cons item rest =>
    match source with
    | .text => .error .malformed
    | .value =>
      let total := length + (Items.cons item rest).length
      .error (.mismatch (.wrongLength total "fewer elements in array"))

/-- The fields of an array by their places, from place `index` on. -/
def inOrder (r : Record) (source : Source) : Nat → List Field → Items → Except Fault FieldDocs
  | index, [], items => do
    ending source index items
    return []
  | index, field :: fields, items =>
    match items with
    | .cons item rest => do
      field.check item
      return (field.name, item) :: (← r.inOrder source (index + 1) fields rest)
    | .broken fault _ => .error fault
    | .close =>
      if field.presence = .defaulted then r.inOrder source (index + 1) fields .close
      else .error (.mismatch (.wrongLength index r.counted))

/-- The documents of a record's fields. -/
def docs (r : Record) (source : Source) (doc : Doc) : Except Fault FieldDocs :=
  match doc with
  | .object fields => do
    let docs ← r.inText [] fields
    match r.missing? docs with
    | some field => throw (.mismatch (.missingField field.name))
    | none => return docs
  | .array items => r.inOrder source 0 r.fields items
  | other => other.wrongType s!"struct {r.name}"

end Record

namespace FieldDocs

/-- The value of a field that has to be there. -/
def required {α : Type} (docs : FieldDocs) (name : String) (reader : Doc → Except Fault α) :
    Except Fault α :=
  match docs.lookup name with
  | some doc => reader doc
  | none => .error (.mismatch (.missingField name))

/-- The value of a field, or `default` where it is missing. -/
def withDefault {α : Type} (docs : FieldDocs) (name : String) (reader : Doc → Except Fault α)
    (default : α) : Except Fault α :=
  match docs.lookup name with
  | some doc => reader doc
  | none => .ok default

end FieldDocs

/-- A field that a reader has to accept. -/
def Field.of {α : Type} (name : String) (reader : Doc → Except Fault α)
    (presence : Presence := .required) : Field :=
  ⟨name, fun doc => (reader doc).map fun _ => (), presence⟩

namespace Doc

def readString : Doc → Except Fault String
  | string s => s
  | other => other.wrongType "a string"

def readBoolean : Doc → Except Fault Bool
  | boolean b => .ok b
  | other => other.wrongType "a boolean"

/-- A whole number from `low` to `high`; `kind` is what messages call it. -/
def readInteger (kind : String) (low high : Int) : Doc → Except Fault Int
  | number (.ok (.whole n)) =>
    if low ≤ n ∧ n ≤ high then .ok n
    else .error (.mismatch (.wrongValue (.number (.whole n)) kind))
  | other => other.wrongType kind

/-- A whole number of 32 bits without a sign. -/
def readWord32 (doc : Doc) : Except Fault Nat :=
  (readInteger "u32" 0 ((twoPow 32 : Int) - 1) doc).map Int.toNat

/-- A whole number of 64 bits without a sign. -/
def readWord64 (doc : Doc) : Except Fault Nat :=
  (readInteger "u64" 0 ((twoPow 64 : Int) - 1) doc).map Int.toNat

/-- A whole number of 64 bits with a sign. -/
def readInt64 (doc : Doc) : Except Fault Int :=
  readInteger "i64" (-(twoPow 63 : Int)) ((twoPow 63 : Int) - 1) doc

/-- A value or null. -/
def readOption {α : Type} (reader : Doc → Except Fault α) : Doc → Except Fault (Option α)
  | null => .ok none
  | other => (reader other).map some

/-- The elements of an array. -/
def readItems {α : Type} (reader : Doc → Except Fault α) : Items → Except Fault (List α)
  | .close => .ok []
  | .broken fault _ => .error fault
  | .cons item rest => do
    let a ← reader item
    return a :: (← readItems reader rest)

def readList {α : Type} (reader : Doc → Except Fault α) : Doc → Except Fault (List α)
  | array items => readItems reader items
  | other => other.wrongType "a sequence"

/-- The value of a name out of `known`. -/
def readVariant {α : Type} (known : List (String × α)) (name : String) : Except Fault α :=
  match known.lookup name with
  | some a => .ok a
  | none => .error (.mismatch (.unknownVariant name (known.map (·.1))))

/-- The null that may stand behind a name. -/
def readUnit : Doc → Except Fault Unit
  | null => .ok ()
  | other => other.wrongType "unit"

/-- A name out of `known`, alone or as the only member of an object, with null. -/
def readEnum {α : Type} (known : List (String × α)) : Doc → Except Fault α
  | string s => do readVariant known (← s)
  | object (.cons key value rest) => do
    let a ← readVariant known (← key)
    readUnit value
    match rest with
    | .close => return a
    | .broken b false => throw b.onRead
    | _ => throw .malformed
  | object (.stray key) => key.wrongType "variant identifier"
  | object (.broken b _) => .error b.onRead
  | object .close => .error .malformed
  | broken b => .error b.onName
  | _ => .error .malformed

end Doc

end Settlement.Json
