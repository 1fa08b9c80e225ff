import Settlement.Queue.Delivery
import Settlement.Redis

/-!
# Entries of a stream

An entry has an id and fields, each name with the value that was written last. A message is the
value of the field `body`; an entry without a readable body is no message.

A read gives the entries of the streams that were read. Taking over idle entries gives the place
where the next take-over goes on as well, and may name entries that are no longer there, which are
left out.
-/

namespace Settlement.Queue.Stream

open Redis (Reply Fault)

/-- An entry with its fields in the order in which they were written. -/
structure Entry where
  id : String
  fields : List (String × Reply)
  deriving Inhabited

namespace Entry

/-- The value of a field that was written last. -/
def value? (e : Entry) (name : String) : Option Reply := e.fields.reverse.lookup name

/-- The bytes of the message in an entry. -/
def body? (e : Entry) : Option ByteArray := (e.value? "body").bind Reply.bytes?

/-- The delivery of an entry that holds a message. -/
def delivery? (queue : String) (redelivered : Bool) (e : Entry) : Option Delivery :=
  e.body?.map fun body => ⟨e.id, queue, body, redelivered⟩

end Entry

/-- The deliveries of entries, and the ids of the entries that hold no message. -/
def split (queue : String) (redelivered : Bool) (entries : List Entry) :
    List Delivery × List String :=
  (entries.filterMap (Entry.delivery? queue redelivered),
    (entries.filter fun e => e.body?.isNone).map (·.id))

theorem split_nil (queue : String) (redelivered : Bool) : split queue redelivered [] = ([], []) :=
  rfl

/-- Elements two by two; none for an odd count. -/
def pairs? {α : Type} : List α → Option (List (α × α))
  | [] => some []
  | a :: b :: rest => (pairs? rest).map ((a, b) :: ·)
  | _ => none

/-- Elements two by two; a last one without a partner is left out. -/
def wholePairs {α : Type} : List α → List (α × α)
  | a :: b :: rest => (a, b) :: wholePairs rest
  | _ => []

/-- The keys and values of an answer that is a map. -/
def mapPairs (r : Reply) : Except Fault (List (Reply × Reply)) :=
  match r with
  | .nil => .ok []
  | .bulk items =>
    match pairs? items with
    | some pairs => .ok pairs
    | none => .error (.unexpected "Response type not hashmap compatible")
  | _ => .error (.unexpected "Response type not hashmap compatible")

/-- The elements of an answer that is a list. -/
def elements (r : Reply) : Except Fault (List Reply) :=
  match r with
  | .nil => .ok []
  | .bulk items => .ok items
  | _ => .error (.unexpected "Response type not vector compatible.")

def readField (pair : Reply × Reply) : Except Fault (String × Reply) := do
  return (← pair.1.text?, pair.2)

/-- An entry of a read: its id and its fields, which may be gone. -/
def readEntry (pair : Reply × Reply) : Except Fault Entry := do
  let id ← pair.1.text?
  return ⟨id, ← (← mapPairs pair.2).mapM readField⟩

/-- The entries of an element of a stream's list. -/
def readRow (row : Reply) : Except Fault (List Entry) := do (← mapPairs row).mapM readEntry

/-- The entries of a stream that was read, behind its name. -/
def readStream (pair : Reply × Reply) : Except Fault (List Entry) := do
  let _ ← pair.1.text?
  return (← (← elements pair.2).mapM readRow).flatten

/-- The streams in an element of the answer to a read. -/
def readStreams (row : Reply) : Except Fault (List Entry) := do
  return (← (← mapPairs row).mapM readStream).flatten

/-- The entries in the answer to a read. -/
def readEntries (r : Reply) : Except Fault (List Entry) := do
  return (← (← elements r).mapM readStreams).flatten

/-- The answer to a take-over is not one. -/
def malformedTakeOver : Fault := .unexpected "unexpected XAUTOCLAIM reply"

/-- The fields of an entry that was taken over, a last name without a value left out. -/
def takenFields : List Reply → Except Fault (List (String × Reply))
  | .bulk fields :: _ => (wholePairs fields).mapM readField
  | _ => .ok []

/-- An entry that was taken over; none where it is no longer there. -/
def readTaken : Reply → Except Fault (Option Entry)
  | .bulk (id :: rest) => do
    let id ← id.text?
    return some ⟨id, ← takenFields rest⟩
  | _ => .ok none

/-- The place where the next take-over goes on, and the entries that were taken over. -/
def readTakeOver : Reply → Except Fault (String × List Entry)
  | .bulk (cursor :: rest) => do
    let next ← cursor.text?
    match rest with
    | .bulk entries :: _ => return (next, (← entries.mapM readTaken).filterMap id)
    | _ => throw malformedTakeOver
  | _ => .error malformedTakeOver

end Settlement.Queue.Stream
