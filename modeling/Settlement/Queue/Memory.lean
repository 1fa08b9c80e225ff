import Settlement.Failure
import Settlement.Queue.Delivery

/-!
# A broker in memory

Queues of messages in the order in which they were published. A message that is fetched is pending
until it is acknowledged; when the connection is lost every pending message goes back to the front
of its queue, marked for redelivery, and every call fails until the broker is connected again.
Messages are numbered over all queues, and the texts of the numbers have one length, so their order
as texts is the order of publication.
-/

namespace Settlement

namespace Queue

/-- The messages of a queue: waiting, handed out, and the count of the acknowledged ones. -/
structure Lane where
  ready : List Delivery
  pending : List Delivery
  acked : Nat
  deriving DecidableEq, Inhabited

namespace Lane

def empty : Lane := ⟨[], [], 0⟩

def push (l : Lane) (d : Delivery) : Lane := { l with ready := l.ready ++ [d] }

/-- At most `max` messages from the front, which are pending from now on. -/
def take (l : Lane) (max : Nat) : List Delivery × Lane :=
  (l.ready.take max, { l with ready := l.ready.drop max, pending := l.pending ++ l.ready.take max })

def ack (l : Lane) (id : String) : Lane :=
  if l.pending.any (·.id == id) then
    { l with pending := l.pending.filter (·.id != id), acked := l.acked + 1 }
  else l

/-- Ids in ascending order. -/
def idLE (a b : Delivery) : Bool := a.id ≤ b.id

/-- Every pending message back at the front, marked for redelivery. -/
def giveBack (l : Lane) : Lane :=
  let returned := (l.pending.mergeSort idLE).map fun d => { d with redelivered := true }
  { l with ready := returned ++ l.ready, pending := [] }

end Lane

end Queue

/-- Queues in memory. -/
structure MemoryBroker where
  lanes : List (String × Queue.Lane)
  published : Nat
  connected : Bool
  deriving DecidableEq, Inhabited

namespace MemoryBroker

open Queue

def empty : MemoryBroker := ⟨[], 0, true⟩

/-- The messages of a queue, none where it is not declared. -/
def lane (b : MemoryBroker) (queue : String) : Lane := (b.lanes.lookup queue).getD .empty

/-- The list with another lane for a queue. -/
def putLane (queue : String) (l : Lane) : List (String × Lane) → List (String × Lane)
  | [] => [(queue, l)]
  | (name, old) :: rest =>
    if name = queue then (name, l) :: rest else (name, old) :: putLane queue l rest

def setLane (b : MemoryBroker) (queue : String) (l : Lane) : MemoryBroker :=
  { b with lanes := putLane queue l b.lanes }

/-- The id of the `n`-th message: twenty digits. -/
def idOf (n : Nat) : String :=
  let digits := Nat.toDigits 10 n
  String.ofList (List.replicate (20 - digits.length) '0' ++ digits)

def declare (b : MemoryBroker) (queue : String) : Except QueueError MemoryBroker :=
  if b.connected then .ok (b.setLane queue (b.lane queue)) else .error .reconnect

def publish (b : MemoryBroker) (queue : String) (body : ByteArray) :
    Except QueueError MemoryBroker :=
  if b.connected then
    let d : Delivery := ⟨idOf (b.published + 1), queue, body, false⟩
    .ok { b.setLane queue ((b.lane queue).push d) with published := b.published + 1 }
  else .error .reconnect

/-- At most `max` waiting messages of a queue, empty when none waits. -/
def fetch (b : MemoryBroker) (queue : String) (max : Nat) :
    Except QueueError (List Delivery × MemoryBroker) :=
  if b.connected then
    let (batch, l) := (b.lane queue).take max
    .ok (batch, b.setLane queue l)
  else .error .reconnect

def ack (b : MemoryBroker) (d : Delivery) : Except QueueError MemoryBroker :=
  if b.connected then
    match b.lanes.lookup d.queue with
    | some l => .ok (b.setLane d.queue (l.ack d.id))
    | none => .ok b
  else .error .reconnect

def disconnect (b : MemoryBroker) : MemoryBroker :=
  { b with connected := false, lanes := b.lanes.map fun (queue, l) => (queue, l.giveBack) }

def reconnect (b : MemoryBroker) : MemoryBroker := { b with connected := true }

/-- The bodies that wait on a queue, oldest first. -/
def peek (b : MemoryBroker) (queue : String) : List ByteArray :=
  (b.lane queue).ready.map (·.body)

/-- Declares a queue and publishes a text on it. -/
def publishText (b : MemoryBroker) (queue text : String) : Except QueueError MemoryBroker := do
  (← b.declare queue).publish queue text.toUTF8

end MemoryBroker

end Settlement
