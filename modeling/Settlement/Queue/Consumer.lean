import Settlement.Failure
import Settlement.Outcome
import Settlement.Queue.Delivery

/-!
# Consuming a queue

A consumer hands each delivery to a task of its own and has at most a fixed count of tasks, the
prefetch. It takes all free slots, fetches at most as many messages, gives each a slot, and starts
over. A task handles its delivery and then acknowledges it or leaves it; its slot is free after that.
The consumer stops on a shutdown, when a fetch fails, and when an acknowledgement tells that the
connection is lost; then it waits until its last task is over.

`Consumer.step` says what each thing that may happen does, and which things cannot happen.
-/

namespace Settlement

/-- A delivery that is handled or, after that, acknowledged. -/
structure Task where
  number : Nat
  delivery : Delivery
  acking : Bool
  deriving DecidableEq, Inhabited

namespace Consumer

/-- How a consumer stops: on a shutdown, or on a failure. -/
inductive Ending where
  | shutdown
  | failed (e : QueueError)
  deriving DecidableEq

/-- What the consumer itself is doing: declaring its queue, waiting for a free slot, fetching with
the slots it has taken, waiting for its tasks to end, or nothing any more. -/
inductive Phase where
  | declaring
  | acquiring
  | fetching (slots : Nat)
  | stopping (ending : Ending)
  | stopped (ending : Ending)
  deriving DecidableEq

/-- What may happen to a consumer. -/
inductive Event where
  | declared (r : Except QueueError Unit)
  | acquired
  | fetched (r : Except QueueError (List Delivery))
  | handled (task : Nat) (disposition : Disposition)
  | acked (task : Nat) (r : Except QueueError Unit)
  | faulted
  | shutdown
  | drained

end Consumer

/-- A consumer with its tasks, the count of tasks it has started, and the fault that one of them
reported. -/
structure Consumer where
  limit : Nat
  phase : Consumer.Phase
  tasks : List Task
  started : Nat
  fault : Option QueueError
  deriving DecidableEq

namespace Consumer

/-- The most slots that a consumer can have. -/
def maxSlots : Nat := twoPow 61 - 1

/-- A consumer at its start, with at least one slot. -/
def start (prefetch : Nat) : Consumer := ⟨max prefetch 1, .declaring, [], 0, none⟩

/-- Slots that no task has. -/
def free (c : Consumer) : Nat := c.limit - c.tasks.length

/-- Tasks for deliveries, numbered from `first` on. -/
def tasksFor (first : Nat) : List Delivery → List Task
  | [] => []
  | d :: rest => ⟨first, d, false⟩ :: tasksFor (first + 1) rest

/-- The consumer with a task for each delivery that has a slot. -/
def dispatch (c : Consumer) (slots : Nat) (deliveries : List Delivery) : Consumer :=
  let taken := deliveries.take slots
  { c with
    phase := .acquiring
    tasks := c.tasks ++ tasksFor c.started taken
    started := c.started + taken.length }

def task? (c : Consumer) (number : Nat) : Option Task := c.tasks.find? (·.number == number)

/-- The consumer without a task, whose slot is free again. -/
def drop (c : Consumer) (number : Nat) : Consumer :=
  { c with tasks := c.tasks.filter (·.number != number) }

/-- Marks the task as being acknowledged. -/
def markAcking (number : Nat) (t : Task) : Task :=
  if t.number = number then { t with acking := true } else t

/-- Notes the failure of an acknowledgement when it tells that the connection is lost; a failure
that was noted before stays. -/
def note (c : Consumer) : Except QueueError Unit → Consumer
  | .error .reconnect => { c with fault := c.fault.or (some .reconnect) }
  | _ => c

/-- The consumer stops fetching, if it has not stopped before. -/
def stop (c : Consumer) (ending : Ending) : Option Consumer :=
  match c.phase with
  | .acquiring => some { c with phase := .stopping ending }
  | .fetching _ => some { c with phase := .stopping ending }
  | _ => none

/-- The consumer after an event, none where the event cannot happen. -/
def step (c : Consumer) : Event → Option Consumer
  | .declared r =>
    match c.phase, r with
    | .declaring, .ok () => some { c with phase := .acquiring }
    | .declaring, .error e => some { c with phase := .stopped (.failed e) }
    | _, _ => none
  | .acquired =>
    match c.phase with
    | .acquiring => if 0 < c.free then some { c with phase := .fetching c.free } else none
    | _ => none
  | .fetched r =>
    match c.phase, r with
    | .fetching slots, .ok deliveries => some (c.dispatch slots deliveries)
    | .fetching _, .error e => some { c with phase := .stopping (.failed e) }
    | _, _ => none
  | .handled number disposition =>
    match c.task? number with
    | some task =>
      if task.acking then none
      else
        match disposition with
        | .ack => some { c with tasks := c.tasks.map (markAcking number) }
        | .abandon => some (c.drop number)
    | none => none
  | .acked number r =>
    match c.task? number with
    | some task => if task.acking then some ((c.drop number).note r) else none
    | none => none
  | .faulted =>
    match c.fault with
    | some e => c.stop (.failed e)
    | none => none
  | .shutdown => c.stop .shutdown
  | .drained =>
    match c.phase, c.tasks with
    | .stopping ending, [] => some { c with phase := .stopped ending }
    | _, _ => none

end Consumer

end Settlement
