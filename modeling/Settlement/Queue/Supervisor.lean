import Settlement.Queue.Consumer
import Settlement.Queue.Stream

/-!
# Consuming a stream until a shutdown

`StreamConsumer` is a consumer whose queue is a stream: each step may send commands to the server,
and some of what may happen to it are the answers. The `Supervisor` connects, consumes, and connects
anew after a pause whenever the connection is lost. It stops on a shutdown, and on any other failure.
-/

namespace Settlement

open Queue.Stream (Position Fetch FetchStage Fetched)

/-- A command with what it was sent for: declaring the queue, fetching, or acknowledging the delivery
of a task. -/
inductive Errand where
  | declare
  | fetch
  | ack (task : Nat)
  deriving DecidableEq

/-- A command that was sent. -/
structure Dispatch where
  errand : Errand
  command : Redis.Command
  deriving DecidableEq

/-- A consumer of a stream: its settings, its slots and tasks, the position in the stream, and how
the fetch that waits for an answer goes on with it. -/
structure StreamConsumer where
  reader : StreamReader
  block : Duration
  consumer : Consumer
  position : Position
  pending : Option (Redis.Result → Fetch)

namespace StreamConsumer

/-- What may happen to a consumer of a stream: answers to what it sent, a task that ends with an
outcome, and what may happen to any consumer. -/
inductive Event where
  | declared (r : Redis.Result)
  | acquired
  | answered (r : Redis.Result)
  | handled (task : Nat) (outcome : Outcome)
  | acked (task : Nat) (r : Redis.Result)
  | faulted
  | shutdown
  | drained

/-- How long the server may wait for new entries. -/
def defaultBlock : Duration := .ofSecs 5

/-- A consumer at its start, on a new connection, and the command that it sends first. -/
def start (reader : StreamReader) (prefetch : Nat) : StreamConsumer × List Dispatch :=
  (⟨reader, defaultBlock, .start prefetch, .start, none⟩,
    [⟨.declare, .createGroup reader.queue reader.group⟩])

/-- Slots that the consumer fetches with. -/
def slots (s : StreamConsumer) : Nat :=
  match s.consumer.phase with
  | .fetching slots => slots
  | _ => 0

/-- The fetch takes a turn: it sends a command and waits, or is over. None when it breaks down. -/
def advance (s : StreamConsumer) (now : Instant) (f : Fetch) :
    Option (StreamConsumer × List Dispatch) :=
  match s.reader.fetchTurn s.slots s.block now f with
  | .ask command _ resume =>
    some ({ s with position := f.position, pending := some resume }, [⟨.fetch, command⟩])
  | .done fetched =>
    (s.consumer.step (.fetched fetched.result)).map fun consumer =>
      ({ s with consumer, position := fetched.position, pending := none }, [])
  | _ => none

/-- An event of the consumer itself, with nothing to send. -/
def quietly (s : StreamConsumer) (e : Consumer.Event) : Option (StreamConsumer × List Dispatch) :=
  (s.consumer.step e).map fun consumer => ({ s with consumer }, [])

/-- A consumer that stops fetching waits for no answer any more. -/
def stopping (s : StreamConsumer) (e : Consumer.Event) :
    Option (StreamConsumer × List Dispatch) :=
  (s.consumer.step e).map fun consumer => ({ s with consumer, pending := none }, [])

/-- The commands that an outcome asks for: a message that is done with is acknowledged. -/
def commandsFor (s : StreamConsumer) (task : Task) (outcome : Outcome) : List Dispatch :=
  match outcome.disposition with
  | .ack =>
    [⟨.ack task.number, .acknowledge task.delivery.queue s.reader.group [task.delivery.id]⟩]
  | .abandon => []

/-- The consumer after an event and the commands that it sends, none where the event cannot happen.
-/
def step (s : StreamConsumer) (now : Instant) : Event → Option (StreamConsumer × List Dispatch)
  | .declared r => s.quietly (.declared (Queue.Stream.declared r))
  | .acquired => do
    let (s, _) ← s.quietly .acquired
    s.advance now ⟨s.position, .choosing⟩
  | .answered r => do
    let resume ← s.pending
    s.advance now (resume r)
  | .handled number outcome => do
    let task ← s.consumer.task? number
    let (next, _) ← s.quietly (.handled number outcome.disposition)
    return (next, s.commandsFor task outcome)
  | .acked number r => s.quietly (.acked number (Queue.Stream.acknowledged r))
  | .faulted => s.stopping .faulted
  | .shutdown => s.stopping .shutdown
  | .drained => s.quietly .drained

/-- How the consumer stopped, once it has. -/
def ending? (s : StreamConsumer) : Option Consumer.Ending :=
  match s.consumer.phase with
  | .stopped ending => some ending
  | _ => none

end StreamConsumer

/-- What the supervisor is doing: connecting, consuming, waiting to connect anew, or nothing any
more. -/
inductive Supervision where
  | connecting
  | consuming (s : StreamConsumer)
  | pausing (resumeAt : Instant)
  | stopped (result : Except QueueError Unit)

/-- A supervisor with what it consumes, whether a shutdown was asked for, and what it is doing. -/
structure Supervisor where
  reader : StreamReader
  prefetch : Nat
  reconnectDelay : Duration
  shutdown : Bool
  doing : Supervision

namespace Supervisor

/-- What may happen to a supervisor. -/
inductive Event where
  | connected (r : Except QueueError Unit)
  | consumer (e : StreamConsumer.Event)
  | shutdown
  | pauseOver

/-- A supervisor that connects, unless a shutdown was asked for. -/
def connectOrStop (s : Supervisor) : Supervisor :=
  { s with doing := if s.shutdown then .stopped (.ok ()) else .connecting }

/-- A supervisor at its start; a shutdown may have been asked for before. -/
def start (reader : StreamReader) (prefetch : Nat) (reconnectDelay : Duration) (shutdown : Bool) :
    Supervisor :=
  connectOrStop ⟨reader, prefetch, reconnectDelay, shutdown, .connecting⟩

/-- What is done when consuming is over, or has not begun. -/
def after (s : Supervisor) (now : Instant) : Except QueueError Unit → Supervisor
  | .ok () => { s with doing := .stopped (.ok ()) }
  | .error .reconnect =>
    if s.shutdown then { s with doing := .stopped (.ok ()) }
    else { s with doing := .pausing (now + s.reconnectDelay.nanos) }
  | .error e => { s with doing := .stopped (.error e) }

/-- The result of a consumer that stopped. -/
def resultOf : Consumer.Ending → Except QueueError Unit
  | .shutdown => .ok ()
  | .failed e => .error e

/-- An event of the consumer. A shutdown that was asked for is the only one. -/
def consume (s : Supervisor) (now : Instant) (c : StreamConsumer) (e : StreamConsumer.Event) :
    Option (Supervisor × List Dispatch) := do
  let (c, dispatches) ← c.step now e
  match c.ending? with
  | some ending => return (s.after now (resultOf ending), dispatches)
  | none => return ({ s with doing := .consuming c }, dispatches)

/-- The supervisor after an event and the commands that are sent, none where the event cannot
happen. -/
def step (s : Supervisor) (now : Instant) : Event → Option (Supervisor × List Dispatch)
  | .connected r =>
    match s.doing, r with
    | .connecting, .ok () =>
      let (c, dispatches) := StreamConsumer.start s.reader s.prefetch
      some ({ s with doing := .consuming c }, dispatches)
    | .connecting, .error e => some (s.after now (.error e), [])
    | _, _ => none
  | .consumer e =>
    match s.doing, e with
    | .consuming c, .shutdown => if s.shutdown then s.consume now c .shutdown else none
    | .consuming c, e => s.consume now c e
    | _, _ => none
  | .shutdown =>
    match s.doing with
    | .pausing _ => some ({ s with shutdown := true, doing := .stopped (.ok ()) }, [])
    | _ => some ({ s with shutdown := true }, [])
  | .pauseOver =>
    match s.doing with
    | .pausing instant => if instant ≤ now then some (s.connectOrStop, []) else none
    | _ => none

/-- What is told when consuming failed. -/
def failureText : String := "Queue consumer failed"

/-- The supervisor after `rounds` connections that failed, as long as it tries again. -/
def withoutServer (s : Supervisor) (e : QueueError) : Nat → Supervisor
  | 0 => s
  | rounds + 1 =>
    match s.doing with
    | .connecting => withoutServer (s.after 0 (.error e)) e rounds
    | .pausing _ => withoutServer s.connectOrStop e rounds
    | _ => s

end Supervisor

end Settlement
