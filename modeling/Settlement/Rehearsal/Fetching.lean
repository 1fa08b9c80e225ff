import Settlement.Bytes
import Settlement.Duration
import Settlement.Queue.Memory

/-!
# Fetching from a broker in memory

A fetch from an empty queue waits until something happens to the broker, and ends with nothing when
its time is over. What happens meanwhile is given beforehand; whatever lies at the end of the time
or after it is left for a later wait.
-/

namespace Settlement.Rehearsal

/-- Something that is done with a queue. An acknowledgement is of the delivery that was fetched at a
place, with another id or queue where one is given. -/
inductive BrokerStep where
  | declare
  | publish (body : ByteArray)
  | publishText (text : String)
  | ack (place : Nat) (id queue : Option String)
  | disconnect
  | reconnect
  | peek
  | fetch (max : Nat) (block : Duration)
  deriving DecidableEq

/-- What comes of a step: nothing, deliveries or bodies. -/
inductive BrokerAnswer where
  | done
  | fetched (batch : List Delivery)
  | peeked (bodies : List ByteArray)
  deriving DecidableEq

/-- Something that happens to a broker. -/
inductive Happening where
  | publish (queue : String) (body : ByteArray)
  | disconnect
  deriving DecidableEq

/-- A broker with the clock, what will happen to it, earliest first, and the deliveries that were
fetched. -/
structure BrokerBench where
  now : Instant
  broker : MemoryBroker
  ahead : List (Instant × Happening)
  fetched : List Delivery

namespace Happening

/-- The broker after it; a message that cannot be published is lost. -/
def apply (b : MemoryBroker) : Happening → MemoryBroker
  | publish queue body =>
    match b.publish queue body with
    | .ok b => b
    | .error _ => b
  | disconnect => b.disconnect

/-- Put behind everything that happens earlier or at the same time. -/
def insert (instant : Instant) (h : Happening) :
    List (Instant × Happening) → List (Instant × Happening)
  | [] => [(instant, h)]
  | (other, g) :: rest =>
    if instant < other then (instant, h) :: (other, g) :: rest
    else (other, g) :: insert instant h rest

end Happening

namespace BrokerBench

def idle : BrokerBench := ⟨0, .empty, [], []⟩

/-- Something that will happen after a while. -/
def plan (bench : BrokerBench) (wait : Duration) (h : Happening) : BrokerBench :=
  { bench with ahead := h.insert (bench.now + wait.nanos) bench.ahead }

/-- Waits until `deadline` for messages while what lies ahead happens: the result, the instant, the
broker, and what is still ahead. -/
def await (queue : String) (max : Nat) (deadline : Instant) :
    List (Instant × Happening) → Instant → MemoryBroker →
      Except QueueError (List Delivery) × Instant × MemoryBroker × List (Instant × Happening)
  | ahead, now, broker =>
    match broker.fetch queue max with
    | .error e => (.error e, now, broker, ahead)
    | .ok (batch, taken) =>
      if !(broker.lane queue).ready.isEmpty then (.ok batch, now, taken, ahead)
      else
        match ahead with
        | [] => (.ok [], deadline, taken, [])
        | (instant, h) :: rest =>
          if instant < deadline then
            await queue max deadline rest (Nat.max now instant) (h.apply taken)
          else (.ok [], deadline, taken, (instant, h) :: rest)

/-- Fetches at most `max` messages, waiting at most `block` for the first. -/
def fetch (bench : BrokerBench) (queue : String) (max : Nat) (block : Duration) :
    Except QueueError BrokerAnswer × BrokerBench :=
  let (result, now, broker, ahead) :=
    await queue max (bench.now + block.nanos) bench.ahead bench.now bench.broker
  match result with
  | .ok batch => (.ok (.fetched batch), ⟨now, broker, ahead, bench.fetched ++ batch⟩)
  | .error e => (.error e, ⟨now, broker, ahead, bench.fetched⟩)

/-- A call of the broker that takes no time. -/
def call (bench : BrokerBench) (f : MemoryBroker → Except QueueError MemoryBroker) :
    Except QueueError BrokerAnswer × BrokerBench :=
  match f bench.broker with
  | .ok broker => (.ok .done, { bench with broker })
  | .error e => (.error e, bench)

/-- Acknowledges the delivery at a place; nothing happens where none was fetched. -/
def ack (bench : BrokerBench) (place : Nat) (id queue : Option String) :
    Except QueueError BrokerAnswer × BrokerBench :=
  match bench.fetched[place]? with
  | some d => bench.call (·.ack { d with id := id.getD d.id, queue := queue.getD d.queue })
  | none => (.ok .done, bench)

/-- A step with a queue. -/
def step (bench : BrokerBench) (queue : String) :
    BrokerStep → Except QueueError BrokerAnswer × BrokerBench
  | .declare => bench.call (·.declare queue)
  | .publish body => bench.call (·.publish queue body)
  | .publishText text => bench.call (·.publishText queue text)
  | .ack place id queue => bench.ack place id queue
  | .disconnect => bench.call fun b => .ok b.disconnect
  | .reconnect => bench.call fun b => .ok b.reconnect
  | .peek => (.ok (.peeked (bench.broker.peek queue)), bench)
  | .fetch max block => bench.fetch queue max block

end BrokerBench

end Settlement.Rehearsal
