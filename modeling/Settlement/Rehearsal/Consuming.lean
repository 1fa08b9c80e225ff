import Settlement.Duration
import Settlement.Queue.Consumer
import Settlement.Rehearsal.Fetching

/-!
# Consuming a queue in memory

A consumer over a broker in memory whose messages name jobs. A job takes its time and then
acknowledges or leaves its message; when it is cancelled before that it does so at once, or goes on
as if nothing had happened. Things happen to the broker at given times, and a shutdown comes at one.

A round is over when the consumer has stopped; what would have happened later is lost.
-/

namespace Settlement.Rehearsal

/-- What a job does when it is cancelled. -/
inductive OnCancel where
  | answer (d : Disposition)
  | ignore
  deriving DecidableEq

/-- How long a job takes, how it ends, and what it does when it is cancelled. -/
structure Job where
  length : Duration
  ending : Disposition
  onCancel : OnCancel
  deriving DecidableEq

namespace Job

/-- The job of a message that names none. -/
def idle : Job := ⟨⟨0⟩, .ack, .answer .abandon⟩

end Job

/-- A job that is being done for a task, until the instant at which it ends by itself. -/
structure Doing where
  task : Nat
  delivery : Delivery
  job : Job
  ends : Instant

/-- A line of the log: a job starts or ends. -/
inductive LogLine where
  | start (instant : Instant) (body : ByteArray) (redelivered : Bool)
  | ended (instant : Instant) (body : ByteArray) (disposition : Disposition)

namespace LogLine

def instant : LogLine → Instant
  | start instant _ _ => instant
  | ended instant _ _ => instant

/-- The text of a line without its time. -/
def text : LogLine → String
  | start _ body redelivered =>
    let again := if redelivered then "true" else "false"
    s!"start {(String.fromUTF8? body).getD default} redelivered={again}"
  | ended _ body disposition =>
    s!"end {(String.fromUTF8? body).getD default} {disposition.name}"

def le (a b : LogLine) : Bool :=
  a.instant < b.instant || (a.instant == b.instant && a.text ≤ b.text)

end LogLine

/-- Something that happens in a round. -/
inductive RoundEvent where
  | broker (f : MemoryBroker → MemoryBroker)
  | shutdown

/-- A round as far as it has come. -/
structure Round where
  now : Instant
  consumer : Consumer
  broker : MemoryBroker
  doing : List Doing
  ahead : List (Instant × RoundEvent)
  log : List LogLine
  peak : Nat

namespace RoundEvent

/-- Put behind everything that happens earlier or at the same time. -/
def insert (instant : Instant) (e : RoundEvent) :
    List (Instant × RoundEvent) → List (Instant × RoundEvent)
  | [] => [(instant, e)]
  | (other, f) :: rest =>
    if instant < other then (instant, e) :: (other, f) :: rest
    else (other, f) :: insert instant e rest

/-- A message that is published, or lost where the connection is. -/
def publish (queue : String) (body : ByteArray) : RoundEvent :=
  broker fun b => Happening.apply b (.publish queue body)

def disconnect : RoundEvent := broker MemoryBroker.disconnect

def reconnect : RoundEvent := broker MemoryBroker.reconnect

end RoundEvent

namespace Round

variable (jobs : ByteArray → Job) (queue : String)

def start (prefetch : Nat) (b : MemoryBroker) (ahead : List (Instant × RoundEvent)) : Round :=
  ⟨0, .start prefetch, b, [], ahead, [], 0⟩

/-- The round after something happened to its consumer. -/
def happen (r : Round) (e : Consumer.Event) : Round :=
  match r.consumer.step e with
  | some consumer => { r with consumer }
  | none => r

/-- A job ends; its message is acknowledged if it says so. -/
def finish (r : Round) (d : Doing) (disposition : Disposition) : Round :=
  let r := { r with
    doing := r.doing.filter (·.task != d.task)
    log := .ended r.now d.delivery.body disposition :: r.log }
  let r := r.happen (.handled d.task disposition)
  match disposition with
  | .abandon => r
  | .ack =>
    match r.broker.ack d.delivery with
    | .ok broker => { r with broker }.happen (.acked d.task (.ok ()))
    | .error e => r.happen (.acked d.task (.error e))

/-- A task starts its job; a job that takes no time ends at once. -/
def begin (r : Round) (t : Task) : Round :=
  let job := jobs t.delivery.body
  let d : Doing := ⟨t.number, t.delivery, job, r.now + job.length.nanos⟩
  let doing := r.doing ++ [d]
  let r := { r with
    doing
    log := .start r.now t.delivery.body t.delivery.redelivered :: r.log
    peak := max r.peak doing.length }
  if d.ends = r.now then r.finish d job.ending else r

/-- Jobs that heed a cancellation end. -/
def cancel (r : Round) : Round :=
  r.doing.foldl (fun r d =>
    match d.job.onCancel with
    | .answer disposition => r.finish d disposition
    | .ignore => r) r

/-- What the consumer does without time passing: none when it waits. -/
def settle? (r : Round) : Option Round :=
  match r.consumer.phase with
  | .declaring =>
    match r.broker.declare queue with
    | .ok broker => some ({ r with broker }.happen (.declared (.ok ())))
    | .error e => some (r.happen (.declared (.error e)))
  | .acquiring =>
    if r.consumer.fault.isSome then some (r.happen .faulted).cancel
    else if 0 < r.consumer.free then some (r.happen .acquired)
    else none
  | .fetching slots =>
    if r.consumer.fault.isSome then some (r.happen .faulted).cancel
    else
      match r.broker.fetch queue slots with
      | .error e => some (r.happen (.fetched (.error e))).cancel
      | .ok ([], _) => none
      | .ok (batch, broker) =>
        let before := r.consumer.started
        let r := { r with broker }.happen (.fetched (.ok batch))
        some ((r.consumer.tasks.filter (before ≤ ·.number)).foldl (begin jobs) r)
  | .stopping _ => if r.consumer.tasks.isEmpty then some (r.happen .drained) else none
  | .stopped _ => none

/-- Something that was planned happens. -/
def occur (r : Round) : RoundEvent → Round
  | .broker f => { r with broker := f r.broker }
  | .shutdown =>
    match r.consumer.step .shutdown with
    | some consumer => { r with consumer }.cancel
    | none => r

/-- The instant at which the next job ends. -/
def nextEnd? (r : Round) : Option Instant := (r.doing.map (·.ends)).min?

/-- All jobs that are due at an instant end, before the consumer goes on. -/
def finishDue (r : Round) (instant : Instant) : Round :=
  let r := { r with now := max r.now instant }
  (r.doing.filter (·.ends ≤ instant)).foldl (fun r d => r.finish d d.job.ending) r

/-- The next thing that takes time: jobs end, or something planned happens. -/
def next? (r : Round) : Option Round :=
  match r.nextEnd?, r.ahead with
  | none, [] => none
  | some ends, [] => some (r.finishDue ends)
  | none, (instant, e) :: rest => some ({ r with now := max r.now instant, ahead := rest }.occur e)
  | some ends, (instant, e) :: rest =>
    if ends ≤ instant then some (r.finishDue ends)
    else some ({ r with now := max r.now instant, ahead := rest }.occur e)

/-- The consumer has stopped. -/
def isOver (r : Round) : Bool :=
  match r.consumer.phase with
  | .stopped _ => true
  | _ => false

/-- The round to its end, at most `fuel` steps of it. -/
def run : Nat → Round → Round
  | 0, r => r
  | fuel + 1, r =>
    if r.isOver then r
    else
      match r.settle? jobs queue with
      | some next => run fuel next
      | none =>
        match r.next? with
        | some next => run fuel next
        | none => r

/-- How the consumer of a round that is over stopped. -/
def ending? (r : Round) : Option Consumer.Ending :=
  match r.consumer.phase with
  | .stopped ending => some ending
  | _ => none

/-- The round after something that happened before it. A shutdown is noticed as soon as the queue is
declared. -/
def foregone (r : Round) : RoundEvent → Round
  | .shutdown => ((r.settle? jobs queue).getD r).occur .shutdown
  | e => r.occur e

/-- The lines of the log by their times, lines of one time by their texts. -/
def lines (r : Round) : List LogLine := r.log.mergeSort LogLine.le

end Round

end Settlement.Rehearsal
