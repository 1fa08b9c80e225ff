import Settlement.Exchange
import Settlement.Queue.Stream.Entry
import Settlement.Queue.Stream.Position
import Settlement.Redis.Command
import Settlement.Turn

/-!
# A queue as a stream

A queue is a stream of Redis that is read by a consumer of a group. Declaring, publishing and
acknowledging are exchanges of a few commands. A fetch reads what its position says, acknowledges
the entries that hold no message, and is over when it has messages or when it has read new entries.
-/

namespace Settlement

/-- A consumer of a group, and for how long an entry has to be idle before it is taken over. -/
structure StreamReader where
  queue : String
  group : String
  consumer : String
  claimIdle : Duration
  deriving DecidableEq, Inhabited

namespace Queue.Stream

open Redis (Command Reply Fault)

/-- A talk with the server. -/
abbrev Talk (A : Type) := Exchange Command Redis.Result (Except QueueError A)

/-- A group that is there already is no failure. -/
def declared : Redis.Result → Except QueueError Unit
  | .ok _ => .ok ()
  | .error (.refused "BUSYGROUP" _) => .ok ()
  | .error fault => .error fault.toQueue

def declare (queue group : String) : Talk Unit :=
  .ask (.createGroup queue group) fun r => .done (declared r)

/-- The server answers with the id of the new entry. -/
def published (r : Redis.Result) : Except QueueError Unit :=
  match r.bind Reply.text? with
  | .ok _ => .ok ()
  | .error fault => .error fault.toQueue

def publish (queue : String) (body : ByteArray) : Talk Unit :=
  .ask (.append queue body) fun r => .done (published r)

/-- Declares a queue and publishes a text on it. -/
def publishText (queue group text : String) : Talk Unit :=
  (declare queue group).andThen fun
    | .ok () => publish queue text.toUTF8
    | .error e => .done (.error e)

/-- The server answers with the count of the entries that were pending. -/
def acknowledged (r : Redis.Result) : Except QueueError Unit :=
  match r.bind Reply.int? with
  | .ok _ => .ok ()
  | .error fault => .error fault.toQueue

def ack (group : String) (d : Delivery) : Talk Unit :=
  .ask (.acknowledge d.queue group [d.id]) fun r => .done (acknowledged r)

/-- Where a fetch is: choosing what to read, or with the answer to a command. What was read waits
until the entries without a message are acknowledged. -/
inductive FetchStage where
  | choosing
  | replayed (r : Redis.Result)
  | replaySettled (last : Option String) (batch : List Delivery) (r : Redis.Result)
  | swept (r : Redis.Result)
  | sweepSettled (next : String) (batch : List Delivery) (r : Redis.Result)
  | polled (r : Redis.Result)
  | pollSettled (batch : List Delivery) (r : Redis.Result)

/-- A fetch with the position of the stream. -/
structure Fetch where
  position : Position
  stage : FetchStage

/-- What a fetch ends with: messages or a failure, and the position. -/
structure Fetched where
  result : Except QueueError (List Delivery)
  position : Position

/-- What is done at a stage of a fetch. -/
abbrev FetchTurn := Turn Command (fun _ => Redis.Result) Fetch Fetched

end Queue.Stream

namespace StreamReader

open Queue.Stream
open Redis (Command Reply Fault)

/-- The idle time as the server is told it: whole milliseconds in a word of 64 bits. -/
def idleMillis (s : StreamReader) : Nat := s.claimIdle.millis % twoPow 64

/-- How long the server may wait, in milliseconds; never without end. -/
def blockMillis (block : Duration) : Nat := max block.millis 1

/-- Asks for something and goes on at another stage. -/
def asking (position : Position) (command : Command) (stage : Redis.Result → FetchStage) :
    FetchTurn :=
  .ask command none fun r => ⟨position, stage r⟩

def failing (position : Position) (fault : Fault) : FetchTurn :=
  .done ⟨.error fault.toQueue, position⟩

/-- Reads new entries. -/
def poll (s : StreamReader) (max : Nat) (block : Duration) (position : Position) : FetchTurn :=
  asking position (.readNew s.queue s.group s.consumer max (blockMillis block)) .polled

/-- Reads what the position says. -/
def choose (s : StreamReader) (max : Nat) (block : Duration) (now : Instant)
    (position : Position) : FetchTurn :=
  match position.step now with
  | .replay after =>
    asking position (.readPending s.queue s.group s.consumer after max) .replayed
  | .sweep start =>
    asking position (.takeOver s.queue s.group s.consumer s.idleMillis start max) .swept
  | .fresh => s.poll max block position

/-- Acknowledges entries that hold no message, where there are any, and goes on. -/
def settle (s : StreamReader) (position : Position) (unreadable : List String)
    (stage : Redis.Result → FetchStage) (next : FetchTurn) : FetchTurn :=
  if unreadable.isEmpty then next
  else asking position (.acknowledge s.queue s.group unreadable) stage

/-- What is done with a page of the replay. -/
def afterReplay (s : StreamReader) (max : Nat) (block : Duration) (now : Instant)
    (position : Position) (last : Option String) (batch : List Delivery) : FetchTurn :=
  let position := position.replayed last
  if batch.isEmpty then s.choose max block now position else .done ⟨.ok batch, position⟩

/-- What is done with a part of a sweep. -/
def afterSweep (s : StreamReader) (max : Nat) (block : Duration) (now : Instant)
    (position : Position) (next : String) (batch : List Delivery) : FetchTurn :=
  match position.swept? next now s.claimIdle with
  | none => .crash
  | some position =>
    if batch.isEmpty then s.poll max block position else .done ⟨.ok batch, position⟩

/-- What is done at a stage of a fetch of at most `max` messages, which waits at most `block` for
new ones. -/
def fetchTurn (s : StreamReader) (max : Nat) (block : Duration) (now : Instant)
    (f : Fetch) : FetchTurn :=
  let position := f.position
  match f.stage with
  | .choosing => s.choose max block now position
  | .replayed r =>
    match r.bind readEntries with
    | .error fault => failing position fault
    | .ok entries =>
      let (batch, unreadable) := split s.queue true entries
      let last := entries.getLast?.map (·.id)
      s.settle position unreadable (.replaySettled last batch)
        (s.afterReplay max block now position last batch)
  | .replaySettled last batch r =>
    match r.bind Reply.int? with
    | .error fault => failing position fault
    | .ok _ => s.afterReplay max block now position last batch
  | .swept r =>
    match r.bind readTakeOver with
    | .error fault => failing position fault
    | .ok (next, entries) =>
      let (batch, unreadable) := split s.queue true entries
      s.settle position unreadable (.sweepSettled next batch)
        (s.afterSweep max block now position next batch)
  | .sweepSettled next batch r =>
    match r.bind Reply.int? with
    | .error fault => failing position fault
    | .ok _ => s.afterSweep max block now position next batch
  | .polled r =>
    match r.bind readEntries with
    | .error fault => failing position fault
    | .ok entries =>
      let (batch, unreadable) := split s.queue false entries
      s.settle position unreadable (.pollSettled batch) (.done ⟨.ok batch, position⟩)
  | .pollSettled batch r =>
    match r.bind Reply.int? with
    | .error fault => failing position fault
    | .ok _ => .done ⟨.ok batch, position⟩

end StreamReader

end Settlement
