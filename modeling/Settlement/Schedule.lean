import Settlement.Turn

/-!
# Activities on a virtual clock

A system of workers that share one world. Time stands still while a worker can go on and jumps to
the next end of a wait when all of them wait; of two waits that end at once the one that was begun
first ends first. A worker goes on until it has to wait.

When a wait begins it is settled how it ends: by itself, if that is not after its deadline, else at
the deadline, unless a cancellation comes before. `System.step` is one turn of one worker.
-/

namespace Settlement

/-- A reply, how long it takes, and the world after it was asked for. -/
structure Answer (W ρ : Type) where
  reply : ρ
  delay : Duration
  world : W

/-- The stages of an activity, and the world that answers its calls. -/
structure Machine (C : Type) (R : C → Type) (W S A : Type) where
  turn : Instant → S → Turn C R S A
  answer : Instant → (call : C) → W → Answer W (R call)

/-- Where a worker is: able to go on, in a wait that ends at an instant, finished, or broken down.
Waits are numbered in the order in which they begin. -/
inductive Status (S A : Type) where
  | ready (stage : S)
  | waiting (wake : Instant) (ticket : Nat) (stage : S)
  | finished (instant : Instant) (a : A)
  | crashed

/-- An activity with the instant at which it is cancelled, if it is. Nobody waits for a worker in
the background. -/
structure Worker (S A : Type) where
  cancelAt : Option Instant
  background : Bool
  status : Status S A

/-- A call that was made, and the reply to it. -/
structure Entry (C : Type) (R : C → Type) where
  instant : Instant
  worker : Nat
  call : C
  reply : R call

/-- Workers, the world they share, and the calls they made, latest first. -/
structure System (C : Type) (R : C → Type) (W S A : Type) where
  now : Instant
  world : W
  workers : List (Worker S A)
  tickets : Nat
  log : List (Entry C R)

namespace Status

variable {S A : Type}

/-- The worker does nothing any more. -/
def isOver : Status S A → Bool
  | finished _ _ => true
  | crashed => true
  | _ => false

/-- A wait that ends at `wake`; no wait if that is not ahead. -/
def waitUntil (now wake : Instant) (ticket : Nat) (stage : S) : Status S A :=
  if wake ≤ now then ready stage else waiting wake ticket stage

end Status

/-- How a wait that would take until `natural` ends: by itself, or cut short. -/
def endOfWait {S : Type} (now natural : Instant) (cut : Option (Cut S)) (stage : S) :
    Instant × S :=
  match cut with
  | none => (natural, stage)
  | some cut =>
    if natural ≤ cut.instant then (natural, stage) else (max now cut.instant, cut.resume)

/-- How a wait ends that may be cancelled. -/
def endOfPause {S : Type} (now natural : Instant) (cut : Option (Cut S)) (woken cancelled : S)
    (cancelAt : Option Instant) : Instant × S :=
  let (wake, stage) := endOfWait now natural cut woken
  match cancelAt with
  | none => (wake, stage)
  | some instant =>
    if max now instant ≤ wake then (max now instant, cancelled) else (wake, stage)

namespace System

variable {C : Type} {R : C → Type} {W S A : Type}

/-- The first worker that is able to go on, counted from `index`, and its stage. -/
def firstReady : Nat → List (Worker S A) → Option (Nat × S)
  | _, [] => none
  | index, worker :: rest =>
    match worker.status with
    | .ready stage => some (index, stage)
    | _ => firstReady (index + 1) rest

/-- The worker whose wait ends first, counted from `index`: its place, the end of the wait, the
wait's number and the stage after it. -/
def firstWoken : Nat → List (Worker S A) → Option (Nat × Instant × Nat × S)
  | _, [] => none
  | index, worker :: rest =>
    match worker.status, firstWoken (index + 1) rest with
    | .waiting wake ticket stage, none => some (index, wake, ticket, stage)
    | .waiting wake ticket stage, some (other, wake', ticket', stage') =>
      if wake < wake' ∨ (wake = wake' ∧ ticket < ticket') then some (index, wake, ticket, stage)
      else some (other, wake', ticket', stage')
    | _, best => best

/-- The worker that goes on next, the instant at which it does, and its stage: the first one that is
able to, else the one whose wait ends first. -/
def next? (sys : System C R W S A) : Option (Nat × Instant × S) :=
  match firstReady 0 sys.workers with
  | some (index, stage) => some (index, sys.now, stage)
  | none =>
    (firstWoken 0 sys.workers).map fun (index, wake, _, stage) => (index, max sys.now wake, stage)

/-- The worker at `index` with another status. -/
def setStatus (sys : System C R W S A) (index : Nat) (status : Status S A) : System C R W S A :=
  { sys with workers := sys.workers.modify index fun worker => { worker with status } }

/-- The worker at `index` takes the turn of `stage`. -/
def advance (m : Machine C R W S A) (sys : System C R W S A) (index : Nat) (stage : S) :
    System C R W S A :=
  match m.turn sys.now stage with
  | .done a => sys.setStatus index (.finished sys.now a)
  | .crash => sys.setStatus index .crashed
  | .ask call cut resume =>
    let answer := m.answer sys.now call sys.world
    let (wake, stage) :=
      endOfWait sys.now (sys.now + answer.delay.nanos) cut (resume answer.reply)
    { sys.setStatus index (.waitUntil sys.now wake sys.tickets stage) with
      world := answer.world
      tickets := sys.tickets + 1
      log := ⟨sys.now, index, call, answer.reply⟩ :: sys.log }
  | .pause length cut woken cancelled =>
    let cancelAt := (sys.workers[index]?).bind (·.cancelAt)
    let (wake, stage) :=
      endOfPause sys.now (sys.now + length.nanos) cut woken cancelled cancelAt
    { sys.setStatus index (.waitUntil sys.now wake sys.tickets stage) with
      tickets := sys.tickets + 1 }

/-- One turn of the next worker; none when every worker is over. -/
def step (m : Machine C R W S A) (sys : System C R W S A) : Option (System C R W S A) :=
  sys.next?.map fun (index, instant, stage) => advance m { sys with now := instant } index stage

/-- The workers that are waited for are over. -/
def isSettled (sys : System C R W S A) : Bool :=
  sys.workers.all fun worker => worker.background || worker.status.isOver

/-- Turns until the workers that are waited for are over, at most `fuel` of them. -/
def run (m : Machine C R W S A) : Nat → System C R W S A → System C R W S A
  | 0, sys => sys
  | fuel + 1, sys =>
    if sys.isSettled then sys
    else
      match sys.step m with
      | some next => run m fuel next
      | none => sys

/-- A worker has broken down. -/
def hasCrashed (sys : System C R W S A) : Bool :=
  sys.workers.any fun worker => match worker.status with
    | .crashed => true
    | _ => false

/-- The results of the workers that are finished, in their order. -/
def results (sys : System C R W S A) : List A :=
  sys.workers.filterMap fun worker => match worker.status with
    | .finished _ a => some a
    | _ => none

end System

/-- Turns enough for every run that ends. -/
def enough : Nat := twoPow 62

namespace Worker

variable {S A : Type}

/-- A worker at the start of its activity. -/
def begin (stage : S) (cancelAt : Option Instant) : Worker S A := ⟨cancelAt, false, .ready stage⟩

end Worker

end Settlement
