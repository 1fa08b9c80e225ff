import Settlement.Rehearsal.Locking
import Settlement.Rehearsal.Report

/-!
# Sessions

A session is a row of steps over one world: messages are worked on, one or several at a time; locks
are taken and given back from outside; time passes; collaborators change. After the work on messages
a report tells what it did.
-/

namespace Settlement.Rehearsal

/-- A bench with the leases that were taken from outside, and the count of mails that reports have
told of. -/
structure Session where
  bench : Bench
  leases : List (String × Lease)
  mails : Nat

/-- A step of a session. -/
inductive SessionStep where
  | process (body : ByteArray) (cancelAfter : Option Duration)
      (confirmedAfter : Option (Duration × String))
  | concurrent (bodies : List ByteArray)
  | lock (step : LockStep)
  | change (f : World → World)

/-- What the work of a step did, with the bodies of the mails that are new. -/
structure WorkReport where
  started : Instant
  ended : Instant
  outcomes : List Outcome
  visits : List Visit
  lockCalls : List LockCall
  mails : List ByteArray
  store : Store

/-- What comes of a step. -/
inductive SessionAnswer where
  | worked (report : WorkReport)
  | locked (answer : LockAnswer)
  | changed

namespace Session

def start (world : World) : Session := ⟨.idle world, [], 0⟩

/-- Workers do their work; none when one of them breaks down. -/
def work (s : Session) (v : Verifier) (workers : List (Worker Activity (Option Outcome))) :
    Option (WorkReport × Session) :=
  let before := s.bench.clear
  let bench := before.work v workers
  let waiting := bench.world.broker.peek Queue.emails
  if bench.hasCrashed then none
  else
    some (⟨before.now, bench.now, bench.outcomes, visits askVisit? bench.log, lockCalls bench.log,
      waiting.drop s.mails, bench.world.store⟩, { s with bench, mails := waiting.length })

/-- A step with the locks of the session's world. -/
def lockStep (s : Session) (v : Verifier) (step : LockStep) : LockAnswer × Session :=
  let bench := s.bench.clear
  match step with
  | .advance length => (.advanced, { s with bench := bench.pass v length })
  | step =>
    let (answer, locks) :=
      LockBench.step ⟨bench.now, bench.world.locks, s.leases⟩ step
    let world := { bench.world with locks := locks.locks }
    (answer, { s with bench := { bench with world }, leases := locks.leases })

/-- The work on a message, with somebody outside who may confirm a payment meanwhile. -/
def processing (s : Session) (body : ByteArray) (cancelAfter : Option Duration)
    (confirmedAfter : Option (Duration × String)) : List (Worker Activity (Option Outcome)) :=
  let cancelAt := cancelAfter.map fun length => s.bench.now + length.nanos
  let outsiders := confirmedAfter.toList.map fun (wait, hash) => Bench.outsider wait hash
  .begin (.start body) cancelAt :: outsiders

/-- One step of a session; none when a worker breaks down. -/
def step (s : Session) (v : Verifier) : SessionStep → Option (SessionAnswer × Session)
  | .process body cancelAfter confirmedAfter =>
    (s.work v (s.processing body cancelAfter confirmedAfter)).map fun (report, s) =>
      (.worked report, s)
  | .concurrent bodies =>
    (s.work v (bodies.map fun body => .begin (.start body) none)).map fun (report, s) =>
      (.worked report, s)
  | .lock step =>
    let (answer, s) := s.lockStep v step
    some (.locked answer, s)
  | .change f =>
    let bench := s.bench.clear
    some (.changed, { s with bench := { bench with world := f bench.world } })

end Session

end Settlement.Rehearsal
