import Settlement.Duration

/-!
# Where a stream is being read

A consumer that connects first replays its own pending entries from the beginning, page by page,
until a page is empty. Then it sweeps: it takes over entries that have been idle for long, part by
part, until the server says that the sweep has come around. Until the next sweep is due, one idle
time later, it reads new entries only.
-/

namespace Settlement.Queue.Stream

/-- What is read next: the consumer's own pending entries behind an id, idle entries of any consumer
from a place on, or new entries. -/
inductive ReadStep where
  | replay (after : String)
  | sweep (start : String)
  | fresh
  deriving DecidableEq

/-- The id before all entries. -/
def replayStart : String := "0"

/-- Where a sweep starts, and what the server gives when one is over. -/
def sweepStart : String := "0-0"

/-- Where a stream is being read: behind which own entry the replay goes on, while it does; where the
sweep goes on; and when the next one is due, once one is over. -/
structure Position where
  replay : Option String
  cursor : String
  nextSweep : Option Instant
  deriving DecidableEq, Inhabited

namespace Position

def start : Position := ⟨some replayStart, sweepStart, none⟩

/-- What is read next. -/
def step (p : Position) (now : Instant) : ReadStep :=
  match p.replay, p.nextSweep with
  | some after, _ => .replay after
  | none, some due => if now < due then .fresh else .sweep p.cursor
  | none, none => .sweep p.cursor

/-- The position after a page of the replay, of which `last` is the last id; an empty page ends the
replay. -/
def replayed (p : Position) (last : Option String) : Position := { p with replay := last }

/-- The position after a part of a sweep that goes on at `next`; none when the next sweep is past the
end of the clock. -/
def swept? (p : Position) (next : String) (now : Instant) (idle : Duration) : Option Position :=
  if next = sweepStart then
    (Instant.after? now idle).map fun due => { p with cursor := next, nextSweep := some due }
  else some { p with cursor := next }

end Position

end Settlement.Queue.Stream
