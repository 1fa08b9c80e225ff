import Settlement.Duration

/-!
# Activities that ask and wait

An activity goes from stage to stage. `Turn` is what it does at a stage: it ends, asks for something
and goes on with the reply, waits and goes on when the time is over, or breaks down. A wait can be
cancelled; asking cannot. Asking and waiting can both be cut short by a deadline (`Cut`), which is
the only moment a deadline is noticed.

The replies are typed by what was asked for, so a stage never holds a reply to something else.
-/

namespace Settlement

/-- Where a wait is cut short, and the stage after that. -/
structure Cut (S : Type) where
  instant : Instant
  resume : S

/-- What an activity with stages `S` and result `A` does at a stage, where `R c` is the type of the
replies to `c`. -/
inductive Turn (C : Type) (R : C → Type) (S A : Type) where
  | done (a : A)
  | ask (call : C) (cut : Option (Cut S)) (resume : R call → S)
  | pause (length : Duration) (cut : Option (Cut S)) (woken cancelled : S)
  | crash

namespace Cut

variable {S S' : Type}

def map (f : S → S') (c : Cut S) : Cut S' := ⟨c.instant, f c.resume⟩

end Cut

namespace Turn

variable {C D : Type} {R : C → Type} {Q : D → Type} {S S' A B : Type}

/-- The turn of an activity that is part of another: its stages lie within the other's, its calls
are the other's calls, and the other goes on where it ends. -/
def within (call : C → D) (reply : ∀ c, Q (call c) → R c) (stage : S → S')
    (next : A → Turn D Q S' B) : Turn C R S A → Turn D Q S' B
  | done a => next a
  | ask c cut resume => ask (call c) (cut.map (Cut.map stage)) fun r => stage (resume (reply c r))
  | pause length cut woken cancelled =>
    pause length (cut.map (Cut.map stage)) (stage woken) (stage cancelled)
  | crash => crash

/-- The same turn as a part of an activity with more stages. -/
def andThen (stage : S → S') (next : A → Turn C R S' B) : Turn C R S A → Turn C R S' B :=
  within id (fun _ r => r) stage next

/-- A turn that is cut short at an instant. -/
def cutAt (instant : Instant) (late : S) : Turn C R S A → Turn C R S A
  | ask c none resume => ask c (some ⟨instant, late⟩) resume
  | pause length none woken cancelled => pause length (some ⟨instant, late⟩) woken cancelled
  | other => other

theorem within_done (call : C → D) (reply : ∀ c, Q (call c) → R c) (stage : S → S')
    (next : A → Turn D Q S' B) (a : A) :
    within call reply stage next (done a : Turn C R S A) = next a := rfl

end Turn

/-- An activity under a deadline: on its way, or over time. -/
inductive Timed (S : Type) where
  | running (deadline : Instant) (stage : S)
  | expired
  deriving DecidableEq, Inhabited

namespace Timed

variable {C : Type} {R : C → Type} {S A : Type}

/-- An activity that has `limit` from now on. -/
def start (now : Instant) (limit : Duration) (stage : S) : Timed S :=
  running (now + limit.nanos) stage

/-- What the activity does, and `late` when its time is over. -/
def turn (inner : S → Turn C R S A) (late : A) : Timed S → Turn C R (Timed S) A
  | running deadline stage =>
    ((inner stage).andThen (running deadline) .done).cutAt deadline expired
  | expired => .done late

end Timed

end Settlement
