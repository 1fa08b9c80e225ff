import Settlement.Power

/-!
# Lengths of time

A duration is a whole number of nanoseconds. The longest one fills a 64-bit count of seconds and
the last nanosecond before the next; sums and multiples past it are refused (`add?`, `scale?`)
except where a wait is meant to be cut to the longest one (`scaleAtMost`).

The text of a duration names the largest unit with a non-zero whole part and drops the zeros at
the end of the fraction.
-/

namespace Settlement

/-- A point on a clock, in nanoseconds since it was started. -/
abbrev Instant := Nat

/-- A length of time in nanoseconds. -/
structure Duration where
  nanos : Nat
  deriving DecidableEq, Inhabited

namespace Duration

def nanosPerSecond : Nat := 1000000000

def nanosPerMilli : Nat := 1000000

def ofSecs (secs : Nat) : Duration := ⟨secs * nanosPerSecond⟩

def ofMillis (millis : Nat) : Duration := ⟨millis * nanosPerMilli⟩

/-- The whole seconds of a duration. -/
def secs (d : Duration) : Nat := d.nanos / nanosPerSecond

/-- The whole milliseconds of a duration. -/
def millis (d : Duration) : Nat := d.nanos / nanosPerMilli

/-- The longest duration: a 64-bit count of seconds and all but one of a second's nanoseconds. -/
def longest : Duration := ⟨twoPow 64 * nanosPerSecond - 1⟩

def InRange (d : Duration) : Prop := d.nanos ≤ longest.nanos

instance (d : Duration) : Decidable d.InRange := inferInstanceAs (Decidable (_ ≤ _))

/-- The sum, where it is a duration. -/
def add? (a b : Duration) : Option Duration :=
  if InRange ⟨a.nanos + b.nanos⟩ then some ⟨a.nanos + b.nanos⟩ else none

/-- The `count`-fold, where it is a duration. -/
def scale? (d : Duration) (count : Nat) : Option Duration :=
  if InRange ⟨d.nanos * count⟩ then some ⟨d.nanos * count⟩ else none

/-- The `count`-fold, cut to the longest duration. -/
def scaleAtMost (d : Duration) (count : Nat) : Duration :=
  ⟨min (d.nanos * count) longest.nanos⟩

/-- Decimal digits of a fraction of `width` places, the zeros at its end left out. -/
def fractionDigits (width value : Nat) : List Char :=
  let digits := (Nat.toDigits 10 value)
  let padded := List.replicate (width - digits.length) '0' ++ digits
  (padded.reverse.dropWhile (· == '0')).reverse

/-- A whole part, a point and a fraction of `width` places, the fraction left out when zero. -/
def decimalText (whole width fraction : Nat) : String :=
  match fractionDigits width fraction with
  | [] => toString whole
  | digits => toString whole ++ "." ++ String.ofList digits

/-- The text of a duration, as in `1.5s`, `100ms`, `1µs` and `0ns`. -/
def text (d : Duration) : String :=
  let part := d.nanos % nanosPerSecond
  if d.secs > 0 then decimalText d.secs 9 part ++ "s"
  else if part ≥ 1000000 then decimalText (part / 1000000) 6 (part % 1000000) ++ "ms"
  else if part ≥ 1000 then decimalText (part / 1000) 3 (part % 1000) ++ "µs"
  else toString part ++ "ns"

end Duration

namespace Instant

/-- One more than the last second of a clock. -/
def clockSecs : Nat := twoPow 63

/-- The instant after a while; none past the end of the clock. -/
def after? (now : Instant) (length : Duration) : Option Instant :=
  if now + length.nanos < clockSecs * Duration.nanosPerSecond then some (now + length.nanos)
  else none

end Instant

end Settlement
