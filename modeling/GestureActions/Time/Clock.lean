import GestureActions.Time.Instant

/-!
# A clock moved by hand

Setting replaces the reading, advancing by a span stops at the last instant, and
shifting by a signed number of milliseconds wraps round the 64-bit range.
-/
namespace GestureActions

structure Clock where
  now : Instant
  deriving DecidableEq

namespace Clock

def set (_ : Clock) (t : Instant) : Clock := ⟨t⟩

/-- Whole milliseconds of a length given in seconds and nanoseconds. -/
def wholeMillis (seconds nanos : Nat) : Nat := seconds * 1000 + nanos / 1000000

def advance (c : Clock) (millis : Nat) : Clock :=
  ⟨Instant.nearest (c.now.toInt + min (millis : Int) Instant.last)⟩

def shift (c : Clock) (millis : Int64) : Clock := ⟨c.now + millis⟩

end Clock

end GestureActions
