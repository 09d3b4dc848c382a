/-!
# Instants and spans

An instant counts milliseconds since the epoch in a signed 64-bit word, a span
counts them in an unsigned one. Moving an instant by a span and measuring the gap
between two instants stop at the ends of the range instead of wrapping; a span
longer than any gap between an instant and the last one counts as that last one.
-/
namespace GestureActions

/-- Milliseconds since the epoch. -/
abbrev Instant := Int64

/-- A length of time in milliseconds. -/
abbrev Span := UInt64

namespace Instant

def first : Int := -9223372036854775808
def last : Int := 9223372036854775807

/-- The instant nearest to an integer. -/
def nearest (i : Int) : Instant := Int64.ofInt (max first (min i last))

theorem toInt_nearest (i : Int) : (nearest i).toInt = max first (min i last) := by
  rw [nearest, Int64.toInt_ofInt_of_le] <;> simp only [first, last] <;> omega

theorem first_le_toInt (t : Instant) : first ≤ t.toInt := Int64.le_toInt t

theorem toInt_le_last (t : Instant) : t.toInt ≤ last := by
  have := Int64.toInt_lt t; simp only [last]; omega

end Instant

/-- The milliseconds of a span, at most those of the last instant. -/
def Span.capped (d : Span) : Int := min d.toNat Instant.last

namespace Instant

/-- The instant a span later, or the last one. -/
def later (t : Instant) (d : Span) : Instant := nearest (t.toInt + Span.capped d)

/-- Milliseconds from `start` to `now`, negative if `now` comes first. -/
def since (now start : Instant) : Instant := nearest (now.toInt - start.toInt)

theorem toInt_later (t : Instant) (d : Span) :
    (later t d).toInt = min (t.toInt + Span.capped d) last := by
  have := first_le_toInt t
  have : 0 ≤ Span.capped d := by simp only [Span.capped, last]; omega
  rw [later, toInt_nearest]
  simp only [first, last] at *
  omega

end Instant

end GestureActions
