/-!
# Rounding to a binary format

A magnitude is a natural significand times a power of two. A binary format limits
the significand to `precision` bits and the power to at least `lowest`; a quotient of
naturals is rounded to the nearest such magnitude, and a quotient half way between
two goes to the even significand. All of it is integer arithmetic: no quotient is
cut off before it is rounded.
-/
namespace GestureActions

/-- The number `significand * 2 ^ exponent`. -/
structure Magnitude where
  significand : Nat
  exponent : Int
  deriving DecidableEq, Repr

structure BinaryFormat where
  precision : Nat
  lowest : Int
  highest : Int

namespace BinaryFormat

def single : BinaryFormat := ⟨24, -149, 104⟩
def double : BinaryFormat := ⟨53, -1074, 971⟩

/-- The quotient `num / den` in units of `2 ^ e`, again as a quotient. -/
def inUnits (num den : Nat) (e : Int) : Nat × Nat :=
  (num * Nat.pow 2 (-e).toNat, den * Nat.pow 2 e.toNat)

/-- The natural number nearest to a quotient, the even one of two. -/
def nearestEven (num den : Nat) : Nat :=
  let q := num / den
  let r := num % den
  if 2 * r < den then q else if den < 2 * r then q + 1 else q + q % 2

/-- The power of two at or below a positive quotient. -/
def floorLog (num den : Nat) : Int :=
  let k : Int := num.log2 - den.log2
  let (a, b) := inUnits num den k
  if a < b then k - 1 else k

/-- The magnitude of the format nearest to a quotient, before the range is looked at. -/
def round (f : BinaryFormat) (num den : Nat) : Magnitude :=
  if num = 0 then ⟨0, f.lowest⟩ else
    let e := max f.lowest (floorLog num den + 1 - f.precision)
    let (a, b) := inUnits num den e
    let q := nearestEven a b
    if q = Nat.pow 2 f.precision then ⟨Nat.pow 2 (f.precision - 1), e + 1⟩ else ⟨q, e⟩

/-- Whether a rounded magnitude is finite in the format. -/
def admits (f : BinaryFormat) (m : Magnitude) : Bool := m.exponent ≤ f.highest

def mul (f : BinaryFormat) (m n : Magnitude) : Magnitude :=
  let (a, b) := inUnits (m.significand * n.significand) 1 (-(m.exponent + n.exponent))
  f.round a b

def div (f : BinaryFormat) (m n : Magnitude) : Magnitude :=
  let (a, b) := inUnits m.significand n.significand (n.exponent - m.exponent)
  f.round a b

end BinaryFormat

namespace Magnitude

def floor (m : Magnitude) : Nat := m.significand * Nat.pow 2 m.exponent.toNat / Nat.pow 2 (-m.exponent).toNat

/-- A magnitude rounded to a narrower format. -/
def roundTo (f : BinaryFormat) (m : Magnitude) : Magnitude :=
  let (a, b) := BinaryFormat.inUnits m.significand 1 (-m.exponent)
  f.round a b

end Magnitude

end GestureActions
