import GestureActions.Number.Binary

/-!
# Decimal numerals

A numeral is what a text says about a number: its sign, its whole and fractional
digits and its power of ten. Read as an integer it must be written as one; read in
double precision its digits are gathered into a 64-bit significand, as many as fit,
and the significand is multiplied or divided by a power of ten in double precision.
-/
namespace GestureActions

/-- A sign and the digits of a power of ten. -/
structure TenPower where
  negative : Bool
  digits : List Nat
  deriving DecidableEq, Repr

structure Numeral where
  negative : Bool
  whole : List Nat
  fraction : List Nat
  power : Option TenPower
  deriving DecidableEq, Repr

namespace Numeral

def valueOf (digits : List Nat) : Nat := digits.foldl (fun n d => 10 * n + d) 0

def natural? (n : Numeral) : Option Nat :=
  if n.fraction.isEmpty && n.power.isNone then some (valueOf n.whole) else none

/-- An integer within an unsigned range; a sign is out of range even before zero. -/
def below? (n : Numeral) (bound : Nat) : Option Nat := do
  let v ← n.natural?
  if !n.negative && v < bound then some v else none

/-- A numeral that is kept as an integer: one that a 64-bit word holds, signed only if
it is below zero. -/
def word? (n : Numeral) : Option Int := do
  let v ← n.natural?
  if n.negative then (if 0 < v && v ≤ Nat.pow 2 63 then some (-v) else none)
  else if v < Nat.pow 2 64 then some v else none

def fits (v : Nat) : Bool := v < Nat.pow 2 64

/-- Whole digits added to a significand while they fit; the others count as powers of ten. -/
def gatherWhole : Nat → List Nat → Nat × Int
  | s, [] => (s, 0)
  | s, d :: r => if fits (s * 10 + d) then gatherWhole (s * 10 + d) r else (s, (d :: r).length)

/-- Fractional digits added while they fit; the others are dropped. -/
def gatherFraction : Nat → Int → List Nat → Nat × Int
  | s, e, [] => (s, e)
  | s, e, d :: r => if fits (s * 10 + d) then gatherFraction (s * 10 + d) (e - 1) r else (s, e)

def TenPower.value (p : TenPower) : Int :=
  if p.negative then -(valueOf p.digits : Int) else valueOf p.digits

def gather (n : Numeral) : Nat × Int :=
  let (s, e) := gatherWhole 0 n.whole
  let (s, e) := gatherFraction s e n.fraction
  (s, e + (n.power.elim 0 TenPower.value))

/-- The largest power of ten that double precision holds. -/
def largestTen : Nat := 308

def tenTo (k : Nat) : Magnitude := BinaryFormat.double.round (Nat.pow 10 k) 1

/-- Division by a large power of ten in steps, until nothing is left. -/
def shrink (rest : Nat) : Nat → Magnitude → Magnitude
  | 0, m => BinaryFormat.double.div m (tenTo rest)
  | steps + 1, m =>
    if m.significand = 0 then m
    else shrink rest steps (BinaryFormat.double.div m (tenTo largestTen))

/-- The numeral in double precision, without its sign; nothing if it is out of range. -/
def double? (n : Numeral) : Option Magnitude :=
  let (s, e) := n.gather
  let m := BinaryFormat.double.round s 1
  if m.significand = 0 then some m
  else if e < 0 then
    let k := e.natAbs
    some (shrink ((k - 1) % largestTen + 1) ((k - 1) / largestTen) m)
  else if e ≤ largestTen then
    let p := BinaryFormat.double.mul m (tenTo e.toNat)
    if BinaryFormat.double.admits p then some p else none
  else none

def isFinite (n : Numeral) : Bool := n.double?.isSome

end Numeral

end GestureActions
