import GestureActions.Number.Numeral

/-!
# Single precision

A single-precision number is no number, an infinity, or a sign and a magnitude of the
format. Integers and doubles come in by rounding; going back to an integer drops the
fraction.
-/
namespace GestureActions

inductive Single
  | nan
  | infinite (negative : Bool)
  | finite (negative : Bool) (size : Magnitude)
  deriving DecidableEq, Repr

namespace Single

def ofRounded (negative : Bool) (m : Magnitude) : Single :=
  if BinaryFormat.single.admits m then finite negative m else infinite negative

def ofInt (i : Int) : Single := ofRounded (i < 0) (BinaryFormat.single.round i.natAbs 1)

def zero : Single := ofInt 0
def one : Single := ofInt 1

/-- A numeral read in double precision first and then rounded. -/
def ofNumeral? (n : Numeral) : Option Single :=
  n.double?.map (fun m => ofRounded n.negative (m.roundTo .single))

/-- A numeral whose integers are rounded but once. -/
def ofExactNumeral? (n : Numeral) : Option Single :=
  match n.word? with
  | some i => some (ofInt i)
  | none => ofNumeral? n

def isZero : Single → Bool
  | finite _ m => m.significand = 0
  | _ => false

/-- The whole part of a finite number, its fraction dropped. -/
def truncate? : Single → Option Int
  | finite negative m => some (if negative then -(m.floor : Int) else m.floor)
  | _ => none

def signBit (negative : Bool) : UInt32 := if negative then 0x80000000 else 0

/-- The interchange encoding; a number that is none has no fixed one. -/
def bits? : Single → Option UInt32
  | nan => none
  | infinite negative => some (signBit negative ||| 0x7f800000)
  | finite negative m =>
    if m.significand < Nat.pow 2 23 then some (signBit negative ||| UInt32.ofNat m.significand)
    else some (signBit negative |||
      UInt32.ofNat ((m.exponent + 150).toNat * Nat.pow 2 23 + (m.significand - Nat.pow 2 23)))

end Single

end GestureActions
