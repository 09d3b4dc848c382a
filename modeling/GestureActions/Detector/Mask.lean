import GestureActions.Detector.Gesture

/-!
# Capability masks

A mask is a 32-bit word with one bit for each gesture the detector should
recognise. Bits that belong to no gesture are carried along untouched.
-/
namespace GestureActions

structure Mask where
  bits : UInt32
  deriving DecidableEq, Repr

namespace Gesture

def bit (g : Gesture) : UInt32 := 1 <<< UInt32.ofNat g.code

end Gesture

namespace Mask

def empty : Mask := ⟨0⟩
def of (g : Gesture) : Mask := ⟨g.bit⟩
def isEmpty (m : Mask) : Bool := m.bits == 0
def contains (m : Mask) (g : Gesture) : Bool := m.bits &&& g.bit != 0
def union (m n : Mask) : Mask := ⟨m.bits ||| n.bits⟩
def insert (m : Mask) (g : Gesture) : Mask := m.union (of g)

/-- The union written into the first mask. -/
def absorb (m n : Mask) : Mask := { m with bits := m.bits ||| n.bits }

instance : OrOp Mask := ⟨union⟩
instance : HOr Mask Gesture Mask := ⟨insert⟩

def gestures (m : Mask) : List Gesture := Gesture.all.filter m.contains

def ofList (l : List Gesture) : Mask := l.foldl insert empty

/-- Hexadecimal with at least four digits. -/
def text (m : Mask) : String :=
  let digits := Nat.toDigits 16 m.bits.toNat
  "0x" ++ String.ofList (List.replicate (4 - digits.length) '0' ++ digits)

end Mask

end GestureActions
