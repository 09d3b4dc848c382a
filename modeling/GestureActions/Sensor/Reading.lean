import GestureActions.Detector.Gesture
import GestureActions.Number.Single

/-!
# Sensors and their readings

A reading is a sensor with a list of axes. The flag sensors speak through axis 0,
where anything but zero is true; the gesture detector writes a gesture's code into
axis 1.
-/
namespace GestureActions

inductive Sensor
  | irGesture | stow | flatUp | chopChop
  deriving DecidableEq, Repr

namespace Sensor

def all : List Sensor := [irGesture, stow, flatUp, chopChop]

def name : Sensor → String
  | irGesture => "ir_gesture"
  | stow => "stow"
  | flatUp => "flat_up"
  | chopChop => "chop_chop"

end Sensor

structure Reading where
  sensor : Sensor
  values : List Single
  deriving DecidableEq, Repr

namespace Reading

/-- The bounds of a signed 32-bit word. -/
def clampWord (i : Int) : Int := max (-2147483648) (min i 2147483647)

def axis? (r : Reading) (i : Nat) : Option Single := r.values[i]?

def flag? (r : Reading) : Option Bool := (r.axis? 0).map (fun v => !v.isZero)

/-- The whole part of axis 1 as a signed 32-bit word; none unless the axis is finite. -/
def code? (r : Reading) : Option Int := ((r.axis? 1).bind Single.truncate?).map clampWord

def gesture? (r : Reading) : Option Gesture := r.code?.bind Gesture.ofCode?

def ofFlag (s : Sensor) (value : Bool) : Reading := ⟨s, [if value then Single.one else Single.zero]⟩

def ofCode (c : Int) : Reading := ⟨.irGesture, [Single.zero, Single.ofInt c, Single.zero]⟩

end Reading

end GestureActions
