/-!
# Gestures of the infrared detector

The detector reports a gesture by a small code; the same code is the position of
the gesture in a capability mask.
-/
namespace GestureActions

inductive Gesture
  | swipe | approach | cover | depart | hover
  | hoverPulse | proximityNone | hoverFist | objectDetected | objectNotDetected
  deriving DecidableEq, Repr

namespace Gesture

def all : List Gesture :=
  [swipe, approach, cover, depart, hover, hoverPulse, proximityNone, hoverFist,
   objectDetected, objectNotDetected]

def code : Gesture → Nat
  | swipe => 1
  | approach => 2
  | cover => 3
  | depart => 4
  | hover => 5
  | hoverPulse => 6
  | proximityNone => 7
  | hoverFist => 8
  | objectDetected => 9
  | objectNotDetected => 10

def ofCode? (c : Int) : Option Gesture := all.find? (fun g => (g.code : Int) = c)

def name : Gesture → String
  | swipe => "swipe"
  | approach => "approach"
  | cover => "cover"
  | depart => "depart"
  | hover => "hover"
  | hoverPulse => "hover_pulse"
  | proximityNone => "proximity_none"
  | hoverFist => "hover_fist"
  | objectDetected => "object_detected"
  | objectNotDetected => "object_not_detected"

theorem mem_all (g : Gesture) : g ∈ all := by cases g <;> decide

theorem ofCode?_code (g : Gesture) : ofCode? g.code = some g := by cases g <;> rfl

end Gesture

end GestureActions
