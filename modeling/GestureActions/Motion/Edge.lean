/-!
# Edges

A falling edge is a false reading right after a true one. Being picked up is a
falling edge of the flat sensor while the device is not stowed; the edge is used up
even when it is stowed.
-/
namespace GestureActions

structure FallingEdge where
  last : Bool
  deriving DecidableEq, Repr

namespace FallingEdge

def initial : FallingEdge := ⟨false⟩

/-- Takes a reading in; whether it falls. -/
def update (e : FallingEdge) (v : Bool) : Bool × FallingEdge := (e.last && !v, ⟨v⟩)

end FallingEdge

structure PickupEdge where
  flat : FallingEdge
  stowed : Bool
  deriving DecidableEq, Repr

namespace PickupEdge

def initial : PickupEdge := ⟨.initial, false⟩

def setStowed (e : PickupEdge) (v : Bool) : PickupEdge := { e with stowed := v }

/-- Takes a reading of the flat sensor in; whether the device was picked up. -/
def evaluate (e : PickupEdge) (v enabled : Bool) : Bool × PickupEdge :=
  let (fell, flat) := e.flat.update v
  (fell && !e.stowed && enabled, { e with flat := flat })

end PickupEdge

end GestureActions
