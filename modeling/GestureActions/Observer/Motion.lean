import GestureActions.Motion.Edge
import GestureActions.Observer.Sentry

/-!
# Sentries of the dark screen

Three sentries whose signal is the screen being off, each with a sink for its trigger:
lifting the device off a flat surface, taking it out of a pocket, and a hand coming
near the gesture detector.
-/
namespace GestureActions

namespace Pickup

def name : String := "pickup"

def hear (sink : Sink) (enabled : Bool) (r : Reading) (e : PickupEdge) :
    PickupEdge × List Request × List Effect :=
  match r.sensor, r.flag? with
  | .flatUp, some v =>
    let (lifted, e) := e.evaluate v enabled
    (e, [], if lifted then [.fire sink] else [])
  | .stow, some v => (e.setStowed v, [], [])
  | _, _ => (e, [], [])

def routine (sink : Sink) : Routine PickupEdge where
  switch := .pickUp
  arm _ _ := (.initial, [.register .flatUp, .register .stow])
  disarm e := (e, [.unregister .flatUp, .unregister .stow])
  ahead _ := []
  hear enabled _ r e := hear sink enabled r e

end Pickup

namespace Unstow

def name : String := "stow_pickup"

def hear (sink : Sink) (enabled : Bool) (r : Reading) (e : FallingEdge) :
    FallingEdge × List Request × List Effect :=
  match r.sensor, r.flag? with
  | .stow, some v =>
    let (fell, e) := e.update v
    (e, [], if fell && enabled then [.fire sink] else [])
  | _, _ => (e, [], [])

def routine (sink : Sink) : Routine FallingEdge where
  switch := .pickUp
  arm _ _ := (.initial, [.register .stow])
  disarm e := (e, [.unregister .stow])
  ahead _ := []
  hear enabled _ r e := hear sink enabled r e

end Unstow

namespace Approach

def name : String := "ir_approach"

def isTrigger (r : Reading) : Bool := r.sensor = .irGesture && r.gesture? = some .approach

def routine (client : Client) (sink : Sink) : Routine Unit where
  switch := .approach
  arm _ _ := ((), [.register .irGesture, .vote client ⟨true, .of .approach⟩])
  disarm _ := ((), [.unregister .irGesture, .vote client .withdrawn])
  ahead _ := []
  hear enabled _ r _ := ((), [], if isTrigger r && enabled then [.fire sink] else [])

end Approach

end GestureActions
