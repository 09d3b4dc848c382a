import GestureActions.Sensor.Registry

/-!
# Delivering readings

A hub is a registry together with the sensors it was asked to register and to
unregister, in order. A reading goes to the listeners registered when it comes in;
what a listener asks of the hub while it is told takes effect at once, but does not
change who else is told.
-/
namespace GestureActions

structure Hub (ι : Type) where
  registry : Registry ι
  registered : List Sensor
  unregistered : List Sensor

inductive HubOrder (ι : Type)
  | register (s : Sensor) (l : ι)
  | unregister (s : Sensor) (l : ι)

namespace Hub

variable {ι : Type} [DecidableEq ι]

def empty : Hub ι := ⟨.empty, [], []⟩

def obey (h : Hub ι) : HubOrder ι → Hub ι
  | .register s l => { h with registry := h.registry.register s l, registered := h.registered ++ [s] }
  | .unregister s l =>
    { h with registry := h.registry.unregister s l, unregistered := h.unregistered ++ [s] }

/-- Tells the listeners of a list one after another, each followed by what it asks for;
gives back who was told. -/
def tell (react : ι → List (HubOrder ι)) : List ι → Hub ι → Hub ι × List ι
  | [], h => (h, [])
  | l :: r, h =>
    let (h, told) := tell react r ((react l).foldl obey h)
    (h, l :: told)

/-- Delivers a reading of a sensor; the listeners told, in order. -/
def emit (react : ι → List (HubOrder ι)) (s : Sensor) (h : Hub ι) : Hub ι × List ι :=
  tell react (h.registry.listeners s) h

end Hub

end GestureActions
