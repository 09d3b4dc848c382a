import GestureActions.Observer.Attentive
import GestureActions.Observer.Motion
import GestureActions.Observer.Sinks

/-!
# Observers

Everything that hears of the screen and of the switches, and some of it of sensors:
the sentries with their sinks, the doze sink itself, a chop-chop listener for a sink
that has its own switch, and recorders that only note what they are told.
-/
namespace GestureActions

inductive Observer
  | doze
  | flashlight (sink : Sink)
  | pickup (sink : Sink) (s : Sentry PickupEdge)
  | unstow (sink : Sink) (s : Sentry FallingEdge)
  | approach (client : Client) (sink : Sink) (s : Sentry Unit)
  | attentive (client : Client) (mode : AttentiveMode) (window : Span) (s : Sentry Attentive)
  | recorder (name : String)
  deriving DecidableEq, Repr

namespace Sentry

variable {κ : Type}

/-- A notice for a sentry whose signal is the screen being in one of its two states. -/
def notice (r : Routine κ) (whenOn : Bool) (now : Instant) (n : Notice) (s : Sentry κ) :
    Reaction Effect (Sentry κ) :=
  match n with
  | .screen on => s.signal r now (on == whenOn)
  | .preference p v => s.prefer r now p v

end Sentry

namespace Observer

def name : Observer → String
  | doze => Doze.name
  | flashlight _ => Flashlight.name
  | pickup _ _ => Pickup.name
  | unstow _ _ => Unstow.name
  | approach _ _ _ => Approach.name
  | attentive _ _ _ _ => Attentive.name
  | recorder n => n

def notice (now : Instant) (n : Notice) : Observer → Reaction Effect Observer
  | doze => .doing [.inform .doze n] doze
  | flashlight sink =>
    match n with
    | .screen _ => .still (flashlight sink)
    | .preference _ _ => .doing [.inform sink n] (flashlight sink)
  | pickup sink s => (s.notice (Pickup.routine sink) false now n).map (pickup sink)
  | unstow sink s => (s.notice (Unstow.routine sink) false now n).map (unstow sink)
  | approach c sink s => (s.notice (Approach.routine c sink) false now n).map (approach c sink)
  | attentive c mode w s => (s.notice (Attentive.routine c mode w) true now n).map (attentive c mode w)
  | recorder name => .doing [.ask (.record name n)] (recorder name)

def hear (now : Instant) (r : Reading) : Observer → Reaction Effect Observer
  | doze => .still doze
  | flashlight sink =>
    if r.sensor = .chopChop then .doing [.fire sink] (flashlight sink)
    else .still (flashlight sink)
  | pickup sink s => (s.hear (Pickup.routine sink) now r).map (pickup sink)
  | unstow sink s => (s.hear (Unstow.routine sink) now r).map (unstow sink)
  | approach c sink s => (s.hear (Approach.routine c sink) now r).map (approach c sink)
  | attentive c mode w s => (s.hear (Attentive.routine c mode w) now r).map (attentive c mode w)
  | recorder name => .still (recorder name)

end Observer

end GestureActions
