import GestureActions.System.Signals

/-!
# Assembling a world

An observer is added with the client it votes as, if it votes at all, and with what it
asks on the way: a chop-chop listener registers for good, and a voter casts the vote
of one that wants nothing.
-/
namespace GestureActions

inductive Blueprint
  | doze
  | flashlight (sink : Sink)
  | pickup (sink : Sink) (enabled : Bool)
  | unstow (sink : Sink) (enabled : Bool)
  | approach (sink : Sink) (enabled : Bool)
  | attentive (mode : AttentiveMode) (enabled : Bool)
  | recorder (name : String)
  deriving DecidableEq, Repr

namespace World

/-- Appends an observer that asks for something while it is added; notices reach it last. -/
def append (o : Observer) (asked : List Request) (w : World) : World :=
  (performAll .never (.observer w.observers.length) asked
    { w with observers := w.observers ++ [o], order := w.order ++ [w.observers.length] }).state

def add (t : Timings) (b : Blueprint) (w : World) : World :=
  match b with
  | .doze => w.append .doze []
  | .flashlight sink => w.append (.flashlight sink) [.register .chopChop]
  | .pickup sink enabled => w.append (.pickup sink (.initial .initial enabled)) []
  | .unstow sink enabled => w.append (.unstow sink (.initial .initial enabled)) []
  | .approach sink enabled =>
    let (c, poll) := w.poll.enrol
    { w with poll := poll }.append (.approach c sink (.initial () enabled)) [.vote c .withdrawn]
  | .attentive mode enabled =>
    let (c, poll) := w.poll.enrol
    { w with poll := poll }.append
      (.attentive c mode t.stowWindow (.initial (.initial mode t) enabled)) [.vote c .withdrawn]
  | .recorder name => w.append (.recorder name) []

def addAlarm (t : Timings) (enabled : Bool) (w : World) : World :=
  let (c, poll) := w.poll.enrol
  (performAll .never .alarm [.vote c (.forGestures .empty)]
    { w with poll := poll, alarm := some ⟨c, AlarmSilencer.initial t.silenceDelay enabled⟩ }).state

def addCall (t : Timings) (enabled : Bool) (w : World) : World :=
  let (c, poll) := w.poll.enrol
  (performAll .never .call [.vote c (.forGestures .empty)]
    { w with poll := poll, call := some ⟨c, CallSilencer.initial t.silenceDelay enabled⟩ }).state

end World

end GestureActions
