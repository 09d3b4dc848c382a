import GestureActions.Detector.Poll
import GestureActions.Host.Output
import GestureActions.Host.Power
import GestureActions.Sensor.Reading
import GestureActions.Settings.Preferences

/-!
# Reactions

An observer answers a notice or a reading with a reaction: what it asks before it
looks at its state, what it asks while it changes it, the changed state, and what it
does once the change is made. An observer that is refused something while it changes
its state is lost: the state is given up and the observer stays out of service.
-/
namespace GestureActions

inductive Notice
  | screen (on : Bool)
  | preference (p : Preference) (enabled : Bool)
  deriving DecidableEq, Repr

inductive Request
  | register (s : Sensor)
  | unregister (s : Sensor)
  | vote (c : Client) (v : Vote)
  | power (c : PowerCall)
  | readClock
  | output (o : Output)
  | act
  | record (name : String) (n : Notice)
  deriving DecidableEq, Repr

/-- Where an observer sends its trigger. -/
inductive Sink
  | doze | flashlight | counter
  deriving DecidableEq, Repr

/-- What an observer does after a change. -/
inductive Effect
  | ask (r : Request)
  | fire (s : Sink)
  | inform (s : Sink) (n : Notice)
  deriving DecidableEq, Repr

structure Reaction (ε σ : Type) where
  before : List Request
  during : List Request
  lost : σ
  next : σ
  after : List ε
  deriving DecidableEq, Repr

namespace Reaction

variable {ε σ τ : Type}

def still (s : σ) : Reaction ε σ := ⟨[], [], s, s, []⟩

def asking (before : List Request) (s : σ) : Reaction ε σ := ⟨before, [], s, s, []⟩

def doing (after : List ε) (s : σ) : Reaction ε σ := ⟨[], [], s, s, after⟩

def map (f : σ → τ) (r : Reaction ε σ) : Reaction ε τ :=
  ⟨r.before, r.during, f r.lost, f r.next, r.after⟩

end Reaction

end GestureActions
