import GestureActions.Time.Instant

/-!
# Proximity and delay

What the attentive display remembers of the readings since it was armed, and the
delay during which a gesture is taken for an accident. The last instant of a window
is inside it, and so is the first instant after a delay outside that.
-/
namespace GestureActions

structure Proximity where
  objectDetected : Bool
  stowed : Bool
  changedAt : Instant
  armedSince : Instant
  deriving DecidableEq, Repr

namespace Proximity

def initial : Proximity := ⟨false, false, 0, 0⟩

/-- A new session: nothing in front of the screen, not stowed. -/
def arm (now : Instant) : Proximity := ⟨false, false, now, now⟩

def objectChanges (p : Proximity) (v : Bool) : Bool := p.objectDetected != v

def stowChanges (p : Proximity) (v : Bool) : Bool := p.stowed != v

def setObject (p : Proximity) (v : Bool) (now : Instant) : Proximity :=
  { p with objectDetected := v, changedAt := if p.objectChanges v then now else p.changedAt }

def setStowed (p : Proximity) (v : Bool) (now : Instant) : Proximity :=
  { p with stowed := v, changedAt := if p.stowChanges v then now else p.changedAt }

def shouldLock (p : Proximity) : Bool := p.objectDetected && !p.stowed

/-- The last instant of a window that opens at arming. -/
def deadline (p : Proximity) (window : Span) : Instant := Instant.later p.armedSince window

def isWithin (p : Proximity) (now : Instant) (window : Span) : Bool := now ≤ p.deadline window

end Proximity

/-- Lets a gesture through only some time after arming. -/
structure DelayGuard where
  armedAt : Instant
  delay : Span
  deriving DecidableEq, Repr

namespace DelayGuard

def ofDelay (d : Span) : DelayGuard := ⟨0, d⟩

def arm (g : DelayGuard) (now : Instant) : DelayGuard := { g with armedAt := now }

def allows (g : DelayGuard) (now : Instant) : Bool :=
  Span.capped g.delay ≤ (Instant.since now g.armedAt).toInt

end DelayGuard

end GestureActions
