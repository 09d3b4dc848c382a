import GestureActions.Observer.Reaction

/-!
# Sinks

The doze sink asks for a pulse of the ambient display: never while the screen is on,
and not until more than an interval has passed since the last pulse and since the
screen went off. The flashlight sink vibrates and turns the torch round, if its
switch is on.
-/
namespace GestureActions

def dozePulse : String := "com.android.systemui.doze.pulse"

/-- The last pulse, or the instant the screen went off if that is later. -/
structure Throttle where
  lastPulse : Instant
  screenOff : Bool
  deriving DecidableEq, Repr

/-- Without a throttle the sink is out of service. -/
structure Doze where
  interval : Span
  throttle : Option Throttle
  deriving DecidableEq, Repr

namespace Doze

def name : String := "doze_pulse"

def initial (interval : Span) : Doze := ⟨interval, some ⟨Instant.nearest Instant.first, false⟩⟩

def Throttle.allows (interval : Span) (now : Instant) (t : Throttle) : Bool :=
  Span.capped interval < (Instant.since now t.lastPulse).toInt

def fire (screenOn : Bool) (now : Instant) (d : Doze) : Reaction Request Doze :=
  if screenOn then .still d
  else
    match d.throttle with
    | none => .asking [.readClock] d
    | some t =>
      if Throttle.allows d.interval now t then
        ⟨[.readClock], [], { d with throttle := none },
         { d with throttle := some { t with lastPulse := now } }, [.output (.broadcast dozePulse)]⟩
      else .asking [.readClock] d

/-- A screen that goes off starts the interval anew; one that is off already does not. -/
def screen (now : Instant) (on : Bool) (d : Doze) : Reaction Request Doze :=
  match d.throttle with
  | none => .still d
  | some t =>
    if on then .still { d with throttle := some { t with screenOff := false } }
    else if t.screenOff then .still d
    else
      ⟨[], [.readClock], { d with throttle := none }, { d with throttle := some ⟨now, true⟩ }, []⟩

end Doze

structure Flashlight where
  enabled : Bool
  vibration : Span
  deriving DecidableEq, Repr

namespace Flashlight

def name : String := "flashlight"

def fire (f : Flashlight) : List Request :=
  if f.enabled then [.output (.vibrate f.vibration), .output .torch] else []

def prefer (p : Preference) (enabled : Bool) (f : Flashlight) : Flashlight :=
  if p = .flashlight then { f with enabled := enabled } else f

end Flashlight

end GestureActions
