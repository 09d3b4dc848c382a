import GestureActions.Time.Instant

/-!
# Outputs

Silencing the ringer, broadcasting an action, toggling the torch and vibrating leave
nothing behind but themselves; what the platform shows is read off the list of them,
oldest first.
-/
namespace GestureActions

inductive Output
  | silence
  | broadcast (action : String)
  | torch
  | vibrate (d : Span)
  deriving DecidableEq, Repr

namespace Output

def broadcast? : Output → Option String
  | broadcast a => some a
  | _ => none

def vibration? : Output → Option Span
  | vibrate d => some d
  | _ => none

def silences (l : List Output) : Nat := l.count silence

def broadcasts (l : List Output) : List String := l.filterMap broadcast?

def broadcastCount (a : String) (l : List Output) : Nat := l.count (broadcast a)

def toggles (l : List Output) : Nat := l.count torch

/-- The torch is off at first and each toggle turns it round. -/
def torchIsOn (l : List Output) : Bool := toggles l % 2 = 1

def vibrations (l : List Output) : List Span := l.filterMap vibration?

def withoutBroadcasts (l : List Output) : List Output := l.filter (·.broadcast?.isNone)

end Output

end GestureActions
