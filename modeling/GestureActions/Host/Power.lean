import GestureActions.Time.Instant

/-!
# Wake holds

What was asked of the power service, oldest call first, and what follows from it. A
hold without a time limit lasts until it is released; one with a limit ends by itself
and counts for nothing here.
-/
namespace GestureActions

inductive WakeHold
  | screenBright | screenDim
  deriving DecidableEq, Repr

def WakeHold.name : WakeHold → String
  | .screenBright => "screen_bright"
  | .screenDim => "screen_dim"

inductive PowerCall
  | acquire (w : WakeHold)
  | acquireFor (w : WakeHold) (d : Span)
  | release (w : WakeHold)
  deriving DecidableEq, Repr

namespace PowerCall

/-- Whether a hold is outstanding after a call, given whether it was before. -/
def holds (w : WakeHold) (held : Bool) : PowerCall → Bool
  | acquire v => if v = w then true else held
  | release v => if v = w then false else held
  | acquireFor _ _ => held

/-- Whether an untimed hold is outstanding. -/
def isHeld (w : WakeHold) (calls : List PowerCall) : Bool := calls.foldl (holds w) false

def acquireCount (w : WakeHold) (calls : List PowerCall) : Nat := calls.count (acquire w)

def releaseCount (w : WakeHold) (calls : List PowerCall) : Nat := calls.count (release w)

def isTimed (w : WakeHold) : PowerCall → Bool
  | acquireFor v _ => v = w
  | _ => false

def timedCount (w : WakeHold) (calls : List PowerCall) : Nat := calls.countP (isTimed w)

end PowerCall

end GestureActions
