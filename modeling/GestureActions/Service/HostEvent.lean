import GestureActions.System.Signals

/-!
# Host events

What the platform reports, each event on its way to the observers that follow it.
-/
namespace GestureActions

inductive HostEvent
  | screenOn
  | screenOff
  | alarm (action : String)
  | callState (s : CallState)
  | preference (key : String) (enabled : Bool)
  deriving DecidableEq, Repr

def World.receive (refuses : Refusals) (e : HostEvent) (w : World) : Outcome World :=
  match e with
  | .screenOn => w.screenTurned refuses true
  | .screenOff => w.screenTurned refuses false
  | .alarm a => w.alarmBroadcast refuses a
  | .callState s => w.callChanged refuses s
  | .preference k v => w.keyChanged refuses k v

end GestureActions
