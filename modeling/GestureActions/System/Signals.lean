import GestureActions.System.World

/-!
# Signals

How the host's signals and the sensors' readings reach the observers. A notice goes
round the observers in their order; a switch goes on to the alarm silencer and the
call silencer. Signals of the alarm and of the line go to their silencer alone. A
reading goes to the parties registered for its sensor when it comes in.
-/
namespace GestureActions.World

def noticeAt (refuses : Refusals) (n : Notice) (i : Nat) (w : World) : Outcome World :=
  w.atObserver refuses i (·.notice w.now n)

def toObservers (refuses : Refusals) (n : Notice) (w : World) : Outcome World :=
  Outcome.each (noticeAt refuses n) w.order w

def screenTurned (refuses : Refusals) (on : Bool) (w : World) : Outcome World :=
  toObservers refuses (.screen on) { w with screen := some on }

def preferenceChanged (refuses : Refusals) (p : Preference) (enabled : Bool) (w : World) :
    Outcome World :=
  (w.toObservers refuses (.preference p enabled)).andThen fun w =>
  (w.atAlarm refuses (fun c s => s.prefer (AlarmSilencer.routine c) w.now p enabled)).andThen fun w =>
  w.atCall refuses (fun c s => s.prefer c w.now p enabled)

/-- A switch by its key; a key that belongs to no switch is passed over. -/
def keyChanged (refuses : Refusals) (key : String) (enabled : Bool) (w : World) : Outcome World :=
  match Preference.ofKey? key with
  | none => .done w
  | some p => w.preferenceChanged refuses p enabled

def alarmTurned (refuses : Refusals) (ringing : Bool) (w : World) : Outcome World :=
  w.atAlarm refuses (fun c s => s.signal (AlarmSilencer.routine c) w.now ringing)

/-- A broadcast of the desk clock; any other is passed over. -/
def alarmBroadcast (refuses : Refusals) (action : String) (w : World) : Outcome World :=
  match AlarmAction.ofAction? action with
  | none => .done w
  | some a => w.alarmTurned refuses a.isRinging

def callChanged (refuses : Refusals) (c : CallState) (w : World) : Outcome World :=
  w.atCall refuses (fun client s => s.callState client w.now c)

/-- Gives a reading to one party, registered or not. -/
def deliver (refuses : Refusals) (r : Reading) (p : Party) (w : World) : Outcome World :=
  match p with
  | .observer i => w.atObserver refuses i (·.hear w.now r)
  | .alarm => w.atAlarm refuses (fun c s => s.hear (AlarmSilencer.routine c) w.now r)
  | .call => w.atCall refuses (fun _ s => s.hear w.now r)
  | .doze | .flashlight => .done w

def hearers (w : World) (r : Reading) : List Party := w.registry.listeners r.sensor

def emit (refuses : Refusals) (r : Reading) (w : World) : Outcome World :=
  Outcome.each (deliver refuses r) (w.hearers r) w

end GestureActions.World
