import GestureActions.Motion.Proximity
import GestureActions.Observer.Sentry

/-!
# The alarm silencer

A sentry whose signal is a ringing alarm. A swipe snoozes the alarm, unless it comes
too soon after the ringing started.
-/
namespace GestureActions

inductive AlarmAction
  | alert | snooze | dismiss | done
  deriving DecidableEq, Repr

namespace AlarmAction

def all : List AlarmAction := [alert, snooze, dismiss, done]

def action : AlarmAction → String
  | alert => "com.android.deskclock.ALARM_ALERT"
  | snooze => "com.android.deskclock.ALARM_SNOOZE"
  | dismiss => "com.android.deskclock.ALARM_DISMISS"
  | done => "com.android.deskclock.ALARM_DONE"

def ofAction? (a : String) : Option AlarmAction := all.find? (·.action = a)

def title : AlarmAction → String
  | alert => "Alert"
  | snooze => "Snooze"
  | dismiss => "Dismiss"
  | done => "Done"

def isRinging (a : AlarmAction) : Bool := a = alert

end AlarmAction

def Reading.isSwipe (r : Reading) : Bool := r.sensor = .irGesture && r.gesture? = some .swipe

namespace AlarmSilencer

def hear (enabled : Bool) (now : Instant) (r : Reading) (g : DelayGuard) : List Effect :=
  if r.isSwipe && enabled && g.allows now then
    [.ask (.output (.broadcast AlarmAction.snooze.action))]
  else []

def routine (client : Client) : Routine DelayGuard where
  switch := .silence
  arm now g := (g.arm now, [.register .irGesture, .vote client (.forGestures (.of .swipe)), .readClock])
  disarm g := (g, [.unregister .irGesture, .vote client (.forGestures .empty)])
  ahead r := if r.isSwipe then [.readClock] else []
  hear enabled now r g := (g, [], hear enabled now r g)

def initial (delay : Span) (enabled : Bool) : Sentry DelayGuard := .initial (.ofDelay delay) enabled

end AlarmSilencer

end GestureActions
