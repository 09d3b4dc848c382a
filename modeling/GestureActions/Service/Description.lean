import GestureActions.Service.Basic
import GestureActions.Text.Hidden
import GestureActions.Text.Quoted

/-!
# Descriptions

The observers and the service spelled out on one line: a title, the fields that are
shown with their values, and two dots for those that are not.
-/
namespace GestureActions

def describeFields (title : String) (fields : List (String × String)) : String :=
  title ++ " \x7b " ++ String.intercalate ", " (fields.map (fun f => f.1 ++ ": " ++ f.2)) ++ " \x7d"

def describeSome (title : String) (fields : List (String × String)) : String :=
  title ++ " \x7b " ++ String.join (fields.map (fun f => f.1 ++ ": " ++ f.2 ++ ", ")) ++ ".. \x7d"

def Preferences.describe (s : Preferences) : String :=
  describeFields "Preferences" (Preference.all.map (fun p => (p.key, toString (s.get p))))

def Timings.describe (t : Timings) : String :=
  describeFields "Timings"
    [("silence_delay_ms", toString t.silenceDelay.toNat), ("stow_window_ms", toString t.stowWindow.toNat),
     ("dim_hold_ms", toString t.dimHold.toNat), ("doze_pulse_interval_ms", toString t.dozeInterval.toNat),
     ("flashlight_vibrate_ms", toString t.vibration.toNat)]

def Config.describe (c : Config) : String :=
  describeFields "ActionsConfig"
    [("preferences", c.preferences.describe), ("timings", c.timings.describe),
     ("attentive_mode", c.mode.title)]

def Setting.describe (s : Setting) : String :=
  describeFields "DetectorConfig"
    [("active", toString s.active), ("mask", "CapabilityMask(" ++ toString s.mask.bits.toNat ++ ")")]

namespace World

/-- The names of the observers, in the order in which notices go round. -/
def observerNames (w : World) : List String :=
  w.order.filterMap (fun i => w.observers[i]?.map Observer.name)

def describe (w : World) : String :=
  describeSome "LifecycleCoordinator"
    [("observers",
      "[" ++ String.intercalate ", " (w.observerNames.map (Text.quoted Text.isHidden)) ++ "]"),
     ("alarm_silencer", toString w.alarm.isSome), ("call_silencer", toString w.call.isSome)]

end World

def Service.describe (s : Service) : String :=
  describeSome "ActionsService"
    [("config", s.config.describe), ("coordinator", s.world.describe),
     ("published", s.world.poll.published.describe)]

end GestureActions
