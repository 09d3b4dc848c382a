import GestureActions.Service.HostEvent
import GestureActions.System.Assembly

/-!
# The service

Assembles every observer from a configuration and the host's stored switches, and
tells them at once whether the screen is on, so that the right ones start armed. The
doze sink comes first: a screen that goes off restarts its throttle before any
observer can fire it.
-/
namespace GestureActions

structure Service where
  config : Config
  preferences : Preferences
  world : World

namespace Service

/-- The observers in the order in which they hear of the screen and of the switches. -/
def blueprints (mode : AttentiveMode) (p : Preferences) : List Blueprint :=
  [.doze, .flashlight .flashlight, .pickup .doze p.pickUp, .unstow .doze p.pickUp,
   .approach .doze p.approach, .attentive mode p.attentive]

/-- The place of the attentive display among the observers. -/
def attentiveAt : Nat := 5

def assemble (c : Config) (p : Preferences) (start : Instant) : World :=
  let t := c.timings
  let bare := World.initial start t.dozeInterval t.vibration p.flashlight
  (((blueprints c.mode p).foldl (fun w b => w.add t b) bare).addCall t p.silence).addAlarm t p.silence

/-- Starts the service, unless the configuration is refused. -/
def start (c : Config) (store : PreferenceStore) (interactive : Bool) (now : Instant) :
    Except ConfigError Service :=
  match c.check with
  | .error e => .error e
  | .ok c =>
    let p := c.preferences.overlay store
    .ok ⟨c, p, ((assemble c p now).screenTurned .never interactive).state⟩

end Service

end GestureActions
