import GestureActions.Json.Printer
import GestureActions.Json.Reader
import GestureActions.Json.Record
import GestureActions.Settings.Config

/-!
# The text of a configuration

A configuration is a record of three, its switches and its spans are records of their
own, and whatever is left out has its usual value. A text that spells no configuration
is malformed; one that does is checked.
-/
namespace GestureActions

def Preference.ofJson? : Json → Option Preference := Json.choice? all key Json.isNull

namespace Preferences

def fieldNames : List String := Preference.all.map Preference.key

def ofJson? (j : Json) : Option Preferences := do
  match ← j.fields? fieldNames with
  | [a, b, c, d, e] =>
    let read (p : Preference) := Json.orDefault p.byDefault Json.bool?
    some ⟨← read .approach a, ← read .silence b, ← read .attentive c, ← read .pickUp d,
      ← read .flashlight e⟩
  | _ => none

def toJson (s : Preferences) : Json :=
  .record (Preference.all.map (fun p => (p.key, .bool (s.get p))))

end Preferences

namespace Timings

def fieldNames : List String :=
  ["silence_delay_ms", "stow_window_ms", "dim_hold_ms", "doze_pulse_interval_ms",
   "flashlight_vibrate_ms"]

def ofJson? (j : Json) : Option Timings := do
  match ← j.fields? fieldNames with
  | [a, b, c, d, e] =>
    let read (d : Span) := Json.orDefault d Json.span?
    some ⟨← read byDefault.silenceDelay a, ← read byDefault.stowWindow b, ← read byDefault.dimHold c,
      ← read byDefault.dozeInterval d, ← read byDefault.vibration e⟩
  | _ => none

/-- The spans in the order of the fields. -/
def toList (t : Timings) : List Span :=
  [t.silenceDelay, t.stowWindow, t.dimHold, t.dozeInterval, t.vibration]

def toJson (t : Timings) : Json :=
  .record (fieldNames.zip (t.toList.map (fun d => .ofNat d.toNat)))

end Timings

namespace AttentiveMode

def ofJson? : Json → Option AttentiveMode := Json.choice? all name Json.isNull

def toJson (m : AttentiveMode) : Json := .ofString m.name

end AttentiveMode

namespace Config

def fieldNames : List String := ["preferences", "timings", "attentive_mode"]

def ofJson? (j : Json) : Option Config := do
  match ← j.fields? fieldNames with
  | [a, b, c] =>
    some ⟨← Json.orDefault byDefault.preferences Preferences.ofJson? a,
      ← Json.orDefault byDefault.timings Timings.ofJson? b,
      ← Json.orDefault byDefault.mode AttentiveMode.ofJson? c⟩
  | _ => none

def toJson (c : Config) : Json :=
  .record [("preferences", c.preferences.toJson), ("timings", c.timings.toJson),
    ("attentive_mode", c.mode.toJson)]

def ofText? (s : String) : Option Config := (Json.read s).bind ofJson?

def ofText (s : String) : Except ConfigError Config :=
  match ofText? s with
  | none => .error .malformed
  | some c => c.check

/-- What was found where a configuration file was looked for. -/
inductive Found
  | nothing
  | directory
  | bytes (b : ByteArray)

def ofFile (path : String) : Found → Except ConfigError Config
  | .nothing => .error (.unreadable path .notFound)
  | .directory => .error (.unreadable path .isADirectory)
  | .bytes b =>
    match String.fromUTF8? b with
    | none => .error (.unreadable path .invalidData)
    | some s => ofText s

end Config

end GestureActions
