import GestureActions.Json.Record
import GestureActions.Sensor.Reading

/-!
# The text of gestures, sensors and readings

Gestures and sensors are choices; a reading is a record
of a sensor and its axes, neither of which may be left out.
-/
namespace GestureActions

def Gesture.ofJson? : Json → Option Gesture := Json.choice? all name Json.isNull

def Sensor.ofJson? : Json → Option Sensor := Json.choice? all name Json.isNull

namespace Reading

def fieldNames : List String := ["sensor", "values"]

/-- One axis; integers are rounded but once. -/
def axisOfJson? : Json → Option Single
  | .number n => Single.ofExactNumeral? n
  | _ => none

def ofJson? (j : Json) : Option Reading := do
  match ← j.fields? fieldNames with
  | [s, v] =>
    some ⟨← Json.required Sensor.ofJson? s, ← Json.required (Json.list? axisOfJson?) v⟩
  | _ => none

end Reading

end GestureActions
