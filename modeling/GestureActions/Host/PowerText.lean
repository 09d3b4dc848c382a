import GestureActions.Host.Power
import GestureActions.Json.Record

/-!
# The text of wake holds

A wake hold is a choice.
-/
namespace GestureActions.WakeHold

def all : List WakeHold := [screenBright, screenDim]

def ofJson? : Json → Option WakeHold := Json.choice? all name Json.isNull

end GestureActions.WakeHold
