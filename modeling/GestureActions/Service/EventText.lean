import GestureActions.Json.Printer
import GestureActions.Json.Reader
import GestureActions.Json.Record
import GestureActions.Service.HostEvent

/-!
# The text of a host event

An event is an object whose member `type` names its kind, anywhere among the members,
or an array that begins with the kind. The whole text is decoded before the kind is
looked at, so that a member that means nothing must still hold text and numbers that
can be decoded, and nothing may be nested too deep.
-/
namespace GestureActions

namespace CallState

def ofJson? : Json → Option CallState := Json.choice? all name Json.isNull

/-- The state within an event, whose object form may hold an empty object. -/
def ofMember? : Json → Option CallState := Json.choice? all name Json.isEmpty

end CallState

namespace HostEvent

def kindMember : String := "type"

/-- The deepest nesting that is decoded. -/
def deepest : Nat := 127

/-- An event of a kind, from the values of the members that belong to it. -/
def ofKind? (kind : String) (fields : List String → Option (List Json)) : Option HostEvent :=
  match kind with
  | "screen_on" => (fields []).map (fun _ => screenOn)
  | "screen_off" => (fields []).map (fun _ => screenOff)
  | "alarm" =>
    match fields ["action"] with
    | some [a] => a.string?.map alarm
    | _ => none
  | "call_state" =>
    match fields ["state"] with
    | some [s] => (CallState.ofMember? s).map callState
    | _ => none
  | "preference" =>
    match fields ["key", "enabled"] with
    | some [k, v] => k.string?.bind (fun k => v.bool?.map (preference k))
    | _ => none
  | _ => none

/-- The values of members that must all be there, each once. -/
def valuesOf? (l : List (String × Json)) (names : List String) : Option (List Json) :=
  names.mapM (fun n => (Json.field? l n).bind id)

/-- The items of an array, exactly as many as there are names. -/
def itemsOf? (l : List Json) (names : List String) : Option (List Json) :=
  if l.length = names.length then some l else none

def ofDecoded? : Json → Option HostEvent
  | .object l => do
    let members ← Json.named? l
    let kind ← ((← Json.field? members kindMember).bind Json.string?)
    ofKind? kind (valuesOf? members)
  | .array (t :: l) => t.string?.bind (fun kind => ofKind? kind (itemsOf? l))
  | _ => none

def ofJson? (j : Json) : Option HostEvent :=
  if j.isDecodable && j.depth ≤ deepest then ofDecoded? j else none

def ofText? (s : String) : Option HostEvent := (Json.read s).bind ofJson?

def toJson : HostEvent → Json
  | screenOn => .record [(kindMember, .ofString "screen_on")]
  | screenOff => .record [(kindMember, .ofString "screen_off")]
  | alarm a => .record [(kindMember, .ofString "alarm"), ("action", .ofString a)]
  | callState s => .record [(kindMember, .ofString "call_state"), ("state", .ofString s.name)]
  | preference k v =>
    .record [(kindMember, .ofString "preference"), ("key", .ofString k), ("enabled", .bool v)]

end HostEvent

end GestureActions
