import GestureActions.Json.Value

/-!
# Records and choices

A record is written as an object, its fields in any order among members that mean
nothing, or as an array of its fields in order. A field written twice is refused, and
so is an array with more items than fields. A choice is written as its name, or as an
object whose one member has that name and holds nothing.
-/
namespace GestureActions.Json

def named? (l : List (List Glyph × Json)) : Option (List (String × Json)) :=
  l.mapM (fun m => (text? m.1).map (fun k => (k, m.2)))

/-- The one value of a field, if it is written at all; nothing if it is written twice. -/
def field? (l : List (String × Json)) (name : String) : Option (Option Json) :=
  match l.filter (·.1 = name) with
  | [] => some none
  | [m] => some (some m.2)
  | _ => none

/-- The values of the fields of a record, in order, each of them possibly left out. -/
def fields? (names : List String) : Json → Option (List (Option Json))
  | array l =>
    if l.length ≤ names.length then
      some (l.map some ++ List.replicate (names.length - l.length) none)
    else none
  | object l => (named? l).bind (fun m => names.mapM (field? m))
  | _ => none

/-- A field that has a value when it is left out. -/
def orDefault {α : Type} (value : α) (read : Json → Option α) : Option Json → Option α
  | none => some value
  | some j => read j

/-- A field that may not be left out. -/
def required {α : Type} (read : Json → Option α) : Option Json → Option α
  | none => none
  | some j => read j

def isNull : Json → Bool
  | null => true
  | _ => false

/-- Nothing, written as such or as an object without members. -/
def isEmpty : Json → Bool
  | null => true
  | object [] => true
  | _ => false

def named {α : Type} (all : List α) (name : α → String) (s : List Glyph) : Option α :=
  (text? s).bind (fun t => all.find? (name · = t))

/-- A choice among named values; `nothing` says what the member of an object may hold. -/
def choice? {α : Type} (all : List α) (name : α → String) (nothing : Json → Bool) : Json → Option α
  | string s => named all name s
  | object [(k, v)] => if nothing v then named all name k else none
  | _ => none

/-- All items of an array, each read alike. -/
def list? {α : Type} (read : Json → Option α) : Json → Option (List α)
  | array l => l.mapM read
  | _ => none

end GestureActions.Json
