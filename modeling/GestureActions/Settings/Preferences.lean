/-!
# Preferences

Five switches, each with its key in the host's storage. The values in force at the
start are the configured ones, except where the storage has an entry of its own.
-/
namespace GestureActions

inductive Preference
  | approach | silence | attentive | pickUp | flashlight
  deriving DecidableEq, Repr

namespace Preference

def all : List Preference := [approach, silence, attentive, pickUp, flashlight]

def key : Preference → String
  | approach => "gesture_ir"
  | silence => "gesture_ir_silence"
  | attentive => "gesture_attentive_display"
  | pickUp => "pick_up"
  | flashlight => "gesture_flashlight"

def ofKey? (k : String) : Option Preference := all.find? (·.key = k)

/-- Every switch is on unless it is set, but for the attentive display. -/
def byDefault : Preference → Bool
  | attentive => false
  | _ => true

theorem ofKey?_key (p : Preference) : ofKey? p.key = some p := by cases p <;> decide

theorem ofKey?_eq_some {k : String} {p : Preference} : ofKey? k = some p ↔ k = p.key := by
  constructor
  · intro h
    have hk := List.find?_some h
    exact (of_decide_eq_true hk).symm
  · rintro rfl
    exact ofKey?_key p

end Preference

/-- Stored switches by key, the latest entry of a key first. -/
abbrev PreferenceStore := List (String × Bool)

namespace PreferenceStore

def put (s : PreferenceStore) (k : String) (v : Bool) : PreferenceStore := (k, v) :: s

def get? : PreferenceStore → String → Option Bool
  | [], _ => none
  | (j, v) :: r, k => if j = k then some v else get? r k

end PreferenceStore

structure Preferences where
  approach : Bool
  silence : Bool
  attentive : Bool
  pickUp : Bool
  flashlight : Bool
  deriving DecidableEq, Repr

namespace Preferences

def get (s : Preferences) : Preference → Bool
  | .approach => s.approach
  | .silence => s.silence
  | .attentive => s.attentive
  | .pickUp => s.pickUp
  | .flashlight => s.flashlight

def set (s : Preferences) (p : Preference) (v : Bool) : Preferences :=
  match p with
  | .approach => { s with approach := v }
  | .silence => { s with silence := v }
  | .attentive => { s with attentive := v }
  | .pickUp => { s with pickUp := v }
  | .flashlight => { s with flashlight := v }

def ofFunction (f : Preference → Bool) : Preferences :=
  ⟨f .approach, f .silence, f .attentive, f .pickUp, f .flashlight⟩

def byDefault : Preferences := ofFunction Preference.byDefault

/-- Stored values where there are any, and the given ones elsewhere. -/
def overlay (s : Preferences) (store : PreferenceStore) : Preferences :=
  ofFunction (fun p => (store.get? p.key).getD (s.get p))

theorem get_ofFunction (f : Preference → Bool) (p : Preference) : (ofFunction f).get p = f p := by
  cases p <;> rfl

end Preferences

end GestureActions
