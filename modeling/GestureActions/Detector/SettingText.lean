import GestureActions.Detector.Poll
import GestureActions.Json.Record

/-!
# The text of masks and settings

A mask is a number of 32 bits, a setting a record of a switch and a mask, neither of
which may be left out.
-/
namespace GestureActions

def Mask.ofJson? (j : Json) : Option Mask := (j.below? (Nat.pow 2 32)).map (fun n => ⟨UInt32.ofNat n⟩)

def Mask.toJson (m : Mask) : Json := .ofNat m.bits.toNat

namespace Setting

def fieldNames : List String := ["active", "mask"]

def ofJson? (j : Json) : Option Setting := do
  match ← j.fields? fieldNames with
  | [a, m] => some ⟨← Json.required Json.bool? a, ← Json.required Mask.ofJson? m⟩
  | _ => none

def toJson (s : Setting) : Json := .record [("active", .bool s.active), ("mask", s.mask.toJson)]

end Setting

end GestureActions
