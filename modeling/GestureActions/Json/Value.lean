import GestureActions.Number.Numeral

/-!
# JSON values

A value keeps what its text says and nothing is decided yet: numbers stay numerals,
objects keep their members in order with repetitions, and a string may hold a
surrogate without its partner, which is no character.
-/
namespace GestureActions

inductive Glyph
  | char (c : Char)
  | lone (unit : Nat)
  deriving DecidableEq, Repr

inductive Json
  | null
  | bool (b : Bool)
  | number (n : Numeral)
  | string (s : List Glyph)
  | array (l : List Json)
  | object (l : List (List Glyph × Json))
  deriving Repr

namespace Json

def char? : Glyph → Option Char
  | .char c => some c
  | .lone _ => none

def text? (s : List Glyph) : Option String := (s.mapM char?).map String.ofList

def glyphs (s : String) : List Glyph := s.toList.map .char

def ofString (s : String) : Json := string (glyphs s)

def digits (n : Nat) : List Nat := if n < 10 then [n] else digits (n / 10) ++ [n % 10]

def ofNat (n : Nat) : Json := number ⟨false, digits n, [], none⟩

def ofInt (i : Int) : Json := number ⟨i < 0, digits i.natAbs, [], none⟩

def record (members : List (String × Json)) : Json := object (members.map (fun m => (glyphs m.1, m.2)))

def string? : Json → Option String
  | string s => text? s
  | _ => none

def bool? : Json → Option Bool
  | bool b => some b
  | _ => none

def below? (bound : Nat) : Json → Option Nat
  | number n => n.below? bound
  | _ => none

def span? (j : Json) : Option UInt64 := (j.below? (Nat.pow 2 64)).map UInt64.ofNat

mutual

/-- How deep arrays and objects are nested. -/
def depth : Json → Nat
  | array l => depthItems l + 1
  | object l => depthMembers l + 1
  | _ => 0

def depthItems : List Json → Nat
  | [] => 0
  | v :: r => max v.depth (depthItems r)

def depthMembers : List (List Glyph × Json) → Nat
  | [] => 0
  | (_, v) :: r => max v.depth (depthMembers r)

end

mutual

/-- Whether every string is made of characters and double precision holds every number. -/
def isDecodable : Json → Bool
  | number n => n.isFinite
  | string s => (text? s).isSome
  | array l => decodableItems l
  | object l => decodableMembers l
  | _ => true

def decodableItems : List Json → Bool
  | [] => true
  | v :: r => v.isDecodable && decodableItems r

def decodableMembers : List (List Glyph × Json) → Bool
  | [] => true
  | (k, v) :: r => (text? k).isSome && v.isDecodable && decodableMembers r

end

end Json

end GestureActions
