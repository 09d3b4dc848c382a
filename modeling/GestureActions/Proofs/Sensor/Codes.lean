import GestureActions.Proofs.Number.Rounding
import GestureActions.Sensor.Reading

/-! # Gesture codes in single precision

The detector's code travels on an axis that holds 24 bits, so a large code comes out as
another one. It stays large in that, and a small one is not changed, so that the gesture
which is read is the one the code stands for.
-/
namespace GestureActions

open BinaryFormat

namespace Gesture

theorem ofCode?_eq_some_iff {c : Int} {g : Gesture} : ofCode? c = some g ↔ c = g.code := by
  constructor
  · intro h
    have hcode := List.find?_some h
    exact (of_decide_eq_true hcode).symm
  · rintro rfl
    exact ofCode?_code g

theorem ofCode?_eq_none {c : Int} (h : 2 ^ 24 ≤ c.natAbs) : ofCode? c = none := by
  cases hc : ofCode? c with
  | none => rfl
  | some g =>
    rw [ofCode?_eq_some_iff] at hc
    have hcode : g.code ≤ 10 := by
      cases g <;> decide
    omega

end Gesture

/-- A whole number of at most 32 bits is finite in single precision and has no fraction. -/
theorem Single.truncate?_ofInt {c : Int} (h : c.natAbs < 2 ^ 32) :
    ∃ r : Nat, Rounds 24 c.natAbs r ∧ (ofInt c).truncate? = some (if c < 0 then -(r : Int) else r) := by
  have hlow : single.lowest ≤ 1 - single.precision := by decide
  have hlog : c.natAbs.log2 < 32 := by
    by_cases hc : c.natAbs = 0
    · rw [hc]
      decide
    · exact (Nat.log2_lt hc).mpr h
  have hadmits : single.admits (single.round c.natAbs 1) = true := by
    have hle := exponent_round_le hlow (by decide) c.natAbs
    have hprecision : single.precision = 24 := rfl
    have hhighest : single.highest = 104 := rfl
    rw [admits, decide_eq_true_iff]
    omega
  refine ⟨_, rounds_floor hlow (by decide) c.natAbs, ?_⟩
  rw [ofInt, ofRounded, if_pos hadmits, truncate?]
  by_cases hneg : c < 0 <;> simp [hneg]

namespace Reading

theorem code?_ofCode {c : Int} (h : c.natAbs < 2 ^ 32) :
    ∃ r : Nat, Rounds 24 c.natAbs r ∧ (ofCode c).code? = some (clampWord (if c < 0 then -(r : Int) else r)) := by
  obtain ⟨r, hr, ht⟩ := Single.truncate?_ofInt h
  refine ⟨r, hr, ?_⟩
  have haxis : (ofCode c).axis? 1 = some (Single.ofInt c) := rfl
  rw [code?, haxis, Option.bind_some, ht, Option.map_some]

/-- Rounding keeps the codes of 24 bits, and the larger ones larger than any gesture's. -/
theorem ofCode?_rounded {c : Int} {r : Nat} (hr : Rounds 24 c.natAbs r) (hlow : -2147483648 ≤ c) (hhigh : c ≤ 2147483647) :
    Gesture.ofCode? (clampWord (if c < 0 then -(r : Int) else r)) = Gesture.ofCode? c := by
  by_cases hc : c.natAbs < 2 ^ 24
  · have hkept : r = c.natAbs := hr.eq_of_holds ⟨c.natAbs, 0, hc, by simp⟩
    have hclamp : clampWord (if c < 0 then -(r : Int) else r) = c := by
      rw [clampWord, hkept]
      omega
    rw [hclamp]
  · have hlarge : 2 ^ 24 ≤ r := hr.le_of_holds ⟨2 ^ 23, 1, by decide, by decide⟩ (by omega)
    have hclamp : 2 ^ 24 ≤ (clampWord (if c < 0 then -(r : Int) else r)).natAbs := by
      rw [clampWord]
      omega
    rw [Gesture.ofCode?_eq_none hclamp, Gesture.ofCode?_eq_none (by omega)]

/-- The code that is read is the one that was written, rounded to 24 bits and held in a signed
word. The gesture that is read is the one the written code stands for: none is lost, and no
other code comes to stand for one. -/
theorem gesture?_ofCode (c : Int32) :
    (∃ r : Nat, Rounds 24 c.toInt.natAbs r ∧ (ofCode c.toInt).code? =
      some (max (-2147483648) (min (if c.toInt < 0 then -(r : Int) else r) 2147483647))) ∧
    (ofCode c.toInt).gesture? = Gesture.ofCode? c.toInt ∧
    ∀ g : Gesture, (ofCode c.toInt).gesture? = some g ↔ c.toInt = g.code := by
  have hlow : -2147483648 ≤ c.toInt := Int32.le_toInt c
  have hhigh : c.toInt < 2147483648 := Int32.toInt_lt c
  obtain ⟨r, hr, hcode⟩ := code?_ofCode (c := c.toInt) (by omega)
  have hgesture : (ofCode c.toInt).gesture? = Gesture.ofCode? c.toInt := by
    rw [gesture?, hcode, Option.bind_some, ofCode?_rounded hr hlow (by omega)]
  refine ⟨⟨r, hr, hcode⟩, hgesture, ?_⟩
  intro g
  rw [hgesture, Gesture.ofCode?_eq_some_iff]

/-- The least code of more than 24 bits goes to its even neighbour. -/
example : (ofCode 16777217).code? = some 16777216 := by
  decide

end Reading

end GestureActions
