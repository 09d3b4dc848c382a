import GestureActions.Proofs.Detector.Union
import Mathlib.Data.List.Dedup
import Mathlib.Data.List.Sort

/-! # Masks as sets of gestures

A gesture is in a mask if the bit at its code is set, so a mask stands for the set of the
gestures whose bits it has. Its gestures are listed by increasing code, and a list of that
kind is determined by its members.
-/
namespace GestureActions

namespace Gesture

/-- Listed by increasing code, each gesture once. -/
def Increasing (l : List Gesture) : Prop := l.Pairwise fun g h => g.code < h.code

theorem code_injective : Function.Injective code := by
  intro g h
  cases g <;> cases h <;> decide

theorem code_lt (g : Gesture) : g.code < 32 := by
  cases g <;> decide

theorem increasing_all : Increasing all := by
  unfold Increasing
  decide

/-- Sorted by code and without repetitions. -/
theorem increasing_of_sorted {l : List Gesture} (hl : l.Pairwise fun g h => g.code ≤ h.code) (hn : l.Nodup) :
    Increasing l :=
  hl.imp₂ (fun _ _ hle hne => Nat.lt_of_le_of_ne hle (mt (@code_injective _ _) hne)) hn

/-- Lists by increasing code that have the same members are the same. -/
theorem Increasing.eq {l k : List Gesture} (hl : Increasing l) (hk : Increasing k) (h : ∀ g, g ∈ l ↔ g ∈ k) : l = k :=
  haveI : Std.Irrefl fun g h : Gesture => g.code < h.code := ⟨fun g => Nat.lt_irrefl g.code⟩
  haveI : Std.Antisymm fun g h : Gesture => g.code < h.code := ⟨fun _ _ hgh hhg => absurd hgh hhg.asymm⟩
  List.Pairwise.eq_of_mem_iff hl hk h

def isBefore (g h : Gesture) : Bool := g.code ≤ h.code

theorem isBefore_trans (g h k : Gesture) (hgh : g.isBefore h = true) (hhk : h.isBefore k = true) :
    g.isBefore k = true := by
  simp only [isBefore, decide_eq_true_eq] at *
  omega

theorem isBefore_total (g h : Gesture) : (g.isBefore h || h.isBefore g) = true := by
  simp only [isBefore, Bool.or_eq_true, decide_eq_true_eq]
  omega

theorem bit_toBitVec (g : Gesture) : g.bit.toBitVec = BitVec.twoPow 32 g.code := by
  cases g <;> decide

end Gesture

namespace Mask

open Gesture

variable (m n : Mask) (g : Gesture) (l : List Gesture)

@[simp] theorem holds_of (i : Nat) : (of g).holds i = decide (g.code = i) := by
  rw [holds, of, bit_toBitVec, BitVec.getLsbD_twoPow, decide_eq_true g.code_lt, Bool.true_and]

theorem contains_eq_holds : m.contains g = m.holds g.code := by
  have hbit : BitVec.twoPow 32 g.code ≠ 0#32 := by
    cases g <;> decide
  rw [contains, holds, Bool.eq_iff_iff, bne_iff_ne, ne_eq, ← UInt32.toBitVec_inj, UInt32.toBitVec_and, bit_toBitVec,
    BitVec.and_twoPow]
  split <;> simp [*]

theorem mem_gestures : g ∈ m.gestures ↔ m.holds g.code = true := by
  rw [gestures, List.mem_filter, contains_eq_holds, and_iff_right g.mem_all]

theorem increasing_gestures : Increasing m.gestures := increasing_all.filter _

/-- The bits collected from a list are those at the codes of its gestures. -/
theorem holds_ofList (i : Nat) : (ofList l).holds i = true ↔ ∃ g ∈ l, g.code = i := by
  suffices hfold : ∀ m : Mask, (l.foldl insert m).holds i = true ↔ m.holds i = true ∨ ∃ g ∈ l, g.code = i by
    simpa [ofList] using hfold empty
  induction l with
  | nil => simp
  | cons g r ih =>
    intro m
    rw [List.foldl_cons, ih]
    simp [insert, or_assoc]

theorem mem_gestures_ofList : g ∈ (ofList l).gestures ↔ g ∈ l := by
  rw [mem_gestures, holds_ofList]
  refine ⟨fun ⟨h, hl, hc⟩ => code_injective hc ▸ hl, fun hl => ⟨g, hl, rfl⟩⟩

theorem gestures_ofList : (ofList l).gestures = l.dedup.mergeSort isBefore := by
  have hsorted : (l.dedup.mergeSort isBefore).Pairwise fun g h => g.code ≤ h.code :=
    (List.pairwise_mergeSort isBefore_trans isBefore_total l.dedup).imp of_decide_eq_true
  have hnodup : (l.dedup.mergeSort isBefore).Nodup := (List.mergeSort_perm _ _).nodup_iff.mpr l.nodup_dedup
  refine (increasing_gestures _).eq (increasing_of_sorted hsorted hnodup) fun g => ?_
  rw [mem_gestures_ofList, List.mem_mergeSort, List.mem_dedup]

theorem gestures_union : (m.union n).gestures = (m.gestures.merge n.gestures isBefore).dedup := by
  have hsorted : ∀ k : Mask, k.gestures.Pairwise fun g h => g.isBefore h = true :=
    fun k => k.increasing_gestures.imp fun h => decide_eq_true h.le
  have hmerge : (m.gestures.merge n.gestures isBefore).Pairwise fun g h => g.code ≤ h.code :=
    (List.pairwise_merge isBefore_trans isBefore_total _ _ (hsorted m) (hsorted n)).imp of_decide_eq_true
  refine (increasing_gestures _).eq
    (increasing_of_sorted (hmerge.sublist (List.dedup_sublist _)) (List.nodup_dedup _)) fun g => ?_
  rw [List.mem_dedup, List.mem_merge, mem_gestures, mem_gestures, mem_gestures, holds_union, Bool.or_eq_true]

/-- Listing the gestures of a mask and collecting them again loses the bits that belong to none. -/
theorem holds_ofList_gestures (i : Nat) :
    (ofList m.gestures).holds i = true ↔ m.holds i = true ∧ ∃ g : Gesture, g.code = i := by
  rw [holds_ofList]
  constructor
  · rintro ⟨g, hg, rfl⟩
    exact ⟨(m.mem_gestures g).mp hg, g, rfl⟩
  · rintro ⟨hm, g, rfl⟩
    exact ⟨g, (m.mem_gestures g).mpr hm, rfl⟩

theorem ofList_gestures_eq_iff : ofList m.gestures = m ↔ ∀ i, m.holds i = true → ∃ g : Gesture, g.code = i := by
  constructor
  · intro h i hi
    rw [← h, holds_ofList_gestures] at hi
    exact hi.2
  · intro h
    refine eq_of_holds fun i => Bool.eq_iff_iff.mpr ?_
    rw [holds_ofList_gestures]
    exact ⟨And.left, fun hi => ⟨hi, h i hi⟩⟩

/-- Masks are the sets of gestures they were collected from: what a mask contains is what the
list has, its gestures are those of the list by increasing code, collecting the gestures of
a mask keeps the bits that are codes and no others, and the union of two masks lists the
gestures of both, merged. The operators on masks are that union. -/
theorem gestures_faithful :
    (∀ l g, (ofList l).contains g = true ↔ g ∈ l) ∧
    (∀ l, (ofList l).gestures = l.dedup.mergeSort isBefore) ∧
    (∀ m i, (ofList (gestures m)).holds i = true ↔ m.holds i = true ∧ ∃ g : Gesture, g.code = i) ∧
    (∀ m, ofList (gestures m) = m ↔ ∀ i, m.holds i = true → ∃ g : Gesture, g.code = i) ∧
    (∀ m, (gestures m).Pairwise fun g h => g.code < h.code) ∧
    (∀ m n : Mask, (m ||| n).gestures = (m.gestures.merge n.gestures isBefore).dedup) ∧
    (∀ m n : Mask, (m ||| n) = m.union n ∧ m.absorb n = m.union n) ∧
    ∀ (m : Mask) (g : Gesture), (m ||| g) = m.insert g ∧ m.insert g = (m ||| of g) := by
  refine ⟨fun l g => ?_, gestures_ofList, holds_ofList_gestures, ofList_gestures_eq_iff, increasing_gestures,
    gestures_union, fun m n => ⟨rfl, rfl⟩, fun m g => ⟨rfl, rfl⟩⟩
  rw [contains_eq_holds, ← mem_gestures, mem_gestures_ofList]

end Mask

end GestureActions
