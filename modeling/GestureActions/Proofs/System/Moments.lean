import GestureActions.Proofs.System.Members
import Mathlib.Data.List.Basic
import Mathlib.Data.List.Induction

/-! # Moments of a history

Something that holds after a history and did not hold at first came about at some moment and
has held since. The time of a moment is what the clock was last set to before it.
-/
namespace GestureActions

namespace Stimulus

/-- `k` is the part of a history after which something came about that has held since. -/
def Rose (on : List Stimulus → Bool) (h k : List Stimulus) : Prop :=
  ∃ x l, h = k ++ x :: l ∧ on k = false ∧ ∀ m, m <+: l → on (k ++ x :: m) = true

variable {on : List Stimulus → Bool} {h k : List Stimulus}

theorem Rose.holds (hr : Rose on h k) : on h = true := by
  obtain ⟨x, l, rfl, _, hl⟩ := hr
  exact hl l List.prefix_rfl

/-- What came since a moment is a part of the history. -/
theorem Rose.length_lt (hr : Rose on h k) : k.length < h.length := by
  obtain ⟨x, l, rfl, _⟩ := hr
  rw [List.length_append, List.length_cons]
  omega

theorem Rose.snoc (hr : Rose on h k) {x : Stimulus} (hx : on (h ++ [x]) = true) : Rose on (h ++ [x]) k := by
  obtain ⟨y, l, rfl, hk, hl⟩ := hr
  refine ⟨y, l ++ [x], by simp, hk, fun m hm => ?_⟩
  rcases List.prefix_concat_iff.mp hm with rfl | hm
  · simpa using hx
  · exact hl m hm

theorem Rose.now {x : Stimulus} (hh : on h = false) (hx : on (h ++ [x]) = true) : Rose on (h ++ [x]) h := by
  refine ⟨x, [], rfl, hh, fun m hm => ?_⟩
  rw [List.prefix_nil.mp hm]
  exact hx

/-- What has held since some moment held before, or came about just now. -/
theorem Rose.of_snoc {x : Stimulus} (hr : Rose on (h ++ [x]) k) :
    on (h ++ [x]) = true ∧ (on h = true ∧ Rose on h k ∨ on h = false ∧ k = h) := by
  obtain ⟨y, l, he, hk, hl⟩ := hr
  refine ⟨by rw [he]; exact hl l List.prefix_rfl, ?_⟩
  -- the last stimulus either is the one that brought it about or came after that one
  rcases List.eq_nil_or_concat' l with rfl | ⟨l', z, rfl⟩
  · obtain ⟨rfl, _⟩ := List.append_inj' he rfl
    exact Or.inr ⟨hk, rfl⟩
  · rw [← List.cons_append, ← List.append_assoc] at he
    obtain ⟨rfl, _⟩ := List.append_inj' he rfl
    refine Or.inl ⟨hl l' (List.prefix_append l' [z]), y, l', rfl, hk, fun m hm => ?_⟩
    exact hl m (hm.trans (List.prefix_append l' [z]))

theorem rose_of_on (h0 : on [] = false) (hh : on h = true) : ∃ k, Rose on h k := by
  induction h using List.reverseRecOn with
  | nil => exact absurd hh (by simp [h0])
  | append_singleton h x ih =>
    cases ho : on h with
    | false => exact ⟨h, .now ho hh⟩
    | true =>
      obtain ⟨k, hk⟩ := ih ho
      exact ⟨k, hk.snoc hh⟩

def time? : Stimulus → Option Instant
  | clock t => some t
  | _ => none

/-- The time after a history. -/
def time (start : Instant) (h : List Stimulus) : Instant := (h.filterMap time?).getLastD start

theorem time_snoc (start : Instant) (h : List Stimulus) (x : Stimulus) :
    time start (h ++ [x]) = x.time?.getD (time start h) := getLastD_filterMap_snoc ..

/-- The clock is not set back in a history. -/
def Onward (start : Instant) (h : List Stimulus) : Prop := (start :: h.filterMap time?).Pairwise (· ≤ ·)

variable {start : Instant} {x : Stimulus}

instance : Decidable (Onward start h) := inferInstanceAs (Decidable (List.Pairwise ..))

theorem Onward.of_append {l : List Stimulus} (ho : Onward start (h ++ l)) : Onward start h := by
  unfold Onward at ho
  rw [List.filterMap_append, ← List.cons_append] at ho
  exact (List.pairwise_append.mp ho).1

theorem Onward.time_le (ho : Onward start (h ++ [x])) : (time start h).toInt ≤ (time start (h ++ [x])).toInt := by
  rw [time_snoc]
  unfold Onward at ho
  rw [List.filterMap_append, ← List.cons_append] at ho
  obtain ⟨_, _, hle⟩ := List.pairwise_append.mp ho
  cases hx : x.time? with
  | none => exact Int.le_refl _
  | some t =>
    have hlast : time start h ∈ start :: h.filterMap time? := List.getLastD_mem_cons ..
    exact Int64.le_iff_toInt_le.mp (hle _ hlast t (by simp [hx]))

end Stimulus

namespace World

theorem prepare_clock (w : World) (x : Stimulus) : (w.prepare x).clock.now = x.time?.getD w.now := by
  cases x with
  | event e => cases e <;> rfl
  | _ => rfl

theorem prepare_now_congr {w v : World} (h : v.now = w.now) (x : Stimulus) :
    (v.prepare x).now = (w.prepare x).now := by
  rw [World.now, World.now, prepare_clock, prepare_clock, h]

end World

end GestureActions
