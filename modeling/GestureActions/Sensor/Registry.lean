import GestureActions.Sensor.Reading

/-!
# Registrations

A registry lists who listens to which sensor, oldest registration first. A pair is
listed at most once: registering it again and unregistering a pair that is absent
change nothing.
-/
namespace GestureActions

structure Registry (ι : Type) where
  pairs : List (Sensor × ι)
  deriving DecidableEq

namespace Registry

variable {ι : Type} [DecidableEq ι]

def empty : Registry ι := ⟨[]⟩

def register (r : Registry ι) (s : Sensor) (l : ι) : Registry ι :=
  if (s, l) ∈ r.pairs then r else ⟨r.pairs ++ [(s, l)]⟩

def unregister (r : Registry ι) (s : Sensor) (l : ι) : Registry ι :=
  ⟨r.pairs.filter (· ≠ (s, l))⟩

def listeners (r : Registry ι) (s : Sensor) : List ι :=
  (r.pairs.filter (·.1 = s)).map (·.2)

def count (r : Registry ι) (s : Sensor) : Nat := (r.listeners s).length

def isHeard (r : Registry ι) (s : Sensor) : Bool := 0 < r.count s

def total (r : Registry ι) : Nat := r.pairs.length

omit [DecidableEq ι] in
theorem mem_listeners {r : Registry ι} {s : Sensor} {l : ι} :
    l ∈ r.listeners s ↔ (s, l) ∈ r.pairs := by
  simp only [listeners, List.mem_map, List.mem_filter, decide_eq_true_eq]
  constructor
  · rintro ⟨⟨t, k⟩, ⟨h, rfl⟩, rfl⟩; exact h
  · intro h; exact ⟨(s, l), ⟨h, rfl⟩, rfl⟩

theorem mem_register {r : Registry ι} {s : Sensor} {l : ι} {p : Sensor × ι} :
    p ∈ (r.register s l).pairs ↔ p ∈ r.pairs ∨ p = (s, l) := by
  unfold register
  split
  · constructor
    · exact Or.inl
    · rintro (h | rfl) <;> assumption
  · simp

theorem mem_unregister {r : Registry ι} {s : Sensor} {l : ι} {p : Sensor × ι} :
    p ∈ (r.unregister s l).pairs ↔ p ∈ r.pairs ∧ p ≠ (s, l) := by
  simp [unregister]

theorem nodup_register {r : Registry ι} (h : r.pairs.Nodup) (s : Sensor) (l : ι) :
    (r.register s l).pairs.Nodup := by
  unfold register
  split
  · exact h
  · rename_i hn
    exact List.nodup_append.mpr ⟨h, List.nodup_cons.mpr ⟨List.not_mem_nil, List.nodup_nil⟩,
      fun a ha b hb => by rw [List.mem_singleton.mp hb]; exact fun e => hn (e ▸ ha)⟩

theorem nodup_unregister {r : Registry ι} (h : r.pairs.Nodup) (s : Sensor) (l : ι) :
    (r.unregister s l).pairs.Nodup := h.filter _

end Registry

end GestureActions
