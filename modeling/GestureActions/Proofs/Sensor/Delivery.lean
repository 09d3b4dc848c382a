import GestureActions.Proofs.System.Members
import GestureActions.Sensor.Hub
import Mathlib.Algebra.GroupWithZero.Nat
import Mathlib.Data.List.Induction
import Mathlib.Data.List.Nodup

/-! # Delivery while listeners come and go

Listeners may register and unregister whom they like while they are told of a reading.
Who is registered, and in what order, is read off the orders that a hub has obeyed, its
listeners' own among them. A reading reaches those whom the orders before it have left
registered, each once and in their order, whatever the listeners ask meanwhile.
-/
namespace GestureActions

namespace HubOrder

variable {ι : Type} [DecidableEq ι]

/-- What an order says about a pair: that it is to be registered, or not to be. -/
def about? (p : Sensor × ι) : HubOrder ι → Option Bool
  | register s l => if (s, l) = p then some true else none
  | unregister s l => if (s, l) = p then some false else none

/-- Whether the last order about a pair registered it. -/
def isLive (os : List (HubOrder ι)) (p : Sensor × ι) : Bool := (os.filterMap (about? p)).getLastD false

/-- Whether the order at a place registered a pair that was not registered then. -/
def tookEffect (os : List (HubOrder ι)) (p : Sensor × ι) (i : Nat) : Bool :=
  (os[i]?.bind (about? p)) = some true && !isLive (os.take i) p

/-- The place of the last order that registered a pair anew. -/
def since? (os : List (HubOrder ι)) (p : Sensor × ι) : Option Nat :=
  ((List.range os.length).filter (tookEffect os p)).getLast?

theorem isLive_snoc (os : List (HubOrder ι)) (o : HubOrder ι) (p : Sensor × ι) :
    isLive (os ++ [o]) p = (o.about? p).getD (isLive os p) := getLastD_filterMap_snoc ..

theorem since?_snoc (os : List (HubOrder ι)) (o : HubOrder ι) (p : Sensor × ι) :
    since? (os ++ [o]) p =
      if o.about? p = some true ∧ isLive os p = false then some os.length else since? os p := by
  have hold : ∀ i ∈ List.range os.length, tookEffect (os ++ [o]) p i = tookEffect os p i := by
    intro i hi
    have hi := List.mem_range.mp hi
    rw [tookEffect, tookEffect, List.getElem?_append_left hi, List.take_append_of_le_length (Nat.le_of_lt hi)]
  have hlast : tookEffect (os ++ [o]) p os.length = decide (o.about? p = some true ∧ isLive os p = false) := by
    simp [tookEffect]
  rw [since?, List.length_append, List.length_singleton, List.range_succ, List.filter_append, List.filter_congr hold,
    List.getLast?_append, List.filter_singleton, hlast, ← since?]
  by_cases h : o.about? p = some true ∧ isLive os p = false
  · rw [if_pos h, decide_eq_true h]
    rfl
  · rw [if_neg h, decide_eq_false h]
    rfl

theorem lt_of_since? {os : List (HubOrder ι)} {p : Sensor × ι} {i : Nat} (h : since? os p = some i) :
    i < os.length :=
  List.mem_range.mp (List.mem_of_mem_filter (List.mem_of_getLast? h))

end HubOrder

open HubOrder

/-- A registry as some orders leave it: the pairs they leave registered, each once, those
registered earlier first. -/
structure Registry.Follows {ι : Type} [DecidableEq ι] (os : List (HubOrder ι)) (r : Registry ι) : Prop where
  nodup : r.pairs.Nodup
  mem_iff : ∀ p, p ∈ r.pairs ↔ isLive os p = true
  since : ∀ p ∈ r.pairs, (since? os p).isSome = true
  ordered : r.pairs.Pairwise fun p q => ∀ i ∈ since? os p, ∀ j ∈ since? os q, i < j

namespace Registry

variable {ι : Type} [DecidableEq ι] {os : List (HubOrder ι)} {r : Registry ι}

theorem follows_empty : (empty : Registry ι).Follows [] where
  nodup := List.nodup_nil
  mem_iff p := by simp [empty, isLive]
  since := nofun
  ordered := List.Pairwise.nil

theorem Follows.register (h : r.Follows os) (s : Sensor) (l : ι) :
    (r.register s l).Follows (os ++ [.register s l]) := by
  by_cases hl : (s, l) ∈ r.pairs
  · -- an order that finds its pair registered leaves all as it was
    have hlive := (h.mem_iff (s, l)).mp hl
    have hsince : ∀ p, since? (os ++ [.register s l]) p = since? os p := by
      intro p
      rw [since?_snoc, if_neg]
      rintro ⟨hp, hd⟩
      have hp : (s, l) = p := by simpa [about?] using hp
      rw [← hp, hlive] at hd
      cases hd
    rw [Registry.register, if_pos hl]
    refine ⟨h.nodup, fun p => ?_, fun p hp => (hsince p).symm ▸ h.since p hp, ?_⟩
    · rw [isLive_snoc, h.mem_iff]
      by_cases hp : (s, l) = p
      · rw [← hp, hlive]
        simp [about?]
      · simp [about?, hp]
    · simpa only [hsince] using h.ordered
  · have hlive : isLive os (s, l) = false := Bool.eq_false_iff.mpr fun ht => hl ((h.mem_iff (s, l)).mpr ht)
    have hself : since? (os ++ [.register s l]) (s, l) = some os.length := by
      rw [since?_snoc, if_pos ⟨by simp [about?], hlive⟩]
    have hother : ∀ p ∈ r.pairs, since? (os ++ [.register s l]) p = since? os p := by
      intro p hp
      rw [since?_snoc, if_neg]
      rintro ⟨hp', -⟩
      have hp' : (s, l) = p := by simpa [about?] using hp'
      exact hl (hp' ▸ hp)
    refine ⟨nodup_register h.nodup s l, fun p => ?_, fun p hp => ?_, ?_⟩
    · rw [mem_register, h.mem_iff, isLive_snoc]
      by_cases hp : (s, l) = p
      · simp [about?, hp]
      · simp [about?, hp, Ne.symm hp]
    · rcases mem_register.mp hp with hp | rfl
      · rw [hother p hp]
        exact h.since p hp
      · rw [hself]
        rfl
    · rw [Registry.register, if_neg hl, List.pairwise_append]
      refine ⟨h.ordered.imp_of_mem fun hp hq hlt => ?_, List.pairwise_singleton _ _, fun p hp q hq i hi j hj => ?_⟩
      · rwa [hother _ hp, hother _ hq]
      · rw [List.mem_singleton.mp hq, hself] at hj
        rw [hother p hp] at hi
        cases hj
        exact lt_of_since? hi

theorem Follows.unregister (h : r.Follows os) (s : Sensor) (l : ι) :
    (r.unregister s l).Follows (os ++ [.unregister s l]) := by
  have hsince : ∀ p, since? (os ++ [.unregister s l]) p = since? os p := by
    intro p
    rw [since?_snoc, if_neg]
    rintro ⟨hp, -⟩
    simp [about?] at hp
  refine ⟨nodup_unregister h.nodup s l, fun p => ?_, fun p hp => ?_, ?_⟩
  · rw [mem_unregister, h.mem_iff, isLive_snoc]
    by_cases hp : (s, l) = p
    · simp [about?, hp]
    · simp [about?, hp, Ne.symm hp]
  · rw [hsince]
    exact h.since p (mem_unregister.mp hp).1
  · simp only [hsince]
    exact h.ordered.sublist List.filter_sublist

omit [DecidableEq ι] in
theorem map_listeners (r : Registry ι) (s : Sensor) :
    (r.listeners s).map (fun l => (s, l)) = r.pairs.filter (·.1 = s) := by
  have hself : ∀ p ∈ r.pairs.filter (·.1 = s), ((fun l => (s, l)) ∘ (·.2)) p = id p := by
    rintro ⟨t, l⟩ hp
    rw [← of_decide_eq_true (List.mem_filter.mp hp).2]
    rfl
  rw [listeners, List.map_map, List.map_congr_left hself, List.map_id]

theorem Follows.nodup_listeners (h : r.Follows os) (s : Sensor) : (r.listeners s).Nodup := by
  refine List.Nodup.of_map (fun l => (s, l)) ?_
  rw [map_listeners]
  exact h.nodup.filter _

theorem Follows.listeners_ordered (h : r.Follows os) (s : Sensor) :
    (r.listeners s).Pairwise fun k l => ∀ i ∈ since? os (s, k), ∀ j ∈ since? os (s, l), i < j := by
  have hp := h.ordered.sublist (List.filter_sublist (p := fun p => p.1 = s))
  rwa [← map_listeners, List.pairwise_map] at hp

omit [DecidableEq ι] in
/-- Every pair is counted for its own sensor. -/
theorem sum_count (r : Registry ι) : (Sensor.all.map r.count).sum = r.total := by
  obtain ⟨l⟩ := r
  induction l with
  | nil => rfl
  | cons p l ih =>
    obtain ⟨s, k⟩ := p
    simp only [Sensor.all, List.map_cons, List.map_nil, List.sum_cons, List.sum_nil, count, listeners, total,
      List.length_map, List.length_cons] at ih ⊢
    rw [← ih]
    cases s <;> simp <;> omega

end Registry

namespace Hub

variable {ι : Type} [DecidableEq ι]

/-- What is done to a hub: an order given, or a reading emitted to listeners that answer
it each with orders of its own. -/
inductive Use (ι : Type)
  | order (o : HubOrder ι)
  | emission (react : ι → List (HubOrder ι)) (r : Reading)

/-- A hub and the orders it has obeyed. -/
abbrev Past (ι : Type) : Type := Hub ι × List (HubOrder ι)

def Past.used (p : Past ι) : Use ι → Past ι
  | .order o => (p.1.obey o, p.2 ++ [o])
  | .emission react r => ((p.1.emit react r.sensor).1, p.2 ++ (p.1.emit react r.sensor).2.flatMap react)

def past (us : List (Use ι)) : Past ι := us.foldl Past.used (empty, [])

theorem tell_eq (react : ι → List (HubOrder ι)) (ls : List ι) (h : Hub ι) :
    tell react ls h = ((ls.flatMap react).foldl obey h, ls) := by
  induction ls generalizing h with
  | nil => rfl
  | cons l r ih =>
    rw [tell, ih, List.flatMap_cons, List.foldl_append]

theorem emit_eq (react : ι → List (HubOrder ι)) (s : Sensor) (h : Hub ι) :
    h.emit react s = (((h.registry.listeners s).flatMap react).foldl obey h, h.registry.listeners s) :=
  tell_eq react _ h

theorem past_fst (us : List (Use ι)) : (past us).1 = (past us).2.foldl obey empty := by
  induction us using List.reverseRecOn with
  | nil => rfl
  | append_singleton us u ih =>
    have hsnoc : past (us ++ [u]) = (past us).used u := by
      rw [past, List.foldl_append, ← past, List.foldl_cons, List.foldl_nil]
    rw [hsnoc]
    cases u with
    | order o => rw [Past.used, List.foldl_append, ← ih, List.foldl_cons, List.foldl_nil]
    | emission react r => rw [Past.used, emit_eq, List.foldl_append, ← ih]

theorem follows_foldl (os : List (HubOrder ι)) : (os.foldl obey empty).registry.Follows os := by
  induction os using List.reverseRecOn with
  | nil => exact Registry.follows_empty
  | append_singleton os o ih =>
    rw [List.foldl_append, List.foldl_cons, List.foldl_nil]
    cases o with
    | register s l => exact ih.register s l
    | unregister s l => exact ih.unregister s l

/-- After each order that a hub obeys, a listener's or not, its registry is what the orders
make it. A reading reaches those registered before it, each once and in order, whatever
they ask for, and no one else. -/
theorem emit_reaches (us : List (Use ι)) :
    let h := (past us).1
    let os := (past us).2
    h = os.foldl obey empty ∧
    (∀ ks, ks <+: os → (ks.foldl obey empty).registry.Follows ks) ∧
    (Sensor.all.map h.registry.count).sum = h.registry.total ∧
    ∀ (react : ι → List (HubOrder ι)) (r : Reading), let told := (h.emit react r.sensor).2
      told.Nodup ∧ (∀ l, l ∈ told ↔ isLive os (r.sensor, l) = true) ∧
      (told.Pairwise fun k l => ∀ i ∈ since? os (r.sensor, k), ∀ j ∈ since? os (r.sensor, l), i < j) ∧
      told.length = h.registry.count r.sensor := by
  intro h os
  have hf : h.registry.Follows os := by
    have := follows_foldl os
    rwa [← past_fst us] at this
  refine ⟨past_fst us, fun ks _ => follows_foldl ks, h.registry.sum_count, fun react r => ?_⟩
  rw [emit_eq]
  exact ⟨hf.nodup_listeners r.sensor, fun l => Registry.mem_listeners.trans (hf.mem_iff _), hf.listeners_ordered r.sensor, rfl⟩

end Hub

end GestureActions
