import GestureActions.Proofs.Faults.Refusal
import GestureActions.Proofs.Observer.Heeding

/-! # Members that are lost

A member that is refused something while it changes its state is lost. From then on its
switch still moves, but it asks for no more than the time and it stays lost. Before it
changes its state a member asks for something on readings only.
-/
namespace GestureActions

namespace Observer

/-- An observer that is out of service. -/
def IsLost : Observer → Prop
  | pickup _ s => s.duty = none
  | unstow _ s => s.duty = none
  | approach _ _ s => s.duty = none
  | attentive _ _ _ s => s.duty = none
  | _ => False

/-- The switch as an observer itself knows it. -/
def isEnabled : Observer → Bool
  | pickup _ s => s.enabled
  | unstow _ s => s.enabled
  | approach _ _ s => s.enabled
  | attentive _ _ _ s => s.enabled
  | _ => false

end Observer

namespace Member

def IsLost : Member → Prop
  | observer o => o.IsLost
  | alarm _ s => s.duty = none
  | call _ s => s.line = none

def isEnabled : Member → Bool
  | observer o => o.isEnabled
  | alarm _ s => s.enabled
  | call _ s => s.enabled

end Member

/-- An answer that asks for no more than the time, of one who is out of service and stays so. -/
structure Reaction.Idles {σ : Type} (Lost : σ → Prop) (r : Reaction Effect σ) : Prop where
  before : ∀ q ∈ r.before, q = .readClock
  during : r.during = []
  after : r.after = []
  next : Lost r.next

/-- An answer on which whoever gives it is lost, if refused something during the change, and
which comes to nothing if it is already. -/
structure Reaction.Founders {σ : Type} (Lost : σ → Prop) (s : σ) (r : Reaction Effect σ) : Prop where
  idles : Lost s → r.Idles Lost
  lost : r.during ≠ [] → Lost r.lost

namespace Reaction

variable {σ τ : Type} {Lost : σ → Prop} {s : σ} {r : Reaction Effect σ}

theorem founders_still (s : σ) : (still s).Founders Lost s where
  idles h := ⟨List.forall_mem_nil _, rfl, rfl, h⟩
  lost h := absurd rfl h

/-- Nothing is lost where nothing is asked during the change. -/
theorem founders_doing (h : ¬ Lost s) (es : List Effect) : (doing es s).Founders Lost s where
  idles hs := absurd hs h
  lost hd := absurd rfl hd

theorem Founders.map (h : r.Founders Lost s) {Lost' : τ → Prop} {f : σ → τ} (hf : ∀ s, Lost' (f s) ↔ Lost s) :
    (r.map f).Founders Lost' (f s) where
  idles hs := by
    obtain ⟨hb, hd, ha, hn⟩ := h.idles ((hf s).mp hs)
    exact ⟨hb, hd, ha, (hf r.next).mpr hn⟩
  lost hd := (hf r.lost).mpr (h.lost hd)

theorem Idles.ends (h : r.Idles Lost) (hs : Lost s) {s' : σ} {qs : List Request}
    (he : r.Ends Effect.requests s s' qs) : Lost s' ∧ ∀ q ∈ qs, q = .readClock := by
  have hq : ∀ q ∈ qs, q = .readClock := by
    intro q hm
    have hm' := he.subset q hm
    rw [h.during, h.after, List.append_nil, List.flatMap_nil, List.append_nil] at hm'
    exact h.before q hm'
  cases he with
  | halted hr hd => exact ⟨hs, hq⟩
  | lost hr hd => exact absurd h.during hr
  | given hd => exact ⟨h.next, hq⟩

end Reaction

namespace Sentry

variable {κ : Type}

theorem Responds.founders {r : Routine κ} {now : Instant} {s : Sentry κ} {a : Reaction Effect (Sentry κ)}
    (ha : s.Responds r now a) : a.Founders (fun s => s.duty = none) s := by
  cases ha with
  | still => exact Reaction.founders_still s
  | switch on hd => exact ⟨fun _ => ⟨List.forall_mem_nil _, rfl, rfl, hd⟩, fun h => absurd rfl h⟩
  | change on present hd hc => exact ⟨fun hs => (by rw [hd] at hs; cases hs), fun _ => rfl⟩

theorem founders_hear {r : Routine κ} {x : Reading} (ha : ∀ q ∈ r.ahead x, q = .readClock) (now : Instant)
    (s : Sentry κ) : (s.hear r now x).Founders (fun s => s.duty = none) s := by
  obtain ⟨enabled, duty⟩ := s
  cases duty with
  | none => exact ⟨fun _ => ⟨ha, rfl, rfl, rfl⟩, fun h => absurd rfl h⟩
  | some d =>
    simp only [hear]
    split
    · exact ⟨fun hs => (by cases hs), fun _ => rfl⟩
    · exact ⟨fun hs => (by cases hs), fun h => absurd rfl h⟩

end Sentry

namespace CallSilencer

theorem Responds.founders {c : Client} {now : Instant} {s : CallSilencer} {a : Reaction Effect CallSilencer}
    (ha : s.Responds c now a) : a.Founders (fun s => s.line = none) s := by
  cases ha with
  | still => exact Reaction.founders_still s
  | switch on hl => exact ⟨fun _ => ⟨List.forall_mem_nil _, rfl, rfl, hl⟩, fun h => absurd rfl h⟩
  | change on state hl hb => exact ⟨fun hs => (by rw [hl] at hs; cases hs), fun _ => rfl⟩

theorem founders_hear (now : Instant) (x : Reading) (s : CallSilencer) :
    (s.hear now x).Founders (fun s => s.line = none) s := by
  unfold hear
  split
  · refine ⟨fun hs => ⟨fun q hq => List.mem_singleton.mp hq, rfl, ?_, hs⟩, fun h => absurd rfl h⟩
    simp [hs]
  · exact Reaction.founders_still s

end CallSilencer

namespace Observer

theorem before_notice (now : Instant) (n : Notice) (o : Observer) : (o.notice now n).before = [] := by
  cases o with
  | flashlight sink => cases n <;> rfl
  | pickup sink s => exact (s.responds_notice (Pickup.routine sink) false now n).before
  | unstow sink s => exact (s.responds_notice (Unstow.routine sink) false now n).before
  | approach c sink s => exact (s.responds_notice (Approach.routine c sink) false now n).before
  | attentive c mode window s => exact (s.responds_notice (Attentive.routine c mode window) true now n).before
  | _ => rfl

theorem founders_notice (now : Instant) (n : Notice) (o : Observer) :
    (o.notice now n).Founders IsLost o := by
  cases o with
  | flashlight sink =>
    cases n with
    | screen on => exact Reaction.founders_still _
    | preference q v => exact Reaction.founders_doing id _
  | pickup sink s =>
    exact (s.responds_notice (Pickup.routine sink) false now n).founders.map fun _ => Iff.rfl
  | unstow sink s =>
    exact (s.responds_notice (Unstow.routine sink) false now n).founders.map fun _ => Iff.rfl
  | approach c sink s =>
    exact (s.responds_notice (Approach.routine c sink) false now n).founders.map fun _ => Iff.rfl
  | attentive c mode window s =>
    exact (s.responds_notice (Attentive.routine c mode window) true now n).founders.map fun _ => Iff.rfl
  | _ => exact Reaction.founders_doing id _

theorem founders_hear (now : Instant) (x : Reading) (o : Observer) :
    (o.hear now x).Founders IsLost o := by
  cases o with
  | flashlight sink =>
    simp only [hear]
    split
    · exact Reaction.founders_doing id _
    · exact Reaction.founders_still _
  | pickup sink s =>
    exact (s.founders_hear (r := Pickup.routine sink) (List.forall_mem_nil _) now).map fun _ => Iff.rfl
  | unstow sink s =>
    exact (s.founders_hear (r := Unstow.routine sink) (List.forall_mem_nil _) now).map fun _ => Iff.rfl
  | approach c sink s =>
    exact (s.founders_hear (r := Approach.routine c sink) (List.forall_mem_nil _) now).map fun _ => Iff.rfl
  | attentive c mode window s =>
    have ha : ∀ q ∈ (Attentive.routine c mode window).ahead x, q = .readClock := fun q hq => List.mem_singleton.mp hq
    exact (s.founders_hear ha now).map fun _ => Iff.rfl
  | _ => exact Reaction.founders_still _

end Observer

namespace Member

/-- What is asked before the state is looked at is asked on readings only. -/
theorem eq_reading_of_before {now : Instant} {m : Message} {k : Member} (h : (k.react now m).before ≠ []) :
    ∃ r, m = .reading r := by
  cases m with
  | reading r => exact ⟨r, rfl⟩
  | notice n =>
    refine absurd ?_ h
    cases k with
    | observer o => exact o.before_notice now n
    | alarm c s =>
      cases n with
      | screen on => rfl
      | preference q v => exact (s.responds_prefer (AlarmSilencer.routine c) now q v).before
    | call c s =>
      cases n with
      | screen on => rfl
      | preference q v => exact (s.responds_prefer c now q v).before
  | ringing on =>
    refine absurd ?_ h
    cases k with
    | alarm c s => exact (s.responds_signal (AlarmSilencer.routine c) now on).before
    | _ => rfl
  | line l =>
    refine absurd ?_ h
    cases k with
    | call c s => exact (s.responds_callState c now l).before
    | _ => rfl

/-- A member is lost if it is refused something while it changes its state; once lost, it asks
for no more than the time and stays lost. -/
theorem founders_react (now : Instant) (m : Message) (k : Member) : (k.react now m).Founders IsLost k := by
  cases k with
  | observer o =>
    cases m with
    | notice n => exact (o.founders_notice now n).map fun _ => Iff.rfl
    | reading x => exact (o.founders_hear now x).map fun _ => Iff.rfl
    | _ => exact Reaction.founders_still _
  | alarm c s =>
    cases m with
    | notice n =>
      cases n with
      | screen on => exact Reaction.founders_still _
      | preference q v => exact (s.responds_prefer (AlarmSilencer.routine c) now q v).founders.map fun _ => Iff.rfl
    | ringing on => exact (s.responds_signal (AlarmSilencer.routine c) now on).founders.map fun _ => Iff.rfl
    | line l => exact Reaction.founders_still _
    | reading x =>
      have ha : ∀ q ∈ (AlarmSilencer.routine c).ahead x, q = .readClock := by
        simp only [AlarmSilencer.routine]
        split <;> simp
      exact (s.founders_hear ha now).map fun _ => Iff.rfl
  | call c s =>
    cases m with
    | notice n =>
      cases n with
      | screen on => exact Reaction.founders_still _
      | preference q v => exact (s.responds_prefer c now q v).founders.map fun _ => Iff.rfl
    | ringing on => exact Reaction.founders_still _
    | line l => exact (s.responds_callState c now l).founders.map fun _ => Iff.rfl
    | reading x => exact (s.founders_hear now x).map fun _ => Iff.rfl

end Member

end GestureActions
