import GestureActions.Proofs.Observer.Roles

/-! # What members pass over

A member of a role makes something of some messages only: of its own signal, of its own
switch and of readings of its own sensors. The others leave it as it is, and it asks for no
more than the time on them.
-/
namespace GestureActions

namespace Role

def sensors : Role → List Sensor
  | flashlight _ => [.chopChop]
  | pickup _ => [.flatUp, .stow]
  | unstow _ => [.stow]
  | approach _ _ | alarm _ | call _ => [.irGesture]
  | attentive _ _ _ => [.irGesture, .stow]
  | doze | recorder _ => []

def switch? : Role → Option Preference
  | pickup _ | unstow _ => some .pickUp
  | approach _ _ => some .approach
  | attentive _ _ _ => some .attentive
  | alarm _ | call _ => some .silence
  | _ => none

/-- Whether a member of a role makes anything of a message. -/
def heeds : Role → Message → Bool
  | alarm _, .notice (.screen _) | call _, .notice (.screen _) | flashlight _, .notice (.screen _) => false
  | _, .notice (.screen _) => true
  | doze, .notice (.preference _ _) | flashlight _, .notice (.preference _ _) => true
  | recorder _, .notice (.preference _ _) => true
  | ρ, .notice (.preference q _) => ρ.switch? = some q
  | alarm _, .ringing _ => true
  | call _, .line _ => true
  | ρ, .reading r => r.sensor ∈ ρ.sensors
  | _, _ => false

end Role

/-- An answer that leaves the state as it is and asks for no more than the time. -/
structure Reaction.Passes {σ : Type} (s : σ) (r : Reaction Effect σ) : Prop where
  before : ∀ q ∈ r.before, q = .readClock
  during : r.during = []
  next : r.next = s
  after : r.after = []

namespace Reaction

variable {σ τ : Type} {s : σ}

theorem passes_still (s : σ) : (still s).Passes s := ⟨List.forall_mem_nil _, rfl, rfl, rfl⟩

theorem passes_asking {qs : List Request} (h : ∀ q ∈ qs, q = .readClock) (s : σ) : (asking qs s).Passes s :=
  ⟨h, rfl, rfl, rfl⟩

theorem Passes.map {r : Reaction Effect σ} (h : r.Passes s) (f : σ → τ) : (r.map f).Passes (f s) :=
  ⟨h.before, h.during, congrArg f h.next, h.after⟩

end Reaction

theorem Reading.isSwipe_of_ne {r : Reading} (h : r.sensor ≠ .irGesture) : r.isSwipe = false := by
  rw [isSwipe, decide_eq_false h, Bool.false_and]

namespace Sentry

variable {κ : Type} {r : Routine κ}

theorem passes_prefer {q : Preference} (h : q ≠ r.switch) (now : Instant) (v : Bool) (s : Sentry κ) :
    (s.prefer r now q v).Passes s := by
  rw [prefer, if_neg h]
  exact Reaction.passes_still s

theorem passes_hear {x : Reading} {now : Instant} (ha : ∀ q ∈ r.ahead x, q = .readClock)
    (hx : ∀ enabled core, r.hear enabled now x core = (core, [], [])) (s : Sentry κ) :
    (s.hear r now x).Passes s := by
  obtain ⟨enabled, duty⟩ := s
  cases duty with
  | none => exact Reaction.passes_asking ha _
  | some d =>
    obtain ⟨present, armed, core⟩ := d
    cases armed with
    | false => exact Reaction.passes_asking ha _
    | true =>
      have hcore := hx enabled core
      refine ⟨ha, congrArg (·.2.1) hcore, ?_, congrArg (·.2.2) hcore⟩
      exact congrArg (fun y => Sentry.mk enabled (some ⟨present, true, y⟩)) (congrArg Prod.fst hcore)

end Sentry

theorem Pickup.hear_of_not_mem {sink : Sink} {r : Reading} (h : r.sensor ∉ [Sensor.flatUp, Sensor.stow]) (enabled : Bool)
    (e : PickupEdge) : hear sink enabled r e = (e, [], []) := by
  unfold hear
  split
  · rename_i hs _
    simp [hs] at h
  · rename_i hs _
    simp [hs] at h
  · rfl

theorem Unstow.hear_of_ne {sink : Sink} {r : Reading} (h : r.sensor ≠ .stow) (enabled : Bool) (e : FallingEdge) :
    hear sink enabled r e = (e, [], []) := by
  unfold hear
  split
  · rename_i hs _
    exact absurd hs h
  · rfl

theorem Attentive.hear_of_not_mem {r : Reading} (h : r.sensor ∉ [Sensor.irGesture, Sensor.stow]) (mode : AttentiveMode)
    (window : Span) (enabled : Bool) (now : Instant) (a : Attentive) : a.hear mode window enabled now r = (a, []) := by
  unfold Attentive.hear
  split
  · rename_i hs
    simp [hs] at h
  · rename_i hs
    simp [hs] at h
  · rfl

namespace Member

theorem passes_reading (k : Member) {r : Reading} (h : r.sensor ∉ k.role.sensors) (now : Instant) :
    (k.react now (.reading r)).Passes k := by
  have hne : ∀ {t : Sensor}, r.sensor ∉ [t] → r.sensor ≠ t := fun h e => h (List.mem_singleton.mpr e)
  cases k with
  | observer o =>
    cases o with
    | doze => exact (Reaction.passes_still _).map _
    | flashlight sink =>
      have hr : Observer.hear now r (.flashlight sink) = .still (.flashlight sink) := if_neg (hne h)
      rw [react, hr]
      exact (Reaction.passes_still _).map _
    | pickup sink s =>
      exact ((s.passes_hear (r := Pickup.routine sink) (List.forall_mem_nil _) fun _ _ => Pickup.hear_of_not_mem h ..).map _).map _
    | unstow sink s =>
      exact ((s.passes_hear (r := Unstow.routine sink) (List.forall_mem_nil _) fun _ _ => Unstow.hear_of_ne (hne h) ..).map _).map _
    | approach c sink s =>
      refine ((s.passes_hear (r := Approach.routine c sink) (List.forall_mem_nil _) fun enabled core => ?_).map _).map _
      simp [Approach.routine, Approach.isTrigger, hne h]
    | attentive c mode window s =>
      refine ((s.passes_hear (r := Attentive.routine c mode window) ?_ fun enabled core => ?_).map _).map _
      · exact fun q hq => List.mem_singleton.mp hq
      · simp only [Attentive.routine, Attentive.hear_of_not_mem h]
    | recorder name => exact (Reaction.passes_still _).map _
  | alarm c s =>
    have hswipe := Reading.isSwipe_of_ne (hne h)
    refine (s.passes_hear (r := AlarmSilencer.routine c) ?_ fun enabled core => ?_).map _
    · simp [AlarmSilencer.routine, hswipe]
    · simp [AlarmSilencer.routine, AlarmSilencer.hear, hswipe]
  | call c s =>
    have hswipe := Reading.isSwipe_of_ne (hne h)
    have hr : s.hear now r = .still s := by rw [CallSilencer.hear, hswipe]; rfl
    rw [react, hr]
    exact (Reaction.passes_still s).map _

theorem passes_preference (k : Member) {q : Preference} {v : Bool}
    (h : k.role.heeds (.notice (.preference q v)) = false) (now : Instant) :
    (k.react now (.notice (.preference q v))).Passes k := by
  have hne : ∀ {p : Preference}, decide (some p = some q) = false → q ≠ p := by
    intro p hp e
    exact of_decide_eq_false hp (congrArg some e.symm)
  cases k with
  | observer o =>
    cases o with
    | pickup sink s =>
      exact ((s.passes_prefer (r := Pickup.routine sink) (hne h) now v).map _).map _
    | unstow sink s => exact ((s.passes_prefer (r := Unstow.routine sink) (hne h) now v).map _).map _
    | approach c sink s => exact ((s.passes_prefer (r := Approach.routine c sink) (hne h) now v).map _).map _
    | attentive c mode window s =>
      exact ((s.passes_prefer (r := Attentive.routine c mode window) (hne h) now v).map _).map _
    | _ => cases h
  | alarm c s => exact (s.passes_prefer (r := AlarmSilencer.routine c) (hne h) now v).map _
  | call c s =>
    have hr : s.prefer c now q v = .still s := if_neg (hne h)
    rw [react, hr]
    exact (Reaction.passes_still s).map _

/-- A member passes over what its role does not heed. -/
theorem passes_of_not_heeds (k : Member) {m : Message} (h : k.role.heeds m = false) (now : Instant) :
    (k.react now m).Passes k := by
  cases m with
  | reading r =>
    have hr : r.sensor ∉ k.role.sensors := by
      generalize k.role = ρ at h
      cases ρ <;> exact of_decide_eq_false h
    exact k.passes_reading hr now
  | notice n =>
    cases n with
    | preference q v => exact k.passes_preference h now
    | screen on =>
      cases k with
      | observer o =>
        cases o with
        | flashlight sink => exact (Reaction.passes_still _).map _
        | _ => cases h
      | _ => exact Reaction.passes_still _
  | ringing on =>
    cases k with
    | alarm c s => cases h
    | _ => exact Reaction.passes_still _
  | line l =>
    cases k with
    | call c s => cases h
    | _ => exact Reaction.passes_still _

end Member

end GestureActions
