import GestureActions.Proofs.Service.Following

/-! # What an armed trigger remembers

A trigger of the dark screen goes by edges of flag readings. What it remembers is read off
the readings it has got since it was armed: the last flag of each of its sensors. Being armed
starts with nothing, and readings of other sensors, or without a flag, leave nothing behind.
-/
namespace GestureActions

def Sensor.flag? (s : Sensor) (r : Reading) : Option Bool := if r.sensor = s then r.flag? else none

theorem Sensor.flag?_eq_none {s : Sensor} {r : Reading} (h : ∀ v, r.sensor = s → r.flag? = some v → False) :
    s.flag? r = none := by
  unfold flag?
  split
  · rename_i hs
    exact Option.eq_none_iff_forall_ne_some.mpr fun v hv => h v hs hv
  · rfl

/-- The last flag that a sensor's readings brought. -/
def Sensor.last? (s : Sensor) (l : List Reading) : Option Bool := (l.filterMap s.flag?).getLast?

theorem Sensor.last?_snoc (s : Sensor) (l : List Reading) (r : Reading) :
    s.last? (l ++ [r]) = (s.flag? r).or (s.last? l) := by
  rw [last?, List.filterMap_append, List.getLast?_append]
  cases hr : s.flag? r <;> simp [hr, last?]

/-- The two sentries of the dark screen that go by edges: the device lifted off a flat
surface, and the device taken out of a pocket. -/
inductive Trigger
  | lift
  | unstow
  deriving DecidableEq, Repr

namespace Trigger

def sensors : Trigger → List Sensor
  | lift => [.flatUp, .stow]
  | unstow => [.stow]

/-- Whether a reading sets off a trigger that has got some readings since it was armed. -/
def fires (got : List Reading) (r : Reading) : Trigger → Bool
  | lift => Sensor.flatUp.flag? r = some false && Sensor.flatUp.last? got = some true && Sensor.stow.last? got ≠ some true
  | unstow => Sensor.stow.flag? r = some false && Sensor.stow.last? got = some true

end Trigger

def Pickup.memory (got : List Reading) : PickupEdge :=
  ⟨⟨Sensor.flatUp.last? got = some true⟩, Sensor.stow.last? got = some true⟩

def Unstow.memory (got : List Reading) : FallingEdge := ⟨Sensor.stow.last? got = some true⟩

/-- A routine that goes by the readings got since it was armed, and asks for nothing when it
gets one. -/
structure Routine.Recalls {κ : Type} (r : Routine κ) (sink : Sink) (memory : List Reading → κ)
    (fires : List Reading → Reading → Bool) : Prop where
  arm : ∀ now c, (r.arm now c).1 = memory []
  hear : ∀ now got x, r.hear true now x (memory got) =
    (memory (got ++ [x]), [], if fires got x then [.fire sink] else [])
  ahead : ∀ x, r.ahead x = []

theorem Pickup.recalls (sink : Sink) : (routine sink).Recalls sink memory fun got x => Trigger.lift.fires got x where
  arm _ _ := rfl
  ahead _ := rfl
  hear now got x := by
    simp only [routine, Pickup.hear, memory, Sensor.last?_snoc, Trigger.fires]
    split
    · rename_i v hs hf
      simp only [Sensor.flag?, hs, hf, reduceCtorEq, if_true, if_false, Option.none_or]
      cases v <;> simp [PickupEdge.evaluate, FallingEdge.update]
    · rename_i v hs hf
      simp [Sensor.flag?, hs, hf, PickupEdge.setStowed]
    · rename_i hflat hstow
      simp [Sensor.flag?_eq_none hflat, Sensor.flag?_eq_none hstow]

theorem Unstow.recalls (sink : Sink) : (routine sink).Recalls sink memory fun got x => Trigger.unstow.fires got x where
  arm _ _ := rfl
  ahead _ := rfl
  hear now got x := by
    simp only [routine, Unstow.hear, memory, Sensor.last?_snoc, Trigger.fires]
    split
    · rename_i v hs hf
      simp only [Sensor.flag?, hs, hf, if_true]
      cases v <;> simp [FallingEdge.update]
    · rename_i hstow
      simp [Sensor.flag?_eq_none hstow]

/-- A sentry that remembers, if it is armed, the readings it has got. -/
def Sentry.Recalls {κ : Type} (memory : List Reading → κ) (got : List Reading) (s : Sentry κ) : Prop :=
  ∀ d, s.duty = some d → d.armed = true → d.core = memory got

namespace Sentry

variable {κ : Type} {r : Routine κ} {sink : Sink} {memory : List Reading → κ} {fires : List Reading → Reading → Bool}
  {got : List Reading} {s : Sentry κ}

theorem recalls_of_disarmed (h : s.isArmed = false) (memory : List Reading → κ) (got : List Reading) :
    s.Recalls memory got := by
  intro d hd ha
  rw [isArmed, hd, Option.any_some, ha] at h
  cases h

/-- A duty that is armed already goes on; being armed starts with nothing. -/
theorem core_changes (hr : r.Recalls sink memory fires) {now : Instant} {d : Duty κ} {c : Duty κ × List Request}
    (hc : d.Changes r now c) (hd : d.armed = true → d.core = memory got) (ha : c.1.armed = true) :
    c.1.core = memory (if d.armed then got else []) := by
  cases hc with
  | rest =>
    rw [if_pos ha]
    exact hd ha
  | arm hd' =>
    rw [hd']
    exact hr.arm now d.core
  | disarm _ => cases ha
  | relax hd' => exact absurd (hd'.symm.trans ha) Bool.false_ne_true

theorem Responds.recalls {now : Instant} {a : Reaction Effect (Sentry κ)} (ha : s.Responds r now a)
    (hr : r.Recalls sink memory fires) (hs : s.Recalls memory got) :
    a.next.Recalls memory (if s.isArmed then got else []) := by
  cases ha with
  | still =>
    cases harmed : s.isArmed with
    | true => exact hs
    | false => exact recalls_of_disarmed harmed memory []
  | switch on hd =>
    intro d hd'
    cases hd.symm.trans hd'
  | @change on present d c hd hc =>
    rw [isArmed, hd]
    rintro _ ⟨⟩ harmed
    exact core_changes hr (d := { d with present := present }) hc (hs d hd) harmed

theorem hear_of_armed (r : Routine κ) (now : Instant) (x : Reading) (on : Bool) {d : Duty κ} (ha : d.armed = true) :
    Sentry.hear r now x ⟨on, some d⟩ =
      let heard := r.hear on now x d.core
      ⟨r.ahead x, heard.2.1, ⟨on, none⟩, ⟨on, some { d with core := heard.1 }⟩, heard.2.2⟩ := if_pos ha

theorem hear_of_disarmed (r : Routine κ) (now : Instant) (x : Reading) (h : s.isArmed = false) :
    s.hear r now x = .asking (r.ahead x) s := by
  obtain ⟨on, duty⟩ := s
  cases duty with
  | none => rfl
  | some d => exact if_neg (Bool.eq_false_iff.mp h)

/-- An armed sentry that knows the signals is switched on. -/
theorem Recalls.hear (hr : r.Recalls sink memory fires) (hs : s.Recalls memory got) {present enabled : Bool}
    (hh : s.Heeds present enabled) (now : Instant) (x : Reading) :
    (s.hear r now x).next.Recalls memory (got ++ [x]) ∧ (s.hear r now x).before = [] ∧ (s.hear r now x).during = [] ∧
      (s.hear r now x).after = if s.isArmed && fires got x then [.fire sink] else [] := by
  cases harmed : s.isArmed with
  | false =>
    rw [hear_of_disarmed r now x harmed]
    exact ⟨recalls_of_disarmed harmed memory _, hr.ahead x, rfl, rfl⟩
  | true =>
    obtain ⟨on, duty⟩ := s
    obtain ⟨rfl, d, rfl, _, hd⟩ := hh
    have ha : d.armed = true := harmed
    obtain rfl : on = true := (Bool.and_eq_true_iff.mp (hd.symm.trans ha)).2
    rw [hear_of_armed r now x true ha, hs d rfl ha, hr.hear, hr.ahead]
    refine ⟨?_, rfl, rfl, rfl⟩
    rintro _ ⟨⟩ _
    rfl

end Sentry

end GestureActions
