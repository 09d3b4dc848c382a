import GestureActions.Proofs.Observer.Power
import GestureActions.Proofs.Observer.Roles

/-! # What members do once their change is made

A sink hears of notices through the doze observer or the listener that passes switches on,
and is fired by readings of the sensor that the role of the firing member is about. The
silencers speak at readings of the gesture detector, and recorders note what they are told.
-/
namespace GestureActions

/-- The sink an effect goes to. -/
def Effect.sink? : Effect → Option Sink
  | ask _ => none
  | fire s | inform s _ => some s

/-- What a member of a role may do once it has been told a message. -/
inductive Role.Sends : Role → Message → Effect → Prop
  | notice (n : Notice) : Sends .doze (.notice n) (.inform .doze n)
  | switch (sink : Sink) (p : Preference) (v : Bool) :
    Sends (.flashlight sink) (.notice (.preference p v)) (.inform sink (.preference p v))
  | chop (sink : Sink) {r : Reading} (h : r.sensor = .chopChop) : Sends (.flashlight sink) (.reading r) (.fire sink)
  | lift (sink : Sink) {r : Reading} (h : r.sensor = .flatUp) : Sends (.pickup sink) (.reading r) (.fire sink)
  | unstow (sink : Sink) {r : Reading} (h : r.sensor = .stow) : Sends (.unstow sink) (.reading r) (.fire sink)
  | approach (c : Client) (sink : Sink) {r : Reading} (h : r.sensor = .irGesture) :
    Sends (.approach c sink) (.reading r) (.fire sink)
  | record (name : String) (n : Notice) : Sends (.recorder name) (.notice n) (.ask (.record name n))
  | snooze (c : Client) {r : Reading} (h : r.isSwipe = true) :
    Sends (.alarm c) (.reading r) (.ask (.output AlarmSilencer.voice))
  | hush (c : Client) {r : Reading} (h : r.isSwipe = true) : Sends (.call c) (.reading r) (.ask (.output .silence))

namespace Sentry

variable {κ : Type}

theorem mem_after_hear {r : Routine κ} {now : Instant} {x : Reading} {s : Sentry κ} {e : Effect}
    (he : e ∈ (s.hear r now x).after) : ∃ enabled core, e ∈ (r.hear enabled now x core).2.2 := by
  unfold hear at he
  split at he
  · exact absurd he List.not_mem_nil
  · rename_i d _
    split at he
    · exact ⟨s.enabled, d.core, he⟩
    · exact absurd he List.not_mem_nil

/-- A sentry whose routine fires its sink or does nothing fires it while it is armed only. -/
theorem fires_or_not {r : Routine κ} {sink : Sink}
    (hr : ∀ enabled now x core, (r.hear enabled now x core).2.2 = [] ∨ (r.hear enabled now x core).2.2 = [.fire sink])
    (now : Instant) (x : Reading) (s : Sentry κ) :
    (s.hear r now x).after = [] ∨ (s.hear r now x).after = [.fire sink] ∧ s.isArmed = true := by
  unfold hear
  split
  · exact Or.inl rfl
  · rename_i d hd
    split
    · rename_i ha
      refine (hr s.enabled now x d.core).imp id fun hfire => ⟨hfire, ?_⟩
      rw [isArmed, hd]
      exact ha
    · exact Or.inl rfl

end Sentry

theorem Pickup.fires_or_not (sink : Sink) (enabled : Bool) (now : Instant) (x : Reading) (core : PickupEdge) :
    ((routine sink).hear enabled now x core).2.2 = [] ∨ ((routine sink).hear enabled now x core).2.2 = [.fire sink] := by
  simp only [routine, hear]
  split
  · dsimp only
    split
    · exact Or.inr rfl
    · exact Or.inl rfl
  · exact Or.inl rfl
  · exact Or.inl rfl

theorem Unstow.fires_or_not (sink : Sink) (enabled : Bool) (now : Instant) (x : Reading) (core : FallingEdge) :
    ((routine sink).hear enabled now x core).2.2 = [] ∨ ((routine sink).hear enabled now x core).2.2 = [.fire sink] := by
  simp only [routine, hear]
  split
  · dsimp only
    split
    · exact Or.inr rfl
    · exact Or.inl rfl
  · exact Or.inl rfl

theorem Approach.fires_or_not (c : Client) (sink : Sink) (enabled : Bool) (now : Instant) (x : Reading) (core : Unit) :
    ((routine c sink).hear enabled now x core).2.2 = [] ∨
      ((routine c sink).hear enabled now x core).2.2 = [.fire sink] := by
  simp only [routine]
  split
  · exact Or.inr rfl
  · exact Or.inl rfl

namespace Observer

variable {now : Instant} {o : Observer} {e : Effect}

theorem sends_of_notice {n : Notice} (he : e ∈ (o.notice now n).after) :
    (Member.observer o).role.Sends (.notice n) e := by
  cases o with
  | doze =>
    rw [List.mem_singleton.mp he]
    exact .notice n
  | flashlight sink =>
    cases n with
    | screen on => exact absurd he List.not_mem_nil
    | preference p v =>
      rw [List.mem_singleton.mp he]
      exact .switch sink p v
  | recorder name =>
    rw [List.mem_singleton.mp he]
    exact .record name n
  | pickup sink s =>
    change e ∈ (s.notice (Pickup.routine sink) false now n).after at he
    rw [(s.responds_notice (Pickup.routine sink) false now n).after] at he
    exact absurd he List.not_mem_nil
  | unstow sink s =>
    change e ∈ (s.notice (Unstow.routine sink) false now n).after at he
    rw [(s.responds_notice (Unstow.routine sink) false now n).after] at he
    exact absurd he List.not_mem_nil
  | approach c sink s =>
    change e ∈ (s.notice (Approach.routine c sink) false now n).after at he
    rw [(s.responds_notice (Approach.routine c sink) false now n).after] at he
    exact absurd he List.not_mem_nil
  | attentive c mode window s =>
    change e ∈ (s.notice (Attentive.routine c mode window) true now n).after at he
    rw [(s.responds_notice (Attentive.routine c mode window) true now n).after] at he
    exact absurd he List.not_mem_nil

theorem sends_of_reading {r : Reading} (he : e ∈ (o.hear now r).after) :
    (Member.observer o).role.Sends (.reading r) e := by
  cases o with
  | flashlight sink =>
    unfold hear at he
    dsimp only at he
    split at he
    · rename_i hr
      rw [List.mem_singleton.mp he]
      exact .chop sink hr
    · exact absurd he List.not_mem_nil
  | pickup sink s =>
    obtain ⟨enabled, core, he⟩ := Sentry.mem_after_hear he
    simp only [Pickup.routine, Pickup.hear] at he
    split at he
    · rename_i hr _
      dsimp only at he
      split at he
      · rw [List.mem_singleton.mp he]
        exact .lift sink hr
      · exact absurd he List.not_mem_nil
    · exact absurd he List.not_mem_nil
    · exact absurd he List.not_mem_nil
  | unstow sink s =>
    obtain ⟨enabled, core, he⟩ := Sentry.mem_after_hear he
    simp only [Unstow.routine, Unstow.hear] at he
    split at he
    · rename_i hr _
      dsimp only at he
      split at he
      · rw [List.mem_singleton.mp he]
        exact .unstow sink hr
      · exact absurd he List.not_mem_nil
    · exact absurd he List.not_mem_nil
  | approach c sink s =>
    obtain ⟨enabled, core, he⟩ := Sentry.mem_after_hear he
    simp only [Approach.routine, Approach.isTrigger, Bool.and_eq_true, decide_eq_true_eq] at he
    split at he
    · rename_i hr
      rw [List.mem_singleton.mp he]
      exact .approach c sink hr.1.1
    · exact absurd he List.not_mem_nil
  | attentive c mode window s =>
    obtain ⟨enabled, core, he⟩ := Sentry.mem_after_hear he
    exact absurd he List.not_mem_nil
  | _ => exact absurd he List.not_mem_nil

end Observer

/-- All that a member does once it has been told a message goes by its role. -/
theorem Member.sends_of_mem_after {now : Instant} {m : Message} {k : Member} {e : Effect}
    (he : e ∈ (k.react now m).after) : k.role.Sends m e := by
  cases k with
  | observer o =>
    cases m with
    | notice n => exact Observer.sends_of_notice he
    | reading r => exact Observer.sends_of_reading he
    | _ => exact absurd he List.not_mem_nil
  | alarm c s =>
    cases m with
    | notice n =>
      cases n with
      | screen on => exact absurd he List.not_mem_nil
      | preference p v =>
        change e ∈ (s.prefer (AlarmSilencer.routine c) now p v).after at he
        rw [(s.responds_prefer (AlarmSilencer.routine c) now p v).after] at he
        exact absurd he List.not_mem_nil
    | ringing on =>
      change e ∈ (s.signal (AlarmSilencer.routine c) now on).after at he
      rw [(s.responds_signal (AlarmSilencer.routine c) now on).after] at he
      exact absurd he List.not_mem_nil
    | line l => exact absurd he List.not_mem_nil
    | reading r =>
      obtain ⟨enabled, core, he⟩ := Sentry.mem_after_hear he
      simp only [AlarmSilencer.routine, AlarmSilencer.hear, Bool.and_eq_true] at he
      split at he
      · rename_i hr
        rw [List.mem_singleton.mp he]
        exact .snooze c hr.1.1
      · exact absurd he List.not_mem_nil
  | call c s =>
    cases m with
    | notice n =>
      cases n with
      | screen on => exact absurd he List.not_mem_nil
      | preference p v =>
        change e ∈ (s.prefer c now p v).after at he
        rw [(s.responds_prefer c now p v).after] at he
        exact absurd he List.not_mem_nil
    | ringing on => exact absurd he List.not_mem_nil
    | line l =>
      change e ∈ (s.callState c now l).after at he
      rw [(s.responds_callState c now l).after] at he
      exact absurd he List.not_mem_nil
    | reading r =>
      change e ∈ (s.hear now r).after at he
      unfold CallSilencer.hear at he
      split at he
      · rename_i hr
        dsimp only at he
        split at he
        · rw [List.mem_singleton.mp he]
          exact .hush c hr
        · exact absurd he List.not_mem_nil
      · exact absurd he List.not_mem_nil

end GestureActions
