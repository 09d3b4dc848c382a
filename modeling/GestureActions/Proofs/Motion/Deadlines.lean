import GestureActions.Motion.Proximity
import GestureActions.Observer.Sinks

/-! # Deadlines in unbounded time

A window, a delay and an interval are compared in arithmetic that stops at the ends of the
range. The comparisons nevertheless come out as they do among the integers, but for an
interval as long as the last instant: no gap counts as longer than that.
-/
namespace GestureActions

open Instant

/-- What is recorded in a session after its start. -/
inductive Proximity.Change
  | object (v : Bool) (now : Instant)
  | stow (v : Bool) (now : Instant)

namespace Proximity

def change (p : Proximity) : Change → Proximity
  | .object v now => p.setObject v now
  | .stow v now => p.setStowed v now

/-- The proximity in a session that began at an instant. -/
def session (start : Instant) (l : List Change) : Proximity := l.foldl change (arm start)

theorem armedSince_change (p : Proximity) (x : Change) : (p.change x).armedSince = p.armedSince := by
  cases x <;> rfl

/-- Nothing that is recorded in a session moves its start. -/
theorem armedSince_session (start : Instant) (l : List Change) : (session start l).armedSince = start := by
  suffices hkept : ∀ p : Proximity, (l.foldl change p).armedSince = p.armedSince from hkept _
  induction l with
  | nil => exact fun _ => rfl
  | cons x r ih => exact fun p => (ih (p.change x)).trans (p.armedSince_change x)

end Proximity

theorem Span.capped_bounds (d : Span) : 0 ≤ d.capped ∧ d.capped ≤ last := by
  simp only [Span.capped, last]
  omega

namespace Instant

variable (now start : Instant) (d : Span)

theorem toInt_since : (since now start).toInt = max first (min (now.toInt - start.toInt) last) :=
  toInt_nearest _

/-- Where the deadline stops, no instant comes after it. -/
theorem le_later_iff : now ≤ later start d ↔ now.toInt ≤ start.toInt + d.capped := by
  have hnow := toInt_le_last now
  rw [Int64.le_iff_toInt_le, toInt_later]
  omega

/-- Where the gap stops, it is longer than any delay, or negative. -/
theorem capped_le_since_iff : d.capped ≤ (since now start).toInt ↔ d.capped ≤ now.toInt - start.toInt := by
  have hd := d.capped_bounds
  have hfirst : first < 0 := by decide
  rw [toInt_since]
  omega

/-- A gap that stops at the last instant is still longer than any span but the longest. -/
theorem capped_lt_since_iff :
    d.capped < (since now start).toInt ↔ d.capped < last ∧ d.capped < now.toInt - start.toInt := by
  have hd := d.capped_bounds
  have hfirst : first < 0 := by decide
  rw [toInt_since]
  omega

end Instant

theorem Proximity.isWithin_iff (p : Proximity) (now : Instant) (window : Span) :
    p.isWithin now window = true ↔ now.toInt ≤ p.armedSince.toInt + window.capped := by
  rw [isWithin, decide_eq_true_iff, deadline, le_later_iff]

theorem DelayGuard.allows_iff (g : DelayGuard) (now : Instant) :
    g.allows now = true ↔ g.delay.capped ≤ now.toInt - g.armedAt.toInt := by
  rw [allows, decide_eq_true_iff, capped_le_since_iff]

namespace Doze

theorem Throttle.allows_iff (interval : Span) (now : Instant) (t : Throttle) : Throttle.allows interval now t = true ↔
    interval.capped < last ∧ interval.capped < now.toInt - t.lastPulse.toInt := by
  rw [Throttle.allows, decide_eq_true_iff, capped_lt_since_iff]

/-- The longest interval is not over by the last instant, even if it began at the first. -/
example : Throttle.allows (UInt64.ofNat (Nat.pow 2 63)) (nearest last) ⟨nearest first, true⟩ = false := by
  decide

/-- With the screen off a pulse is asked for if the throttle allows it. -/
theorem asks_pulse_iff (interval : Span) (now : Instant) (t : Throttle) :
    .output (.broadcast dozePulse) ∈ (fire false now ⟨interval, some t⟩).after ↔ Throttle.allows interval now t = true := by
  cases h : Throttle.allows interval now t <;> simp [fire, h, Reaction.asking]

end Doze

/-- The three comparisons against what they say of unbounded time: an instant of a session is
within its window up to the deadline, a guard lets through from the end of its delay on, and
the throttle after its interval, unless that is as long as the last instant. -/
theorem Instant.comparisons_exact (start now : Instant) (d : Span) :
    (∀ l, (Proximity.session start l).isWithin now d = true ↔ now.toInt ≤ start.toInt + min (d.toNat : Int) last) ∧
    (∀ before, (DelayGuard.arm ⟨before, d⟩ start).allows now = true ↔
      min (d.toNat : Int) last ≤ now.toInt - start.toInt) ∧
    (∀ off, Doze.Throttle.allows d now ⟨start, off⟩ = true ↔
      min (d.toNat : Int) last < last ∧ min (d.toNat : Int) last < now.toInt - start.toInt) ∧
    ∀ off, .output (.broadcast dozePulse) ∈ (Doze.fire false now ⟨d, some ⟨start, off⟩⟩).after ↔
      min (d.toNat : Int) last < last ∧ min (d.toNat : Int) last < now.toInt - start.toInt := by
  refine ⟨fun l => ?_, fun before => ?_, fun off => ?_, fun off => ?_⟩
  · rw [Proximity.isWithin_iff, Proximity.armedSince_session, Span.capped]
  · exact (DelayGuard.arm ⟨before, d⟩ start).allows_iff now
  · exact Doze.Throttle.allows_iff d now ⟨start, off⟩
  · exact (Doze.asks_pulse_iff d now ⟨start, off⟩).trans (Doze.Throttle.allows_iff d now ⟨start, off⟩)

end GestureActions
