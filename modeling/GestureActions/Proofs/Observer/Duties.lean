import GestureActions.Observer.Basic
import GestureActions.Observer.CallSilencer

/-! # What becomes of a duty

A change of its signal or of its switch leaves a duty as it is, arms it, disarms it or calls
it off without its being armed. Nothing else comes of what a sentry is told, but for its
switch, so that whatever holds in each of these four cases holds of every answer it gives.
The silencer of calls has no routine, but answers in the same way: its ring is taken up,
dropped or left alone.
-/
namespace GestureActions

namespace Duty

variable {κ : Type} {r : Routine κ} {now : Instant} {d : Duty κ} {b : Duty κ × List Request}

/-- What a duty may come to, with what is asked meanwhile. -/
inductive Changes (r : Routine κ) (now : Instant) (d : Duty κ) : Duty κ × List Request → Prop
  | rest : Changes r now d (d, [])
  | arm (h : d.armed = false) :
      Changes r now d ({ d with armed := true, core := (r.arm now d.core).1 }, (r.arm now d.core).2)
  | disarm (h : d.armed = true) :
      Changes r now d ({ d with armed := false, core := (r.disarm d.core).1 }, (r.disarm d.core).2)
  | relax (h : d.armed = false) :
      Changes r now d ({ d with core := (r.relax d.core).1 }, (r.relax d.core).2)

theorem changes_arm (r : Routine κ) (now : Instant) (d : Duty κ) : Changes r now d (d.arm r now) := by
  unfold Duty.arm
  split
  · exact .rest
  · rename_i h
    exact .arm (Bool.eq_false_iff.mpr h)

theorem changes_disarm (r : Routine κ) (now : Instant) (d : Duty κ) : Changes r now d (d.disarm r) := by
  obtain ⟨present, armed, core⟩ := d
  cases armed with
  | true => exact .disarm rfl
  | false => exact .relax rfl

theorem changes_settle (r : Routine κ) (now : Instant) (enabled : Bool) (d : Duty κ) :
    Changes r now d (d.settle r now enabled) := by
  unfold settle
  split
  · exact changes_arm r now d
  · exact changes_disarm r now d

theorem changes_switched (r : Routine κ) (now : Instant) (on : Bool) (d : Duty κ) :
    Changes r now d (d.switched r now on) := by
  unfold switched
  split
  · exact changes_disarm r now d
  · split
    · exact changes_arm r now d
    · exact .rest

theorem Changes.present (h : Changes r now d b) : b.1.present = d.present := by
  cases h <;> rfl

theorem armed_arm (r : Routine κ) (now : Instant) (d : Duty κ) : (d.arm r now).1.armed = true := by
  unfold Duty.arm
  split
  · assumption
  · rfl

theorem armed_settle (r : Routine κ) (now : Instant) (enabled : Bool) (d : Duty κ) :
    (d.settle r now enabled).1.armed = (d.present && enabled) := by
  unfold settle
  cases d.present && enabled with
  | true => exact armed_arm r now d
  | false => rfl

/-- A duty that is armed as its signal and its switch say still is when the switch is moved. -/
theorem armed_switched (r : Routine κ) (now : Instant) (on : Bool) {was : Bool} (h : d.armed = (d.present && was)) :
    (d.switched r now on).1.armed = (d.present && on) := by
  unfold switched
  cases on with
  | false => exact (Bool.and_false _).symm
  | true =>
    cases hp : d.present with
    | true => exact armed_arm r now d
    | false =>
      rw [hp] at h
      exact h

/-- Nothing comes of being called off without being armed. -/
def Relaxed (r : Routine κ) (d : Duty κ) : Prop := d.armed = false → r.relax d.core = (d.core, [])

theorem disarm_of_relaxed (h : d.Relaxed r) (ha : d.armed = false) : d.disarm r = (d, []) := by
  obtain ⟨present, armed, core⟩ := d
  cases ha
  have hrelax : r.relax core = (core, []) := h rfl
  rw [disarm, if_neg Bool.false_ne_true, hrelax]

/-- Whatever is as it should be is left as it is. -/
theorem settle_of_settled (h : d.Relaxed r) (now : Instant) {enabled : Bool} (ha : d.armed = (d.present && enabled)) :
    d.settle r now enabled = (d, []) := by
  unfold settle
  cases hp : d.present && enabled with
  | true => exact if_pos (ha.trans hp)
  | false => exact disarm_of_relaxed h (ha.trans hp)

/-- Moving its switch settles a duty that is armed as its signal and its switch say. -/
theorem switched_eq_settle (h : d.Relaxed r) (now : Instant) (on : Bool) {was : Bool}
    (ha : d.armed = (d.present && was)) : d.switched r now on = d.settle r now on := by
  unfold switched settle
  cases on with
  | false =>
    rw [Bool.and_false]
    rfl
  | true =>
    cases hp : d.present with
    | true => rfl
    | false =>
      rw [hp] at ha
      exact (disarm_of_relaxed h ha).symm

end Duty

namespace Sentry

variable {κ : Type} {r : Routine κ} {now : Instant} {s : Sentry κ}

/-- How a sentry may answer a notice or a signal. Without a duty its switch alone moves; with
one the duty changes, and is lost if anything is refused meanwhile. -/
inductive Responds (r : Routine κ) (now : Instant) (s : Sentry κ) : Reaction Effect (Sentry κ) → Prop
  | still : Responds r now s (.still s)
  | switch (on : Bool) (h : s.duty = none) : Responds r now s (.still { s with enabled := on })
  | change (on present : Bool) {d : Duty κ} {c : Duty κ × List Request} (h : s.duty = some d)
      (hc : Duty.Changes r now { d with present := present } c) :
      Responds r now s ⟨[], c.2, ⟨on, none⟩, ⟨on, some c.1⟩, []⟩

theorem responds_signal (r : Routine κ) (now : Instant) (present : Bool) (s : Sentry κ) :
    s.Responds r now (s.signal r now present) := by
  obtain ⟨enabled, duty⟩ := s
  cases duty with
  | none => exact .still
  | some d => exact .change enabled present rfl (Duty.changes_settle r now enabled _)

theorem responds_prefer (r : Routine κ) (now : Instant) (p : Preference) (on : Bool) (s : Sentry κ) :
    s.Responds r now (s.prefer r now p on) := by
  obtain ⟨enabled, duty⟩ := s
  unfold prefer
  split
  · cases duty with
    | none => exact .switch on rfl
    | some d => exact .change on d.present rfl (Duty.changes_switched r now on d)
  · exact .still

theorem responds_notice (r : Routine κ) (whenOn : Bool) (now : Instant) (n : Notice) (s : Sentry κ) :
    s.Responds r now (s.notice r whenOn now n) := by
  cases n with
  | screen on => exact responds_signal r now _ s
  | preference p on => exact responds_prefer r now p on s

theorem Responds.before {a : Reaction Effect (Sentry κ)} (h : s.Responds r now a) : a.before = [] := by
  cases h <;> rfl

theorem Responds.after {a : Reaction Effect (Sentry κ)} (h : s.Responds r now a) : a.after = [] := by
  cases h <;> rfl

end Sentry

namespace Line

variable {c : Client} {now : Instant} {l : Line} {b : Line × List Request}

/-- What the ring of a line may come to, with what is asked meanwhile. -/
inductive Changes (c : Client) (now : Instant) (l : Line) : Line × List Request → Prop
  | rest : Changes c now l (l, [])
  | takeUp (h : l.ringing = false) :
      Changes c now l ({ l with ringing := true, guard := l.guard.arm now },
        [.register .irGesture, .vote c (.forGestures (.of .swipe)), .readClock])
  | drop (h : l.ringing = true) :
      Changes c now l ({ l with ringing := false }, [.unregister .irGesture, .vote c (.forGestures .empty)])

theorem changes_takeUp (c : Client) (now : Instant) (l : Line) : Changes c now l (l.takeUp c now) := by
  unfold Line.takeUp
  split
  · exact .rest
  · rename_i h
    exact .takeUp (Bool.eq_false_iff.mpr h)

theorem changes_drop (c : Client) (now : Instant) (l : Line) : Changes c now l (l.drop c) := by
  unfold Line.drop
  split
  · rename_i h
    exact .drop h
  · exact .rest

end Line

namespace CallSilencer

variable {c : Client} {now : Instant} {s : CallSilencer} {a : Reaction Effect CallSilencer}

/-- How a silencer of calls may answer a call state or a switch, as a sentry does. -/
inductive Responds (c : Client) (now : Instant) (s : CallSilencer) : Reaction Effect CallSilencer → Prop
  | still : Responds c now s (.still s)
  | switch (on : Bool) (h : s.line = none) : Responds c now s (.still { s with enabled := on })
  | change (on : Bool) (state : CallState) {l : Line} {b : Line × List Request} (h : s.line = some l)
      (hb : Line.Changes c now { l with state := state } b) :
      Responds c now s ⟨[], b.2, ⟨on, none⟩, ⟨on, some b.1⟩, []⟩

theorem responds_callState (c : Client) (now : Instant) (state : CallState) (s : CallSilencer) :
    s.Responds c now (s.callState c now state) := by
  obtain ⟨enabled, line⟩ := s
  cases line with
  | none => exact .still
  | some l =>
    let k : Line := { l with state := state }
    have hk : Line.Changes c now k
        (if state = .ringing && !k.ringing && enabled then k.takeUp c now
         else if state ≠ .ringing && k.ringing then k.drop c
         else (k, [])) := by
      split
      · exact Line.changes_takeUp c now k
      · split
        · exact Line.changes_drop c now k
        · exact .rest
    exact .change enabled state rfl hk

theorem responds_prefer (c : Client) (now : Instant) (p : Preference) (on : Bool) (s : CallSilencer) :
    s.Responds c now (s.prefer c now p on) := by
  obtain ⟨enabled, line⟩ := s
  unfold prefer
  split
  · cases line with
    | none => exact .switch on rfl
    | some l =>
      have hl : Line.Changes c now l
          (if !on then l.drop c else if l.state = .ringing then l.takeUp c now else (l, [])) := by
        split
        · exact Line.changes_drop c now l
        · split
          · exact Line.changes_takeUp c now l
          · exact .rest
      exact .change on l.state rfl hl
  · exact .still

theorem Responds.before (h : s.Responds c now a) : a.before = [] := by
  cases h <;> rfl

theorem Responds.after (h : s.Responds c now a) : a.after = [] := by
  cases h <;> rfl

end CallSilencer

end GestureActions
