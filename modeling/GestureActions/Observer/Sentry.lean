import GestureActions.Observer.Reaction

/-!
# Sentries

A sentry is armed while its signal is present and its switch is on. Arming and
disarming ask for the sensors and the vote that go with being armed; readings count
only while it is armed. What distinguishes one sentry from another is its routine.
A sentry without a duty is out of service, but its switch still moves.
-/
namespace GestureActions

structure Duty (κ : Type) where
  present : Bool
  armed : Bool
  core : κ
  deriving DecidableEq, Repr

structure Sentry (κ : Type) where
  enabled : Bool
  duty : Option (Duty κ)
  deriving DecidableEq, Repr

/-- What a sentry does when it is armed, disarmed and, while armed, given a reading; what
it does when it is called off without being armed; and what it asks before it takes any
reading in. -/
structure Routine (κ : Type) where
  switch : Preference
  arm : Instant → κ → κ × List Request
  disarm : κ → κ × List Request
  relax : κ → κ × List Request := fun k => (k, [])
  ahead : Reading → List Request
  hear : Bool → Instant → Reading → κ → κ × List Request × List Effect

namespace Duty

variable {κ : Type}

def arm (r : Routine κ) (now : Instant) (d : Duty κ) : Duty κ × List Request :=
  if d.armed then (d, [])
  else
    let (c, asked) := r.arm now d.core
    ({ d with armed := true, core := c }, asked)

def disarm (r : Routine κ) (d : Duty κ) : Duty κ × List Request :=
  let (c, asked) := if d.armed then r.disarm d.core else r.relax d.core
  ({ d with armed := false, core := c }, asked)

/-- Armed if and only if the signal is present and the switch is on. -/
def settle (r : Routine κ) (now : Instant) (enabled : Bool) (d : Duty κ) : Duty κ × List Request :=
  if d.present && enabled then d.arm r now else d.disarm r

/-- A switch that is turned on while the signal is absent leaves everything as it is. -/
def switched (r : Routine κ) (now : Instant) (on : Bool) (d : Duty κ) : Duty κ × List Request :=
  if !on then d.disarm r
  else if d.present then d.arm r now
  else (d, [])

end Duty

namespace Sentry

variable {κ : Type}

def initial (core : κ) (enabled : Bool) : Sentry κ := ⟨enabled, some ⟨false, false, core⟩⟩

def isArmed (s : Sentry κ) : Bool := s.duty.any (·.armed)

def signal (r : Routine κ) (now : Instant) (present : Bool) (s : Sentry κ) :
    Reaction Effect (Sentry κ) :=
  match s.duty with
  | none => .still s
  | some d =>
    let (d, asked) := Duty.settle r now s.enabled { d with present := present }
    ⟨[], asked, { s with duty := none }, { s with duty := some d }, []⟩

/-- A switch is moved; the others mean nothing to the sentry. -/
def prefer (r : Routine κ) (now : Instant) (p : Preference) (enabled : Bool) (s : Sentry κ) :
    Reaction Effect (Sentry κ) :=
  if p = r.switch then
    match s.duty with
    | none => .still { s with enabled := enabled }
    | some d =>
      let (d, asked) := Duty.switched r now enabled d
      ⟨[], asked, ⟨enabled, none⟩, ⟨enabled, some d⟩, []⟩
  else .still s

def hear (r : Routine κ) (now : Instant) (reading : Reading) (s : Sentry κ) :
    Reaction Effect (Sentry κ) :=
  match s.duty with
  | none => .asking (r.ahead reading) s
  | some d =>
    if d.armed then
      let (c, asked, after) := r.hear s.enabled now reading d.core
      ⟨r.ahead reading, asked, { s with duty := none }, { s with duty := some { d with core := c } },
       after⟩
    else .asking (r.ahead reading) s

end Sentry

end GestureActions
