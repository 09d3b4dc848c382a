import GestureActions.Observer.Reaction

/-!
# The log

Every call that reached the platform, oldest first, with the party that made it. What
the platform's services have been asked, and so what state they are in, is read off
the log.
-/
namespace GestureActions

/-- Who asks something of the platform. The observers are numbered in the order they
were added. -/
inductive Party
  | observer (i : Nat)
  | alarm
  | call
  | doze
  | flashlight
  deriving DecidableEq, Repr

inductive Call
  | register (s : Sensor)
  | unregister (s : Sensor)
  | configure (s : Setting)
  | power (c : PowerCall)
  | readClock
  | output (o : Output)
  | act
  | record (name : String) (n : Notice)
  deriving DecidableEq, Repr

structure Entry where
  party : Party
  call : Call
  deriving DecidableEq, Repr

abbrev Log := List Entry

namespace Call

def setting? : Call → Option Setting
  | configure s => some s
  | _ => none

def power? : Call → Option PowerCall
  | power c => some c
  | _ => none

def output? : Call → Option Output
  | output o => some o
  | _ => none

end Call

namespace Log

def settings (l : Log) : List Setting := l.filterMap (·.call.setting?)

def power (l : Log) : List PowerCall := l.filterMap (·.call.power?)

def outputs (l : Log) : List Output := l.filterMap (·.call.output?)

def setting (l : Log) : Setting := l.settings.getLastD .idle

def callsOf (l : Log) (p : Party) : List Call := (l.filter (·.party = p)).map (·.call)

end Log

/-- The services of the platform; each may refuse a call. -/
inductive Collaborator
  | sensors | hardware | power | telecom | broadcaster | torch | vibrator | clock | sink
  | recorder (name : String)
  deriving DecidableEq, Repr

namespace Collaborator

def name : Collaborator → String
  | sensors => "sensors"
  | hardware => "hardware"
  | power => "power"
  | telecom => "telecom"
  | broadcaster => "broadcaster"
  | torch => "torch"
  | vibrator => "vibrator"
  | clock => "clock"
  | sink => "sink"
  | recorder n => n

def ofCall : Call → Collaborator
  | .register _ | .unregister _ => sensors
  | .configure _ => hardware
  | .power _ => power
  | .readClock => clock
  | .output .silence => telecom
  | .output (.broadcast _) => broadcaster
  | .output .torch => torch
  | .output (.vibrate _) => vibrator
  | .act => sink
  | .record n _ => recorder n

end Collaborator

/-- Which calls are refused: the collaborator asked, and how many calls are in the log. -/
abbrev Refusals := Nat → Collaborator → Bool

def Refusals.never : Refusals := fun _ _ => false

/-- How far something got: to the end, or to a call that was refused. What was done
before that stays done. -/
inductive Outcome (σ : Type)
  | done (s : σ)
  | refused (c : Collaborator) (s : σ)
  deriving Repr

namespace Outcome

variable {σ α : Type}

def state : Outcome σ → σ
  | done s => s
  | refused _ s => s

def andThen : Outcome σ → (σ → Outcome σ) → Outcome σ
  | done s, f => f s
  | refused c s, _ => refused c s

def each (f : α → σ → Outcome σ) : List α → σ → Outcome σ
  | [], s => done s
  | a :: r, s => (f a s).andThen (each f r)

/-- What every part keeps, refused or not, the whole keeps. -/
theorem each_keeps {P : σ → Prop} {f : α → σ → Outcome σ} {l : List α}
    (h : ∀ a ∈ l, ∀ s, P s → P (f a s).state) {s : σ} (hs : P s) : P (each f l s).state := by
  induction l generalizing s with
  | nil => exact hs
  | cons a r ih =>
    have ha := h a List.mem_cons_self s hs
    unfold each
    cases hf : f a s with
    | done t => rw [hf] at ha; exact ih (fun b hb => h b (List.mem_cons_of_mem a hb)) ha
    | refused c t => rw [hf] at ha; exact ha

end Outcome

end GestureActions
