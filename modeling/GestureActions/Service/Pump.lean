import GestureActions.Service.HostEvent

/-!
# The event pump

A pump takes events in as long as it runs and applies them in order. Once it is told
to stop, events that wait and the stop signal are both there to be taken: each turn
takes either the next event, or the signal and with it all that is left. A refused
call ends the pump and what waits is dropped.
-/
namespace GestureActions

structure Pump where
  running : Bool
  waiting : List HostEvent
  deriving DecidableEq, Repr

inductive PumpError
  | stopped
  deriving DecidableEq, Repr

def PumpError.message : PumpError → String
  | .stopped => "event pump is stopped"

/-- What a turn of the pump takes, if both are ready. -/
inductive Turn
  | nextEvent
  | stopSignal
  deriving DecidableEq, Repr

namespace Pump

def fresh : Pump := ⟨true, []⟩

def send (e : HostEvent) (p : Pump) : Except PumpError Pump :=
  if p.running then .ok { p with waiting := p.waiting ++ [e] } else .error .stopped

def applyAll (refuses : Refusals) : List HostEvent → World → Outcome World :=
  Outcome.each (World.receive refuses)

/-- The pump's turns after it is told to stop; how many events it applied. -/
def run (refuses : Refusals) : List HostEvent → (Nat → Turn) → World → Outcome (World × Nat)
  | [], _, w => .done (w, 0)
  | e :: r, turns, w =>
    match turns 0 with
    | .stopSignal =>
      match applyAll refuses (e :: r) w with
      | .done w => .done (w, r.length + 1)
      | .refused c w => .refused c (w, 0)
    | .nextEvent =>
      match w.receive refuses e with
      | .refused c w => .refused c (w, 0)
      | .done w =>
        match run refuses r (fun n => turns (n + 1)) w with
        | .done (w, k) => .done (w, k + 1)
        | .refused c (w, k) => .refused c (w, k)

/-- Stops the pump once all that waits is applied; a stopped pump stays as it is. -/
def stop (refuses : Refusals) (turns : Nat → Turn) (p : Pump) (w : World) : Pump × World :=
  if p.running then (⟨false, []⟩, (run refuses p.waiting turns w).state.1) else (p, w)

end Pump

end GestureActions
