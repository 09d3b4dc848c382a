import GestureActions.Observer.AlarmSilencer

/-!
# The call silencer

Follows the state of the telephone line and silences the ringer on a swipe, unless the
swipe comes too soon after the ringing started. It takes up a ring when the line
begins to ring with the switch on or when the switch is turned on while the line
rings, and drops it when either ends.
-/
namespace GestureActions

inductive CallState
  | idle | ringing | offHook
  deriving DecidableEq, Repr

namespace CallState

def all : List CallState := [idle, ringing, offHook]

def name : CallState → String
  | idle => "idle"
  | ringing => "ringing"
  | offHook => "off_hook"

end CallState

/-- The state of the line, whether its ring is taken up, and since when. -/
structure Line where
  state : CallState
  ringing : Bool
  guard : DelayGuard
  deriving DecidableEq, Repr

/-- Without a line the silencer is out of service. -/
structure CallSilencer where
  enabled : Bool
  line : Option Line
  deriving DecidableEq, Repr

namespace Line

def takeUp (client : Client) (now : Instant) (l : Line) : Line × List Request :=
  if l.ringing then (l, [])
  else
    ({ l with ringing := true, guard := l.guard.arm now },
     [.register .irGesture, .vote client (.forGestures (.of .swipe)), .readClock])

def drop (client : Client) (l : Line) : Line × List Request :=
  if l.ringing then
    ({ l with ringing := false }, [.unregister .irGesture, .vote client (.forGestures .empty)])
  else (l, [])

end Line

namespace CallSilencer

def initial (delay : Span) (enabled : Bool) : CallSilencer :=
  ⟨enabled, some ⟨.idle, false, .ofDelay delay⟩⟩

def isArmed (s : CallSilencer) : Bool := s.line.any (·.ringing)

def callState (client : Client) (now : Instant) (c : CallState) (s : CallSilencer) :
    Reaction Effect CallSilencer :=
  match s.line with
  | none => .still s
  | some l =>
    let l := { l with state := c }
    let (l, asked) :=
      if c = .ringing && !l.ringing && s.enabled then l.takeUp client now
      else if c ≠ .ringing && l.ringing then l.drop client
      else (l, [])
    ⟨[], asked, { s with line := none }, { s with line := some l }, []⟩

def prefer (client : Client) (now : Instant) (p : Preference) (enabled : Bool) (s : CallSilencer) :
    Reaction Effect CallSilencer :=
  if p = .silence then
    match s.line with
    | none => .still { s with enabled := enabled }
    | some l =>
      let (l, asked) :=
        if !enabled then l.drop client
        else if l.state = .ringing then l.takeUp client now
        else (l, [])
      ⟨[], asked, ⟨enabled, none⟩, ⟨enabled, some l⟩, []⟩
  else .still s

def hear (now : Instant) (r : Reading) (s : CallSilencer) : Reaction Effect CallSilencer :=
  if r.isSwipe then
    ⟨[.readClock], [], s, s,
     if s.enabled && s.line.any (fun l => l.ringing && l.guard.allows now) then
       [.ask (.output .silence)] else []⟩
  else .still s

end CallSilencer

end GestureActions
