import GestureActions.Motion.Proximity
import GestureActions.Motion.ScreenLock
import GestureActions.Observer.Sentry
import GestureActions.Settings.Config

/-!
# The attentive display

A sentry whose signal is the screen being on; it keeps the screen lit while something
is in front of the gesture detector. In the simple mode it listens to the stow sensor
only while the lock is held, and the first stow reading that unlocks or comes too
late retires that listener until the next arming. In the merging mode it listens to
both sensors all along and decides anew after each reading.
-/
namespace GestureActions

structure Attentive where
  proximity : Proximity
  lock : ScreenLock
  stowListening : Bool
  stowDone : Bool
  deriving DecidableEq, Repr

namespace Attentive

def name : String := "attentive_display"

/-- Only the merging mode takes a dim hold. -/
def initial (mode : AttentiveMode) (t : Timings) : Attentive :=
  ⟨.initial, .initial (match mode with | .simple => none | .stateMerge => some t.dimHold), false, false⟩

/-- What the armed display asks of the detector. -/
def vote : AttentiveMode → Vote
  | .simple => ⟨true, .empty⟩
  | .stateMerge => .forGestures ((Mask.of .objectDetected).insert .objectNotDetected)

def arm (client : Client) (mode : AttentiveMode) (now : Instant) (a : Attentive) :
    Attentive × List Request :=
  match mode with
  | .simple =>
    ({ a with proximity := .arm now, stowDone := false },
     [.readClock, .register .irGesture, .vote client (vote .simple)])
  | .stateMerge =>
    ({ a with proximity := .arm now, stowDone := false, stowListening := true },
     [.readClock, .register .irGesture, .register .stow, .vote client (vote .stateMerge)])

def powered (c : ScreenLock.Change) : List Request := c.calls.map .power

/-- The lock goes without a dim hold. -/
def release (a : Attentive) : Attentive × List Request :=
  let released := a.lock.releaseNow
  ({ a with lock := released.lock }, powered released)

theorem release_of_unlocked {a : Attentive} (h : a.lock.locked = false) : a.release = (a, []) := by
  obtain ⟨p, ⟨hold, locked, u⟩, listening, done⟩ := a
  cases h
  rfl

/-- The listeners and the vote go first, then the lock. -/
def disarm (client : Client) (a : Attentive) : Attentive × List Request :=
  let (b, released) := release { a with stowListening := false }
  (b, [.unregister .irGesture] ++ (if a.stowListening then [.unregister .stow] else [])
    ++ [.vote client .withdrawn] ++ released)

/-- Listens to the stow sensor, unless it does or is done with it. -/
def listen (a : Attentive) : Attentive × List Request :=
  if a.stowListening || a.stowDone then (a, [])
  else ({ a with stowListening := true }, [.register .stow])

def unlisten (a : Attentive) : Attentive × List Request :=
  if a.stowListening then ({ a with stowListening := false }, [.unregister .stow]) else (a, [])

/-- Nothing is in front of the screen any more, or it is stowed. -/
def letGo (now : Instant) (a : Attentive) : Attentive × List Request :=
  let c := a.lock.unlock now
  let (a, asked) := unlisten { a with lock := c.lock }
  (a, powered c ++ asked)

def simpleGesture (enabled : Bool) (now : Instant) (a : Attentive) : Gesture → Attentive × List Request
  | .objectDetected =>
    if enabled then
      let c := a.lock.lock
      let a := { a with proximity := a.proximity.setObject true now, lock := c.lock }
      if c.changed then
        let (a, asked) := listen a
        (a, powered c ++ asked)
      else (a, [])
    else (a, [])
  | .objectNotDetected => letGo now { a with proximity := a.proximity.setObject false now }
  | _ => (a, [])

def simpleStow (window : Span) (now : Instant) (a : Attentive) (stowed : Bool) :
    Attentive × List Request :=
  if !a.stowListening then (a, [])
  else if !a.proximity.isWithin now window then
    let (a, asked) := unlisten a
    ({ a with stowDone := true }, asked)
  else
    let a := { a with proximity := a.proximity.setStowed stowed now }
    if stowed then
      let (a, asked) := letGo now a
      ({ a with stowDone := true }, asked)
    else (a, [])

/-- Locks or unlocks as the readings together say. -/
def decide (now : Instant) (a : Attentive) : Attentive × List Request :=
  let c := if a.proximity.shouldLock then a.lock.lock else a.lock.unlock now
  ({ a with lock := c.lock }, powered c)

def mergedGesture (enabled : Bool) (now : Instant) (a : Attentive) : Gesture → Attentive × List Request
  | .objectDetected =>
    if enabled then decide now { a with proximity := a.proximity.setObject true now } else (a, [])
  | .objectNotDetected => decide now { a with proximity := a.proximity.setObject false now }
  | _ => (a, [])

def mergedStow (now : Instant) (a : Attentive) (stowed : Bool) : Attentive × List Request :=
  decide now { a with proximity := a.proximity.setStowed stowed now }

def hear (mode : AttentiveMode) (window : Span) (enabled : Bool) (now : Instant) (r : Reading)
    (a : Attentive) : Attentive × List Request :=
  match r.sensor with
  | .irGesture =>
    match r.gesture? with
    | none => (a, [])
    | some g =>
      match mode with
      | .simple => simpleGesture enabled now a g
      | .stateMerge => mergedGesture enabled now a g
  | .stow =>
    match r.flag? with
    | none => (a, [])
    | some v =>
      match mode with
      | .simple => simpleStow window now a v
      | .stateMerge => mergedStow now a v
  | _ => (a, [])

def routine (client : Client) (mode : AttentiveMode) (window : Span) : Routine Attentive where
  switch := .attentive
  arm := arm client mode
  disarm := disarm client
  relax := release
  ahead _ := [.readClock]
  hear enabled now r a :=
    let (a, asked) := hear mode window enabled now r a
    (a, asked, [])

end Attentive

end GestureActions
