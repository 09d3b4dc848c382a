import GestureActions.Host.Power
import GestureActions.Time.SpanText

/-!
# Screen lock

Holds the screen bright while it is locked. Unlocking takes a dim hold for a while
first, if one is configured; releasing at once takes none. A dim hold runs out by
itself, whatever happens to the lock meanwhile.
-/
namespace GestureActions

structure ScreenLock where
  dimHold : Option Span
  locked : Bool
  dimUntil : Option Instant
  deriving DecidableEq, Repr

namespace ScreenLock

def initial (dimHold : Option Span) : ScreenLock := ⟨dimHold, false, none⟩

/-- Whether an operation changed the lock, what it made of it, and the calls it took. -/
structure Change where
  changed : Bool
  lock : ScreenLock
  calls : List PowerCall
  deriving DecidableEq, Repr

def lock (l : ScreenLock) : Change :=
  if l.locked then ⟨false, l, []⟩ else ⟨true, { l with locked := true }, [.acquire .screenBright]⟩

def unlock (l : ScreenLock) (now : Instant) : Change :=
  if l.locked then
    match l.dimHold with
    | none => ⟨true, { l with locked := false }, [.release .screenBright]⟩
    | some d =>
      ⟨true, { l with locked := false, dimUntil := some (Instant.later now d) },
       [.acquireFor .screenDim d, .release .screenBright]⟩
  else ⟨false, l, []⟩

def releaseNow (l : ScreenLock) : Change :=
  if l.locked then ⟨true, { l with locked := false }, [.release .screenBright]⟩ else ⟨false, l, []⟩

theorem locked_releaseNow (l : ScreenLock) : l.releaseNow.lock.locked = false := by
  obtain ⟨dimHold, locked, u⟩ := l
  cases locked <;> rfl

/-- The end of the dim hold of the last unlocking, as long as it lies ahead. -/
def pending? (l : ScreenLock) (now : Instant) : Option Instant := l.dimUntil.filter (now < ·)

def optional {α : Type} (text : α → String) : Option α → String
  | none => "None"
  | some a => "Some(" ++ text a ++ ")"

def describe (l : ScreenLock) : String :=
  "ScreenLock \x7b locked: " ++ toString l.locked ++ ", dim_hold: " ++ optional Span.text l.dimHold
    ++ ", dim_until: " ++ optional (fun t : Instant => toString t.toInt) l.dimUntil ++ ", .. \x7d"

end ScreenLock

end GestureActions
