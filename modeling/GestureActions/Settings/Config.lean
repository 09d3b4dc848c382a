import GestureActions.Settings.Preferences
import GestureActions.Time.Instant

/-!
# Configuration

The switches' values before the host's storage is asked, five spans, and the way the
attentive display works. A window or a dim hold of no length is refused, the window
first.
-/
namespace GestureActions

/-- How the attentive display treats its stow sensor. -/
inductive AttentiveMode
  /-- Listens to it only while the lock is held, for a window after arming. -/
  | simple
  /-- Listens to it all along and merges both sensors into one decision. -/
  | stateMerge
  deriving DecidableEq, Repr

namespace AttentiveMode

def all : List AttentiveMode := [simple, stateMerge]

def name : AttentiveMode → String
  | simple => "simple"
  | stateMerge => "state_merge"

/-- The name in descriptions. -/
def title : AttentiveMode → String
  | simple => "Simple"
  | stateMerge => "StateMerge"

end AttentiveMode

structure Timings where
  silenceDelay : Span
  stowWindow : Span
  dimHold : Span
  dozeInterval : Span
  vibration : Span
  deriving DecidableEq, Repr

def Timings.byDefault : Timings := ⟨500, 5000, 3000, 1500, 250⟩

structure Config where
  preferences : Preferences
  timings : Timings
  mode : AttentiveMode
  deriving DecidableEq, Repr

inductive FileFault
  | notFound | isADirectory | invalidData
  deriving DecidableEq, Repr

inductive ConfigError
  /-- The file could not be read as text. -/
  | unreadable (path : String) (fault : FileFault)
  /-- The text is no configuration. -/
  | malformed
  | stowWindowIsZero
  | dimHoldIsZero
  | unknownPreference (key : String)
  deriving DecidableEq, Repr

namespace Config

def byDefault : Config := ⟨.byDefault, .byDefault, .stateMerge⟩

def check (c : Config) : Except ConfigError Config :=
  if c.timings.stowWindow = 0 then .error .stowWindowIsZero
  else if c.timings.dimHold = 0 then .error .dimHoldIsZero
  else .ok c

end Config

end GestureActions
