import GestureActions.Settings.Config
import GestureActions.Text.Hidden
import GestureActions.Text.Quoted

/-!
# Messages

What is said about a refused configuration. About a text that spells none there is
nothing to say but that.
-/
namespace GestureActions

namespace FileFault

def message : FileFault → String
  | notFound => "No such file or directory (os error 2)"
  | isADirectory => "Is a directory (os error 21)"
  | invalidData => "stream did not contain valid UTF-8"

end FileFault

namespace ConfigError

def quotedPath (path : String) : String := Text.quoted Text.isHidden path

def invalid (reason : String) : String := "invalid config: " ++ reason

def message? : ConfigError → Option String
  | unreadable path f => some ("failed to read config " ++ quotedPath path ++ ": " ++ f.message)
  | malformed => none
  | stowWindowIsZero => some (invalid "stow_window_ms must be greater than zero")
  | dimHoldIsZero => some (invalid "dim_hold_ms must be greater than zero")
  | unknownPreference key => some ("unknown preference key: " ++ key)

end ConfigError

/-- A switch by its key, or the error that names a key no switch has. -/
def Preference.ofKey (key : String) : Except ConfigError Preference :=
  match Preference.ofKey? key with
  | some p => .ok p
  | none => .error (.unknownPreference key)

end GestureActions
