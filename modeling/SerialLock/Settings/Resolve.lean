import SerialLock.Failure
import SerialLock.Host

/-!
# The settings of a run

The settings come from a file, if one is named, and are the usual ones otherwise.  The environment
may name another lock directory, and the command line one that goes before that.
-/

set_option autoImplicit false

namespace SerialLock.Settings

/-- The settings themselves, unless they have a flaw. -/
def checked (settings : Settings) : Except Failure Settings :=
  match settings.flaw? with
  | some flaw => .error (.settingsFlaw flaw)
  | none => .ok settings

/-- The usable settings in a text. -/
def ofText (text : List Char) : Except Failure Settings :=
  match ofText? text with
  | .error reason => .error (.settingsText reason)
  | .ok settings => settings.checked

/-- The usable settings in a file with these contents. -/
def ofContents (path : Path) : Except Fault Bytes → Except Failure Settings
  | .error fault => .error (.settingsFile path fault)
  | .ok contents =>
    match Utf8.decode? contents with
    | none => .error (.settingsFile path .notText)
    | some text => ofText text

variable {m : Type → Type} [Monad m] [Host m]

/-- Reads a settings file. -/
def load (path : Path) : Attempt m Settings :=
  ExceptT.mk do return ofContents path (← Host.read path)

/-- The name of the variable that names a lock directory. -/
def directoryVariable : String := "TTYLOCK_LOCK_DIR"

/-- The lock directory that the environment names: a text that is not empty. -/
def directoryNamed? (setting : Option Bytes) : Option String :=
  (setting.bind Utf8.toString?).filter fun text => !text.isEmpty

/-- The settings of a run. -/
def resolve (file : Option Path) (setting : Option Bytes) (flag : Option Path) :
    Attempt m Settings := do
  let settings ← match file with
    | some path => load path
    | none => pure {}
  let settings ← match directoryNamed? setting with
    | some lockDirectory => do
      debug (m := m) .settings s!"lock directory overridden by {directoryVariable}: {lockDirectory}"
      pure { settings with lockDirectory }
    | none => pure settings
  let settings := match flag with
    | some path => { settings with lockDirectory := Utf8.display path }
    | none => settings
  ExceptT.mk (pure settings.checked)

end SerialLock.Settings
