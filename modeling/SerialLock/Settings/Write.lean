import SerialLock.Settings.Basic
import SerialLock.Yaml.Written

/-!
# Settings as a document

A mapping with the three settings in a fixed order, one after the other.
-/

set_option autoImplicit false

namespace SerialLock.Settings

/-- The characters of the document. -/
def document (settings : Settings) : List Char :=
  "lock_dir: ".toList ++ Yaml.written settings.lockDirectory.toList
    ++ "lock_prefix: ".toList ++ Yaml.written settings.lockPrefix.toList
    ++ "check_liveness: ".toList ++ (toString settings.checkLiveness).toList ++ ['\n']

/-- The settings as a document. -/
def toText (settings : Settings) : String :=
  String.ofList settings.document

end SerialLock.Settings
