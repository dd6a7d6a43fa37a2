import SerialLock.Path
import SerialLock.Fault.Basic
import SerialLock.Log.Basic

/-!
# What the program needs from the system

The program works in any monad that offers these operations: in one that carries a tree of files
and a process table as values, and in one that asks a real system.
-/

set_option autoImplicit false

namespace SerialLock

/-- The operations of a system. -/
class Host (m : Type → Type) where
  /-- Does the path lead to a regular file? -/
  isFile : Path → m Bool
  /-- The bytes of the file that the path leads to. -/
  read : Path → m (Except Fault Bytes)
  /-- Takes away the entry that the path names. -/
  remove : Path → m (Except Fault Unit)
  /-- Brings the view of the process table up to date for one process. -/
  refresh : Nat → m Unit
  /-- Does the view of the process table show the process as running? -/
  shows : Nat → m Bool
  /-- Takes note of a log record. -/
  tell : Log.Record → m Unit

/-- Tells a record of the level "debug". -/
def debug {m : Type → Type} [Host m] (topic : Log.Topic) (text : String) : m Unit :=
  Host.tell ⟨.debug, topic, text⟩

/-- Tells a record of the level "info". -/
def info {m : Type → Type} [Host m] (topic : Log.Topic) (text : String) : m Unit :=
  Host.tell ⟨.info, topic, text⟩

/-- Tells a record of the level "warn". -/
def warn {m : Type → Type} [Host m] (topic : Log.Topic) (text : String) : m Unit :=
  Host.tell ⟨.warn, topic, text⟩

end SerialLock
