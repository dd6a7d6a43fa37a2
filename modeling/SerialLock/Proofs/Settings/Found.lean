import SerialLock.Proofs.Attempt
import SerialLock.Proofs.Text.Utf8
import SerialLock.Settings.Resolve

/-!
# The settings that a run finds

Which settings a run uses is a function of the tree of files and of what the environment and the
command line say (`found`).  Looking them up computes it and changes nothing but the log.
-/

set_option autoImplicit false

namespace SerialLock.Settings

variable {setting : Option Bytes} {directory : String}

/-- The environment names a directory exactly if it holds the text of it, and that is not empty. -/
theorem directoryNamed?_eq_some_iff :
    directoryNamed? setting = some directory ↔
      directory.toList ≠ [] ∧ setting = some (Utf8.encode directory.toList) := by
  unfold directoryNamed? Utf8.toString?
  rw [Option.filter_eq_some_iff, Option.bind_eq_some_iff]
  constructor
  · rintro ⟨⟨bytes, rfl, hdecode⟩, hne⟩
    obtain ⟨text, htext, rfl⟩ := Option.map_eq_some_iff.mp hdecode
    obtain rfl := Utf8.decode?_eq_some_iff.mp htext
    exact ⟨by simpa using hne, by rw [String.toList_ofList]⟩
  · rintro ⟨hne, rfl⟩
    refine ⟨⟨_, rfl, ?_⟩, by simpa using hne⟩
    rw [Utf8.decode?_eq_some_iff.mpr rfl, Option.map_some, String.ofList_toList]

/-- A text in the environment that is not empty names a directory. -/
theorem directoryNamed?_encode {text : List Char} (hne : text ≠ []) :
    directoryNamed? (some (Utf8.encode text)) = some (String.ofList text) :=
  directoryNamed?_eq_some_iff.mpr ⟨by rwa [String.toList_ofList], by rw [String.toList_ofList]⟩

/-- The environment names no directory exactly if it holds no text but the empty one. -/
theorem directoryNamed?_eq_none_iff :
    directoryNamed? setting = none ↔ ∀ text ≠ [], setting ≠ some (Utf8.encode text) := by
  rw [Option.eq_none_iff_forall_ne_some]
  constructor
  · rintro hnone text hne rfl
    exact hnone (String.ofList text) (directoryNamed?_encode hne)
  · intro hunheeded directory hnamed
    obtain ⟨hne, hsetting⟩ := directoryNamed?_eq_some_iff.mp hnamed
    exact hunheeded directory.toList hne hsetting

/-- The settings with the lock directory of the environment, or with that of the command line. -/
def overridden (settings : Settings) (setting : Option Bytes) (flag : Option Path) : Settings :=
  let settings := match directoryNamed? setting with
    | some lockDirectory => { settings with lockDirectory }
    | none => settings
  match flag with
  | some path => { settings with lockDirectory := Utf8.display path }
  | none => settings

/-- The settings in the file named, or the usual ones. -/
def base (tree : FileTree) (file : Option Path) : Except Failure Settings :=
  match file with
  | some path => ofContents path (tree.read path)
  | none => .ok {}

/-- The settings of a run. -/
def found (tree : FileTree) (file : Option Path) (setting : Option Bytes) (flag : Option Path) :
    Except Failure Settings :=
  match base tree file with
  | .ok settings => (settings.overridden setting flag).checked
  | .error failure => .error failure

/-- Loading settings reads their file, and changes nothing. -/
theorem attempt_load (machine : Machine) (path : Path) :
    machine.attempt (load path) = (ofContents path (machine.files.read path), machine) := rfl

/-- Looking up the settings of a run yields those that the tree has, and changes nothing but the
log. -/
theorem attempt_resolve (machine : Machine) (file : Option Path) (setting : Option Bytes)
    (flag : Option Path) :
    ∃ log, machine.attempt (resolve file setting flag) =
      (found machine.files file setting flag, { machine with log }) := by
  unfold found overridden base resolve
  cases file with
  | none =>
      cases hdirectory : directoryNamed? setting with
      | none => exact ⟨machine.log, rfl⟩
      | some lockDirectory => exact ⟨_, rfl⟩
  | some path =>
      simp only
      rw [Machine.attempt_bind, attempt_load]
      cases hread : ofContents path (machine.files.read path) with
      | error failure => exact ⟨machine.log, rfl⟩
      | ok settings =>
          cases hdirectory : directoryNamed? setting with
          | none => exact ⟨machine.log, rfl⟩
          | some lockDirectory => exact ⟨_, rfl⟩

/-- Failures about settings. -/
def isFailure : Failure → Bool
  | .settingsFile .. => true
  | .settingsText _ => true
  | .settingsFlaw _ => true
  | _ => false

end SerialLock.Settings
