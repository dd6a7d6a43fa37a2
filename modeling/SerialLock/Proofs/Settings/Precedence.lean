import SerialLock.Proofs.LockFile.Naming

/-!
# Which settings go before which

A run starts from the usual settings or from those in a file, which have to be usable by themselves.
The lock directory alone can be replaced: by the command line, and by the environment where the
command line says nothing (`DirectoryFrom`).  What comes of it is the candidate, and the run uses it
if it has no flaw (`resolve_by_precedence`).  So what is replaced has no effect, be it the
directory in the file or the one in the environment.
-/

set_option autoImplicit false

namespace SerialLock.Settings

/-- The settings that a run starts from, where there are any. -/
inductive StartsFrom (machine : Machine) : Option Path → Settings → Prop where
  | usual : StartsFrom machine none {}
  | file {path : Path} {start : Settings} (hload : (machine.attempt (load path)).1 = .ok start) :
      StartsFrom machine (some path) start

/-- The lock directory of a run comes from the command line, else from the environment if that holds
a text that is not empty, and else from the settings that the run starts from. -/
inductive DirectoryFrom (start : Settings) : Option Bytes → Option Path → String → Prop where
  | flag (setting : Option Bytes) (path : Path) :
      DirectoryFrom start setting (some path) (Utf8.display path)
  | setting (text : List Char) (hne : text ≠ []) :
      DirectoryFrom start (some (Utf8.encode text)) none (String.ofList text)
  | start (setting : Option Bytes) (hunheeded : ∀ text ≠ [], setting ≠ some (Utf8.encode text)) :
      DirectoryFrom start setting none start.lockDirectory

/-- The settings that a run uses unless they have a flaw. -/
structure IsCandidate (start : Settings) (setting : Option Bytes) (flag : Option Path)
    (candidate : Settings) : Prop where
  lockPrefix : candidate.lockPrefix = start.lockPrefix
  checkLiveness : candidate.checkLiveness = start.checkLiveness
  lockDirectory : DirectoryFrom start setting flag candidate.lockDirectory

/-- The command line or the environment names the lock directory. -/
def Overrides (setting : Option Bytes) (flag : Option Path) : Prop :=
  flag ≠ none ∨ ∃ text ≠ [], setting = some (Utf8.encode text)

variable {machine machine' : Machine} {file file' : Option Path} {setting : Option Bytes}
  {flag : Option Path} {start start' candidate : Settings} {directory : String}

/-- Naming another lock directory leaves the prefix as it is. -/
@[simp] theorem overridden_lockPrefix (start : Settings) (setting : Option Bytes)
    (flag : Option Path) : (start.overridden setting flag).lockPrefix = start.lockPrefix := by
  unfold overridden
  cases directoryNamed? setting <;> cases flag <;> rfl

/-- Naming another lock directory leaves it as it is whether owners are looked up. -/
@[simp] theorem overridden_checkLiveness (start : Settings) (setting : Option Bytes)
    (flag : Option Path) : (start.overridden setting flag).checkLiveness = start.checkLiveness := by
  unfold overridden
  cases directoryNamed? setting <;> cases flag <;> rfl

/-- There is one directory that the sources agree on, which is that of the overridden settings. -/
theorem directoryFrom_iff :
    DirectoryFrom start setting flag directory ↔
      directory = (start.overridden setting flag).lockDirectory := by
  unfold overridden
  constructor
  · rintro (⟨setting, path⟩ | ⟨text, hne⟩ | ⟨setting, hunheeded⟩)
    · rfl
    · rw [directoryNamed?_encode hne]
    · rw [directoryNamed?_eq_none_iff.mpr hunheeded]
  · rintro rfl
    cases flag with
    | some path => exact .flag setting path
    | none =>
        cases hnamed : directoryNamed? setting with
        | none => exact .start setting (directoryNamed?_eq_none_iff.mp hnamed)
        | some directory =>
            obtain ⟨hne, rfl⟩ := directoryNamed?_eq_some_iff.mp hnamed
            simpa using @DirectoryFrom.setting start directory.toList hne

/-- There is one candidate, whatever the run starts from. -/
theorem isCandidate_iff :
    IsCandidate start setting flag candidate ↔ candidate = start.overridden setting flag := by
  constructor
  · rintro ⟨hfront, hliveness, hdirectory⟩
    rw [directoryFrom_iff] at hdirectory
    rw [Settings.mk.injEq]
    simp [hfront, hliveness, hdirectory]
  · rintro rfl
    exact ⟨by simp, by simp, directoryFrom_iff.mpr rfl⟩

/-- The settings that a run starts from are those of the file, or the usual ones without a file. -/
theorem startsFrom_iff : StartsFrom machine file start ↔ base machine.files file = .ok start := by
  constructor
  · rintro (_ | hload)
    · rfl
    · exact hload
  · intro hbase
    cases file with
    | none =>
        cases hbase
        exact .usual
    | some path => exact .file hbase

/-- Where there are settings to start from, a run uses them overridden, if they pass their check. -/
theorem attempt_resolve_of_base (hbase : base machine.files file = .ok start) :
    (machine.attempt (resolve file setting flag)).1 = (start.overridden setting flag).checked := by
  obtain ⟨log, hfound⟩ := attempt_resolve machine file setting flag
  rw [hfound, found, hbase]

/-- Of the settings that a run starts from, a lock directory that is named leaves the rest. -/
theorem overridden_eq_of_overrides (hoverrides : Overrides setting flag)
    (hfront : start.lockPrefix = start'.lockPrefix)
    (hliveness : start.checkLiveness = start'.checkLiveness) :
    start.overridden setting flag = start'.overridden setting flag := by
  have hdirectory : (start.overridden setting flag).lockDirectory =
      (start'.overridden setting flag).lockDirectory := by
    unfold overridden
    cases flag with
    | some path => rfl
    | none =>
        rcases hoverrides with hflag | ⟨text, hne, rfl⟩
        · exact absurd rfl hflag
        · rw [directoryNamed?_encode hne]
  rw [Settings.mk.injEq]
  simp [hdirectory, hfront, hliveness]

/-- A settings file that cannot be loaded fails the run, whatever else is named.  Else there is one
candidate, with the rest of the settings that the run starts from and the lock directory that goes
before the others, and the run yields it, or the flaw that it has.  So settings from whatever source
have no flaw, the environment is not asked where the command line names the lock directory, and the
directory in a file has no effect where another is named. -/
theorem resolve_by_precedence (machine : Machine) (file : Option Path) (setting : Option Bytes)
    (flag : Option Path) :
    (∀ path failure, file = some path → (machine.attempt (load path)).1 = .error failure →
      (machine.attempt (resolve file setting flag)).1 = .error failure) ∧
    (∀ start, StartsFrom machine file start → ∃ candidate,
      (∀ other, IsCandidate start setting flag other ↔ other = candidate) ∧
      (candidate.flaw? = none →
        (machine.attempt (resolve file setting flag)).1 = .ok candidate) ∧
      ∀ flaw, candidate.flaw? = some flaw →
        (machine.attempt (resolve file setting flag)).1 = .error (.settingsFlaw flaw)) ∧
    (∀ settings : Settings, settings.Obtained → settings.flaw? = none) ∧
    (flag ≠ none → ∀ setting',
      (machine.attempt (resolve file setting' flag)).1 =
        (machine.attempt (resolve file setting flag)).1) ∧
    (Overrides setting flag → ∀ (machine' : Machine) (file' : Option Path) (start start' : Settings),
      StartsFrom machine file start → StartsFrom machine' file' start' →
      start.lockPrefix = start'.lockPrefix → start.checkLiveness = start'.checkLiveness →
      (machine'.attempt (resolve file' setting flag)).1 =
        (machine.attempt (resolve file setting flag)).1) := by
  refine ⟨?_, ?_, fun settings hobtained => hobtained.flaw?_eq_none, ?_, ?_⟩
  · rintro path failure rfl hload
    have hbase : base machine.files (some path) = .error failure := hload
    obtain ⟨log, hfound⟩ := attempt_resolve machine (some path) setting flag
    rw [hfound, found, hbase]
  · intro start hstart
    have hresult := @attempt_resolve_of_base machine file setting flag start
      (startsFrom_iff.mp hstart)
    refine ⟨start.overridden setting flag, fun other => isCandidate_iff, ?_, ?_⟩
    · intro hflaw
      rw [hresult, checked, hflaw]
    · intro flaw hflaw
      rw [hresult, checked, hflaw]
  · intro hflag setting'
    obtain ⟨path, rfl⟩ := Option.ne_none_iff_exists'.mp hflag
    have hsame (start : Settings) : start.overridden setting' (some path) =
        start.overridden setting (some path) := by
      rw [Settings.mk.injEq]
      exact ⟨rfl, by simp, by simp⟩
    obtain ⟨log, hfound⟩ := attempt_resolve machine file setting (some path)
    obtain ⟨log', hfound'⟩ := attempt_resolve machine file setting' (some path)
    rw [hfound, hfound', found, found]
    simp only [hsame]
  · intro hoverrides machine' file' start start' hstart hstart' hfront hliveness
    rw [attempt_resolve_of_base (startsFrom_iff.mp hstart),
      attempt_resolve_of_base (startsFrom_iff.mp hstart'),
      overridden_eq_of_overrides hoverrides hfront hliveness]

/-- Files with settings: the first two differ in the lock directory alone, and the prefix in the third
cannot be a part of a name. -/
def settingsFiles : Machine where
  processes := []
  files :=
    { entries := [
        ([Utf8.ofString "f"], .file 0),
        ([Utf8.ofString "g"], .file 1),
        ([Utf8.ofString "h"], .file 2)]
      contents := [
        (0, Utf8.ofString "lock_dir: /a\nlock_prefix: P\n"),
        (1, Utf8.ofString "lock_prefix: P\n"),
        (2, Utf8.ofString "lock_prefix: a/b\n")]
      workingDirectory := [] }

/-- The environment goes before either of the two files, whose settings come to the same then.  It is
not heeded where its value is no text, and the third file fails the run though the command line goes
before it. -/
theorem resolve_by_precedence_settingsFiles :
    let named := some (Utf8.ofString "/e")
    let result (file : String) (setting : Option Bytes) (flag : Option Path) :=
      (settingsFiles.attempt (resolve (some (Utf8.ofString file)) setting flag)).1
    result "f" named none = .ok ⟨"/e", "P", true⟩ ∧
      result "g" named none = result "f" named none ∧
      result "f" (some [0xFF]) none = .ok ⟨"/a", "P", true⟩ ∧
      result "h" named (some (Utf8.ofString "/c")) =
        .error (.settingsFlaw (.separatorInPrefix "a/b")) := by
  intro named result
  have hf : StartsFrom settingsFiles (some (Utf8.ofString "f")) ⟨"/a", "P", true⟩ :=
    .file (toOption_eq_some_iff.mp (by decide +kernel))
  have hg : StartsFrom settingsFiles (some (Utf8.ofString "g")) ⟨"/var/lock", "P", true⟩ :=
    .file (toOption_eq_some_iff.mp (by decide +kernel))
  have hcontents : settingsFiles.files.read (Utf8.ofString "h") =
      .ok (Utf8.ofString "lock_prefix: a/b\n") := toOption_eq_some_iff.mp (by decide +kernel)
  have htext : ofText? "lock_prefix: a/b\n".toList = .ok ⟨"/var/lock", "a/b", true⟩ :=
    toOption_eq_some_iff.mp (by decide +kernel)
  have hflaw : flaw? ⟨"/var/lock", "a/b", true⟩ = some (.separatorInPrefix "a/b") := by decide
  have hh : (settingsFiles.attempt (load (Utf8.ofString "h"))).1 =
      .error (.settingsFlaw (.separatorInPrefix "a/b")) := by
    rw [attempt_load, hcontents]
    simp only [ofContents, Utf8.decode?_ofString, ofText, htext, checked, hflaw]
  have hoverrides : Overrides named none := .inr ⟨"/e".toList, by decide, rfl⟩
  obtain ⟨-, hfile, -, -, hsame⟩ :=
    resolve_by_precedence settingsFiles (some (Utf8.ofString "f")) named none
  obtain ⟨-, hfile', -⟩ :=
    resolve_by_precedence settingsFiles (some (Utf8.ofString "f")) (some [0xFF]) none
  obtain ⟨hfailure, -⟩ := resolve_by_precedence settingsFiles (some (Utf8.ofString "h")) named
    (some (Utf8.ofString "/c"))
  obtain ⟨candidate, honly, hok, -⟩ := hfile _ hf
  obtain ⟨candidate', honly', hok', -⟩ := hfile' _ hf
  have hcandidate : IsCandidate ⟨"/a", "P", true⟩ named none ⟨"/e", "P", true⟩ :=
    ⟨rfl, rfl, .setting "/e".toList (by decide)⟩
  have hcandidate' : IsCandidate ⟨"/a", "P", true⟩ (some [0xFF]) none ⟨"/a", "P", true⟩ :=
    isCandidate_iff.mpr (by decide +kernel)
  obtain rfl := (honly _).mp hcandidate
  obtain rfl := (honly' _).mp hcandidate'
  exact ⟨hok (by decide), hsame hoverrides settingsFiles _ _ _ hf hg rfl rfl, hok' (by decide),
    hfailure _ _ rfl hh⟩

end SerialLock.Settings
