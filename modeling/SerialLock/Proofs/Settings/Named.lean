import SerialLock.Proofs.LockFile.Naming
import SerialLock.Proofs.Run.Result

/-!
# The lock directory that the user names

A lock directory given on the command line, or by the environment where the command line gives none,
is meant to be used as it is named.  Its name is a string of bytes, and the settings hold a text.
So the lock files are looked for in that very directory exactly where its name is a text
(`looksIn_named_iff`), and no lock in it is missed then.  Of a name that is no text, the command line
uses what a message would show of it, and the environment is not heeded, without any failure.
-/

set_option autoImplicit false

namespace SerialLock.Settings

/-- The user names the directory: on the command line, or in the environment alone. -/
def Named (directory : Path) (setting : Option Bytes) (flag : Option Path) : Prop :=
  directory ≠ [] ∧ (flag = some directory ∨ flag = none ∧ setting = some directory)

/-- The name of the lock file for the last segment of a device. -/
def lockName (settings : Settings) (base : List Char) : Name :=
  Utf8.ofString settings.lockPrefix ++ Utf8.encode base

/-- The lock file of every device that has one is the entry of this directory with its name. -/
def LooksIn (settings : Settings) (directory : Path) : Prop :=
  ∀ (device : String) (base : List Char), Path.fileName? device.toList = some base →
    Device.lockPath? settings device = some (Path.join directory (settings.lockName base)) ∧
      ∀ (tree : FileTree) (place : Place) (entry : Entry),
        tree.find false (Path.join directory (settings.lockName base)) = .ok (place, entry) ↔
          FileTree.Takes (Path.join directory (settings.lockName base)) ∧
            (settings.lockName base).length ≤ 255 ∧ ∃ above,
              tree.find true directory = .ok (above, .directory) ∧
                place = above ++ [settings.lockName base] ∧ tree.entry? place = some entry

variable {settings : Settings} {directory : Path} {setting : Option Bytes} {flag : Option Path}
  {file : Option Path} {machine after : Machine}

/-- The settings of a run are those of the file with the directory that was named, checked. -/
theorem exists_base_of_resolve
    (hresolve : machine.attempt (resolve file setting flag) = (.ok settings, after)) :
    ∃ start, base machine.files file = .ok start ∧ settings = start.overridden setting flag ∧
      settings.flaw? = none := by
  obtain ⟨log, hfound⟩ := attempt_resolve machine file setting flag
  rw [hresolve] at hfound
  obtain ⟨hfound, -⟩ := Prod.mk.inj hfound
  unfold found at hfound
  cases hbase : base machine.files file with
  | error failure => simp [hbase] at hfound
  | ok start =>
      simp only [hbase] at hfound
      obtain ⟨hflaw, hsettings⟩ := checked_eq_ok_iff.mp hfound.symm
      exact ⟨start, rfl, hsettings, hsettings ▸ hflaw⟩

/-- A directory whose name is a text is the one of the settings. -/
theorem lockDirectory_of_named {text : List Char} {start : Settings}
    (hnamed : Named (Utf8.encode text) setting flag) :
    (start.overridden setting flag).lockDirectory = String.ofList text := by
  obtain ⟨hne, hgiven⟩ := hnamed
  rcases hgiven with rfl | ⟨rfl, rfl⟩
  · exact Utf8.display_encode text
  · have htext : text ≠ [] := fun hnil => hne (Utf8.encode_eq_nil_iff.mpr hnil)
    unfold overridden
    rw [directoryNamed?_encode htext]

/-- Settings without a flaw look in their own lock directory. -/
theorem looksIn_lockDirectory (hflaw : settings.flaw? = none) :
    settings.LooksIn (Utf8.ofString settings.lockDirectory) := by
  intro device base hbase
  obtain ⟨hdirectory, hprefix, hslash⟩ := of_flaw?_eq_none hflaw
  obtain ⟨hslash', hne, hdot, -⟩ := Path.of_fileName? hbase
  have hname : settings.lockName base = Utf8.encode (settings.lockPrefix.toList ++ base) :=
    (Utf8.encode_append _ _).symm
  obtain ⟨hname₀, hname₁, hname₂, hname₃⟩ :=
    Device.name_ordinary hprefix hslash hne hdot hslash'
  rw [← hname] at hname₀ hname₁ hname₂ hname₃
  have hdirectory' : Utf8.ofString settings.lockDirectory ≠ [] := by
    intro hnil
    exact hdirectory (Utf8.encode_eq_nil_iff.mp hnil)
  constructor
  · unfold Device.lockPath?
    rw [hbase]
    rfl
  · intro tree place entry
    exact FileTree.find_join_iff hdirectory' hname₀ hname₁ hname₂ hname₃

/-- What stands before the name in a path that is a text is a text too: the separator between them
can be the last byte of either directory, or of none. -/
theorem exists_text_of_join_eq {text : List Char} {name : Name} (htext : Utf8.encode text ≠ [])
    (hdirectory : directory ≠ []) (hslash : Path.slash ∉ name)
    (hjoin : Path.join (Utf8.encode text) name = Path.join directory name) :
    ∃ text, directory = Utf8.encode text := by
  rw [Path.join_eq htext hslash, Path.join_eq hdirectory hslash] at hjoin
  have hfront := List.append_cancel_right hjoin
  split at hfront
  · split at hfront
    · exact ⟨text, by simpa using hfront.symm⟩
    · -- the text has the separator that the directory lacks
      rename_i hlast _
      have hlast' : text.getLast? = some '/' := (Utf8.getLast?_encode_iff (by decide)).mp hlast
      obtain ⟨front, rfl⟩ := List.getLast?_eq_some_iff.mp hlast'
      refine ⟨front, ?_⟩
      rw [Utf8.encode_append, List.append_nil] at hfront
      exact (List.append_cancel_right hfront).symm
  · split at hfront
    · -- the directory has the separator that the text lacks
      refine ⟨text ++ ['/'], ?_⟩
      rw [Utf8.encode_append, ← List.append_nil directory]
      exact hfront.symm
    · exact ⟨text, (List.append_cancel_right hfront).symm⟩

/-- Settings without a flaw look in no directory whose name is not a text, as the path of a lock
file is a text. -/
theorem isText_of_looksIn (hflaw : settings.flaw? = none) (hdirectory : directory ≠ [])
    (hlooks : settings.LooksIn directory) : ∃ text, directory = Utf8.encode text := by
  obtain ⟨hdirectory', hprefix, hslash⟩ := of_flaw?_eq_none hflaw
  have hbase : Path.fileName? "a".toList = some ['a'] := by decide
  have hpath := (hlooks "a" ['a'] hbase).1
  rw [(looksIn_lockDirectory hflaw "a" ['a'] hbase).1, Option.some.injEq] at hpath
  have hname : settings.lockName ['a'] = Utf8.encode (settings.lockPrefix.toList ++ ['a']) :=
    (Utf8.encode_append _ _).symm
  have hslash' : Path.slash ∉ settings.lockName ['a'] := by
    rw [hname]
    intro hmem
    have hchar : '/' ∈ settings.lockPrefix.toList ++ ['a'] :=
      (Utf8.mem_encode_iff (by decide)).mp hmem
    rcases List.mem_append.mp hchar with hmem | hmem
    · exact hslash hmem
    · simp at hmem
  have hne : Utf8.encode settings.lockDirectory.toList ≠ [] := by
    intro hnil
    exact hdirectory' (Utf8.encode_eq_nil_iff.mp hnil)
  exact exists_text_of_join_eq hne hdirectory hslash' hpath

/-- A lock that names an owner is not missed in a directory that is looked into. -/
theorem LooksIn.not_free (hlooks : settings.LooksIn directory) {before last : Machine}
    {device : String} {status : DeviceStatus}
    (hrun : before.attempt (DeviceStatus.inspectChosen settings device) = (.ok status, last)) :
    ∃ base, Path.fileName? device.toList = some base ∧
      status.lockPath = Path.join directory (settings.lockName base) ∧
      ∀ n, before.files.number? (Path.join directory (settings.lockName base)) = some n →
        n ≠ 0 → status.state ≠ .free := by
  have hstatus := DeviceStatus.attempt_inspectChosen before settings device
  rw [hrun] at hstatus
  obtain ⟨-, hpath, howner, hliveness⟩ := DeviceStatus.of_statusIn hstatus.symm
  cases hbase : Path.fileName? device.toList with
  | none =>
      unfold Device.lockPath? at hpath
      simp [hbase] at hpath
  | some base =>
      rw [(hlooks device base hbase).1, Option.some.injEq] at hpath
      refine ⟨base, rfl, hpath.symm, ?_⟩
      intro n hn hne hfree
      have hnumber := LockFile.number?_of_ownerIn howner
      rw [← hpath, hn, Option.getD_some] at hnumber
      have hnobody := DeviceStatus.state_eq_free_iff.mp hfree
      rw [hliveness, ← hnumber] at hnobody
      unfold DeviceStatus.livenessOf at hnobody
      simp [Pid.noOwner, hne] at hnobody

/-- The environment is not heeded where it names a directory by what is no text. -/
theorem directoryNamed?_of_not_text (hdecode : Utf8.decode? directory = none) :
    directoryNamed? (some directory) = none := by
  unfold directoryNamed? Utf8.toString?
  simp [hdecode]

/-- A directory that the user names is the one that lock files are looked for in exactly where its
name is a text, unless the settings are refused.  With such a name, a lock in it that names an owner
is never reported free.  Of a name that is no text, the text that a message shows is used where it
stands on the command line, and nothing where it stands in the environment alone. -/
theorem looksIn_named_iff (hnamed : Named directory setting flag)
    (hresolve : machine.attempt (resolve file setting flag) = (.ok settings, after)) :
    (settings.LooksIn directory ↔ (Utf8.decode? directory).isSome) ∧
      ((Utf8.decode? directory).isSome →
        ∀ (before last : Machine) (device : String) (status : DeviceStatus),
          before.attempt (DeviceStatus.inspectChosen settings device) = (.ok status, last) →
          ∃ base, Path.fileName? device.toList = some base ∧
            status.lockPath = Path.join directory (settings.lockName base) ∧
            ∀ n, before.files.number? (Path.join directory (settings.lockName base)) = some n →
              n ≠ 0 → status.state ≠ .free) ∧
      (Utf8.decode? directory = none → flag = some directory →
        settings.lockDirectory = Utf8.display directory) ∧
      (Utf8.decode? directory = none → flag = none →
        machine.attempt (resolve file none none) = (.ok settings, after)) := by
  obtain ⟨start, -, hsettings, hflaw⟩ := exists_base_of_resolve hresolve
  have hlooks (htext : (Utf8.decode? directory).isSome) : settings.LooksIn directory := by
    obtain ⟨text, hdecode⟩ := Option.isSome_iff_exists.mp htext
    obtain rfl := Utf8.decode?_eq_some_iff.mp hdecode
    have hused : Utf8.ofString settings.lockDirectory = Utf8.encode text := by
      unfold Utf8.ofString
      rw [hsettings, lockDirectory_of_named hnamed, String.toList_ofList]
    rw [← hused]
    exact looksIn_lockDirectory hflaw
  refine ⟨⟨?_, hlooks⟩, ?_, ?_, ?_⟩
  · intro hlooksIn
    obtain ⟨text, htext⟩ := isText_of_looksIn hflaw hnamed.1 hlooksIn
    rw [Utf8.decode?_eq_some_iff.mpr htext]
    rfl
  · intro htext before last device status hrun
    exact (hlooks htext).not_free hrun
  · rintro - rfl
    rw [hsettings]
    rfl
  -- a value of the environment that is no text is passed over as if it were not there
  · rintro hdecode rfl
    obtain ⟨-, hgiven⟩ := hnamed
    rcases hgiven with hflag | ⟨-, rfl⟩
    · cases hflag
    rw [← hresolve]
    unfold resolve
    rw [directoryNamed?_of_not_text hdecode]
    rfl

/-- A process that is running holds a lock in a directory whose name is a single byte that is no
text. -/
def heldLock : Machine where
  processes := [(1, .running)]
  files :=
    { entries := [
        ([[0xFF]], .directory),
        ([[0xFF], Utf8.ofString "LCK..a"], .file 0)]
      contents := [(0, Utf8.ofString "1\n")]
      workingDirectory := [] }

/-- The directory of the held lock is not looked into, and its device is reported free.  A lock in a
directory that the environment names by a text is not missed. -/
theorem looksIn_named_heldLock :
    let replaced : Settings := { lockDirectory := "\uFFFD" }
    let kept : Settings := { lockDirectory := "/l" }
    Named [0xFF] none (some [0xFF]) ∧
      (heldLock.attempt (resolve none none (some [0xFF]))).1 = .ok replaced ∧
      ¬replaced.LooksIn [0xFF] ∧ replaced.lockDirectory = Utf8.display [0xFF] ∧
      heldLock.files.number? ([0xFF] ++ Utf8.ofString "/LCK..a") = some 1 ∧
      (heldLock.run {} [Utf8.ofString "--lock-dir", [0xFF], Utf8.ofString "status",
        Utf8.ofString "a"]).1.outcome = .done ⟨ExitCode.success, "a: free\n"⟩ ∧
      Named (Utf8.ofString "/l") (some (Utf8.ofString "/l")) none ∧
      kept.LooksIn (Utf8.ofString "/l") ∧
      ∃ status, (DeviceStatus.busyLocks.attempt (DeviceStatus.inspectChosen kept "c")).1 =
        .ok status ∧ status.state ≠ .free := by
  intro replaced kept
  have hnamed : Named [0xFF] none (some [0xFF]) := ⟨by simp, .inl rfl⟩
  have hresolve : heldLock.attempt (resolve none none (some [0xFF])) = (.ok replaced, heldLock) :=
    rfl
  obtain ⟨hlooks, -, hshown, -⟩ := looksIn_named_iff hnamed hresolve
  have hnamed' : Named (Utf8.ofString "/l") (some (Utf8.ofString "/l")) none :=
    ⟨by decide, .inr ⟨rfl, rfl⟩⟩
  have hresolve' : DeviceStatus.busyLocks.attempt
      (resolve none (some (Utf8.ofString "/l")) none) =
        (.ok kept, (DeviceStatus.busyLocks.attempt
          (resolve none (some (Utf8.ofString "/l")) none)).2) := rfl
  obtain ⟨hlooks', hheld, -, -⟩ := looksIn_named_iff hnamed' hresolve'
  have htext : (Utf8.decode? (Utf8.ofString "/l")).isSome := by rw [Utf8.decode?_ofString]; rfl
  have hrun : DeviceStatus.busyLocks.attempt (DeviceStatus.inspectChosen kept "c") =
      (.ok ⟨"c", Utf8.ofString "/l/LCK..c", 12, some .alive⟩,
        (DeviceStatus.busyLocks.attempt (DeviceStatus.inspectChosen kept "c")).2) := by
    have hstatus := DeviceStatus.attempt_inspectChosen DeviceStatus.busyLocks
      { lockDirectory := "/l" } "c"
    have hanswer : DeviceStatus.statusIn DeviceStatus.busyLocks.files { lockDirectory := "/l" }
        (Checker.ruleOf true DeviceStatus.busyLocks.processes) "c" =
          .ok ⟨"c", Utf8.ofString "/l/LCK..c", 12, some .alive⟩ := rfl
    exact Prod.ext (hstatus.trans hanswer) rfl
  obtain ⟨base, hbase, -, hfree⟩ := hheld htext _ _ _ _ hrun
  obtain rfl : base = ['c'] := by
    have hname : Path.fileName? "c".toList = some ['c'] := by decide
    rw [hname] at hbase
    exact (Option.some.inj hbase).symm
  refine ⟨hnamed, rfl, ?_, hshown rfl rfl, by decide +kernel, by decide +kernel, hnamed',
    hlooks'.mpr htext, _, congrArg Prod.fst hrun, hfree 12 (by decide +kernel) (by decide)⟩
  intro hlooksIn
  have hnone : Utf8.decode? [0xFF] = none := by decide
  rw [hlooks, hnone] at hlooksIn
  cases hlooksIn

end SerialLock.Settings
