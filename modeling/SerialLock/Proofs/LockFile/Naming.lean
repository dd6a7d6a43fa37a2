import SerialLock.Proofs.FileName
import SerialLock.Proofs.FileTree.Inside
import SerialLock.Proofs.Results
import SerialLock.Proofs.Settings.Found
import SerialLock.Proofs.Status.Inspect
import SerialLock.Proofs.Text.Ascii

/-!
# Lock files lie in the lock directory

Settings that come out of a text, of a file or of a run have no flaw (`Obtained.flaw?_eq_none`).
With such settings the path of a lock file is the lock directory, one separator and a single name
that is no special one, so that it names an entry of the lock directory and never anything above or
below it (`lockPath_inside`).
-/

set_option autoImplicit false

namespace SerialLock

namespace Settings

variable {settings : Settings}

/-- The settings come out of a text, of a settings file or of the search for those of a run. -/
inductive Obtained (settings : Settings) : Prop where
  | text (text : List Char) (hok : ofText text = .ok settings)
  | file (machine : Machine) (path : Path) (hok : (machine.attempt (load path)).1 = .ok settings)
  | run (machine : Machine) (file : Option Path) (setting : Option Bytes) (flag : Option Path)
      (hok : (machine.attempt (resolve file setting flag)).1 = .ok settings)

/-- Settings pass their check exactly if they have no flaw, and they pass it as they are. -/
theorem checked_eq_ok_iff {checked : Settings} :
    settings.checked = .ok checked ↔ settings.flaw? = none ∧ checked = settings := by
  unfold Settings.checked
  cases settings.flaw? with
  | none => simp [eq_comm]
  | some flaw => simp

/-- Settings out of a text have no flaw. -/
theorem flaw?_of_ofText {text : List Char} (hok : ofText text = .ok settings) :
    settings.flaw? = none := by
  unfold ofText at hok
  cases hread : ofText? text with
  | error reason => simp [hread] at hok
  | ok read =>
      simp only [hread] at hok
      obtain ⟨hflaw, rfl⟩ := checked_eq_ok_iff.mp hok
      exact hflaw

/-- Settings out of a file have no flaw. -/
theorem flaw?_of_ofContents {path : Path} {contents : Except Fault Bytes}
    (hok : ofContents path contents = .ok settings) : settings.flaw? = none := by
  unfold ofContents at hok
  cases contents with
  | error fault => simp at hok
  | ok bytes =>
      cases hdecode : Utf8.decode? bytes with
      | none => simp [hdecode] at hok
      | some text =>
          simp only [hdecode] at hok
          exact flaw?_of_ofText hok

/-- Whatever source settings come from, they have been checked. -/
theorem Obtained.flaw?_eq_none (hobtained : settings.Obtained) : settings.flaw? = none := by
  cases hobtained with
  | text text hok => exact flaw?_of_ofText hok
  | file machine path hok => exact flaw?_of_ofContents hok
  | run machine file setting flag hok =>
      obtain ⟨log, hresolve⟩ := attempt_resolve machine file setting flag
      rw [hresolve] at hok
      unfold found at hok
      cases hbase : base machine.files file with
      | error failure => simp [hbase] at hok
      | ok start =>
          simp only [hbase] at hok
          obtain ⟨hflaw, rfl⟩ := checked_eq_ok_iff.mp hok
          exact hflaw

/-- Settings without a flaw have a directory, and a prefix that can be a part of a name. -/
theorem of_flaw?_eq_none (hflaw : settings.flaw? = none) :
    settings.lockDirectory.toList ≠ [] ∧ settings.lockPrefix.toList ≠ [] ∧
      '/' ∉ settings.lockPrefix.toList := by
  unfold flaw? at hflaw
  split at hflaw
  · cases hflaw
  · rename_i hdirectory
    split at hflaw
    · cases hflaw
    · rename_i hprefix
      split at hflaw
      · cases hflaw
      · rename_i hslash
        exact ⟨by simpa using hdirectory, by simpa using hprefix, by simpa using hslash⟩

end Settings

namespace Device

/-- A prefix and the name of a device make a name that is no special one. -/
theorem name_ordinary {front base : List Char} (hfront : front ≠ []) (hslash : '/' ∉ front)
    (hbase : base ≠ []) (hdot : base ≠ ['.']) (hslash' : '/' ∉ base) :
    let name := Utf8.encode (front ++ base)
    name ≠ [] ∧ Path.slash ∉ name ∧ name ≠ [Path.dot] ∧ name ≠ [Path.dot, Path.dot] := by
  have hencode {special : List Char}
      (hspecial : Utf8.encode (front ++ base) = Utf8.encode special) :
      front ++ base = special := Utf8.encode_injective hspecial
  refine ⟨?_, ?_, ?_, ?_⟩
  · intro hnil
    exact hbase (List.append_eq_nil_iff.mp (Utf8.encode_eq_nil_iff.mp hnil)).2
  · intro hmem
    have hchar : '/' ∈ front ++ base := (Utf8.mem_encode_iff (by decide)).mp hmem
    rcases List.mem_append.mp hchar with hmem | hmem
    · exact hslash hmem
    · exact hslash' hmem
  · intro hspecial
    have htext : front ++ base = ['.'] := hencode hspecial
    cases front with
    | nil => exact hfront rfl
    | cons c front =>
        obtain ⟨-, hrest⟩ := List.cons.inj htext
        exact hbase (List.append_eq_nil_iff.mp hrest).2
  · intro hspecial
    -- two full stops could only be a prefix `.` and a device `.`
    have htext : front ++ base = ['.', '.'] := hencode hspecial
    cases front with
    | nil => exact hfront rfl
    | cons c front =>
        obtain ⟨-, hrest⟩ := List.cons.inj htext
        cases front with
        | nil => exact hdot hrest
        | cons c' front =>
            obtain ⟨-, hrest'⟩ := List.cons.inj hrest
            exact hbase (List.append_eq_nil_iff.mp hrest').2

/-- The path of a lock file that can be told is the lock directory, a separator unless that ends in
one, the prefix and the last segment of the device, which is not empty.  What stands after the lock
directory is a name without separators, neither `.` nor `..`, and the path names the entry with that
name in the lock directory. -/
theorem lockPath_inside {settings : Settings} {machine after : Machine} {device : String}
    {path : Path} (hobtained : settings.Obtained)
    (hpath : machine.attempt (lockPath settings device) = (.ok path, after)) :
    ∃ (base : List Char) (name : Name),
      Path.fileName? device.toList = some base ∧ base ≠ [] ∧
      name = Utf8.ofString settings.lockPrefix ++ Utf8.encode base ∧
      path = Utf8.ofString settings.lockDirectory ++
        (if settings.lockDirectory.toList.getLast? = some '/' then [] else [Path.slash]) ++ name ∧
      Path.slash ∉ name ∧ name ≠ [Path.dot] ∧ name ≠ [Path.dot, Path.dot] ∧
      ∀ (tree : FileTree) (place : Place) (entry : Entry),
        tree.find false path = .ok (place, entry) ↔
          FileTree.Takes path ∧ name.length ≤ 255 ∧ ∃ directory,
            tree.find true (Utf8.ofString settings.lockDirectory) = .ok (directory, .directory) ∧
              place = directory ++ [name] ∧ tree.entry? place = some entry := by
  obtain ⟨hdirectory, hprefix, hslash⟩ := Settings.of_flaw?_eq_none hobtained.flaw?_eq_none
  rw [DeviceStatus.attempt_lockPath] at hpath
  cases hbase : Path.fileName? device.toList with
  | none => simp [lockPath?, hbase] at hpath
  | some base =>
      obtain ⟨hslash', hne, hdot, -⟩ := Path.of_fileName? hbase
      let name := Utf8.ofString settings.lockPrefix ++ Utf8.encode base
      have hname : name = Utf8.encode (settings.lockPrefix.toList ++ base) :=
        (Utf8.encode_append _ _).symm
      obtain ⟨hname₀, hname₁, hname₂, hname₃⟩ := name_ordinary hprefix hslash hne hdot hslash'
      rw [← hname] at hname₀ hname₁ hname₂ hname₃
      obtain rfl : Path.join (Utf8.ofString settings.lockDirectory) name = path := by
        simp only [lockPath?, hbase, Option.map_some, Prod.mk.injEq, Except.ok.injEq] at hpath
        exact hpath.1
      have hdirectory' : Utf8.ofString settings.lockDirectory ≠ [] := fun hnil =>
        hdirectory (Utf8.encode_eq_nil_iff.mp hnil)
      have hlast : (Utf8.ofString settings.lockDirectory).getLast? = some Path.slash ↔
          settings.lockDirectory.toList.getLast? = some '/' := Utf8.getLast?_encode_iff (by decide)
      refine ⟨base, name, rfl, hne, rfl, ?_, hname₁, hname₂, hname₃, ?_⟩
      · rw [Path.join_eq hdirectory' hname₁]
        simp only [hlast]
      · intro tree place entry
        exact FileTree.find_join_iff hdirectory' hname₀ hname₁ hname₂ hname₃

/-- Settings whose prefix is a full stop and whose directory lies above the working directory. -/
def dotPrefix : Settings :=
  { lockDirectory := "../l/", lockPrefix := "." }

/-- With such settings, a device given as a path with special segments has its lock file in the lock
directory. -/
theorem lockPath_inside_dotPrefix :
    dotPrefix.Obtained ∧
      ∃ (base : List Char) (name : Name),
        Path.fileName? "/dev/../tty0/.".toList = some base ∧ base ≠ [] ∧
        name = Utf8.ofString "." ++ Utf8.encode base ∧
        Utf8.ofString "../l/.tty0" = Utf8.ofString "../l/" ++
          (if "../l/".toList.getLast? = some '/' then [] else [Path.slash]) ++ name ∧
        Path.slash ∉ name ∧ name ≠ [Path.dot] ∧ name ≠ [Path.dot, Path.dot] ∧
        ∀ (tree : FileTree) (place : Place) (entry : Entry),
          tree.find false (Utf8.ofString "../l/.tty0") = .ok (place, entry) ↔
            FileTree.Takes (Utf8.ofString "../l/.tty0") ∧ name.length ≤ 255 ∧ ∃ directory,
              tree.find true (Utf8.ofString "../l/") = .ok (directory, .directory) ∧
                place = directory ++ [name] ∧ tree.entry? place = some entry := by
  have hread : (Settings.ofText "lock_prefix: .\nlock_dir: ../l/\n".toList).toOption =
      some dotPrefix := by decide +kernel
  have hobtained : dotPrefix.Obtained :=
    Settings.Obtained.text _ (toOption_eq_some_iff.mp hread)
  let machine : Machine := { files := ⟨[], [], []⟩, processes := [] }
  have hpath : machine.attempt (lockPath dotPrefix "/dev/../tty0/.") =
      (.ok (Utf8.ofString "../l/.tty0"),
        (machine.attempt (lockPath dotPrefix "/dev/../tty0/.")).2) := by
    rfl
  exact ⟨hobtained, lockPath_inside hobtained hpath⟩

end Device

end SerialLock
