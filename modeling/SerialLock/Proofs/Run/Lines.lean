import SerialLock.Proofs.FileName
import SerialLock.Proofs.LockFile.Naming
import SerialLock.Proofs.Pid.Contents
import SerialLock.Proofs.Run.Result

/-!
# The lines of a report

A report in words is read line by line.  What it says of a device is a line of its own as long as
there is no line feed in it, and the pieces between its line feeds else (`Text.lines_flatMap`).  The
names of devices and the paths of lock files are put into it as they are.  So the lines are those of
the devices, one for each and in their order, exactly where no line feed stands in the name of a
device, and none in the path of a lock file that is shown (`lines_of_tellStatus`).
-/

set_option autoImplicit false

namespace SerialLock

/-! ## Lines -/

namespace Text

/-- The lines of a text, each without the line feed that ends it. -/
def lines (text : List Char) : List (List Char) :=
  (Path.cut '\n' text).dropLast

variable {texts : List (List Char)}

/-- The lines of a text with a line feed in it are the pieces before it and the lines behind it. -/
theorem lines_append (text rest : List Char) :
    lines (text ++ '\n' :: rest) = Path.cut '\n' text ++ lines rest := by
  unfold lines
  rw [Path.cut_append, List.dropLast_append_of_ne_nil (Path.cut_ne_nil '\n' rest)]

/-- Texts that are each ended by a line feed have as their lines the pieces between line feeds. -/
theorem lines_flatMap (texts : List (List Char)) :
    lines (texts.flatMap (· ++ ['\n'])) = texts.flatMap (Path.cut '\n') := by
  induction texts with
  | nil => rfl
  | cons text texts ih =>
      rw [List.flatMap_cons, List.flatMap_cons, List.append_assoc, List.singleton_append,
        lines_append, ih]

/-- There is one piece more than there are line feeds. -/
theorem length_cut (text : List Char) : (Path.cut '\n' text).length = text.count '\n' + 1 := by
  induction text with
  | nil => rfl
  | cons c text ih =>
      by_cases hc : c = '\n'
      · subst hc
        rw [Path.cut_separator, List.length_cons, ih, List.count_cons_self]
      · obtain ⟨first, others, hrest, hcut⟩ := Path.cut_other hc text
        rw [hrest, List.length_cons] at ih
        rw [hcut, List.length_cons, ih, List.count_cons_of_ne hc]

/-- There is a line for each text at least. -/
theorem length_le_length_lines (texts : List (List Char)) :
    texts.length ≤ (lines (texts.flatMap (· ++ ['\n']))).length := by
  rw [lines_flatMap]
  induction texts with
  | nil => exact Nat.le_refl 0
  | cons text texts ih =>
      rw [List.flatMap_cons, List.length_append, length_cut, List.length_cons]
      omega

/-- A line feed inside a text makes one more line of it. -/
theorem length_lines_flatMap_eq_iff :
    (lines (texts.flatMap (· ++ ['\n']))).length = texts.length ↔ ∀ text ∈ texts, '\n' ∉ text := by
  induction texts with
  | nil => simp [lines, Path.cut]
  | cons text texts ih =>
      have hlines := length_le_length_lines texts
      rw [List.forall_mem_cons, ← ih, ← List.count_eq_zero]
      rw [lines_flatMap] at hlines ⊢
      rw [lines_flatMap, List.flatMap_cons, List.length_append, length_cut, List.length_cons]
      omega

/-- Texts that are each ended by a line feed are the lines exactly if no line feed stands inside. -/
theorem lines_flatMap_eq_iff :
    lines (texts.flatMap (· ++ ['\n'])) = texts ↔ ∀ text ∈ texts, '\n' ∉ text := by
  constructor
  · intro hlines
    rw [← length_lines_flatMap_eq_iff, hlines]
  · intro hwhole
    have hpieces : texts.map (Path.cut '\n') = texts.map fun text => [text] :=
      List.map_congr_left fun text hmem => Path.cut_of_not_mem (hwhole text hmem)
    rw [lines_flatMap, List.flatMap_def, hpieces, ← List.flatMap_def]
    exact List.flatMap_singleton' texts

end Text

/-! ## What is said of one device -/

/-- There is no line feed in a numeral. -/
theorem Pid.Numeral.lineFeed_not_mem (numeral : Numeral) : '\n' ∉ numeral.text := by
  obtain ⟨sign, digits, -, hdecimal⟩ := numeral
  unfold text
  rw [List.mem_append, not_or]
  constructor
  · cases sign <;> simp [Sign.text]
  · intro hmem
    cases hdecimal '\n' hmem

namespace DeviceStatus

/-- What is said of the device takes one line: there is no line feed in its name, and none in the
path of its lock file where that is shown. -/
def OnOneLine (status : DeviceStatus) : Prop :=
  '\n' ∉ status.device.toList ∧
    (status.state ≠ .free → '\n' ∉ (Utf8.display status.lockPath).toList)

/-- There is no line feed in the word for a state. -/
theorem lineFeed_not_mem_word (state : DeviceState) : '\n' ∉ state.word.toList := by
  cases state <;> decide

/-- A line feed in what is said comes from the name of the device or from the path. -/
theorem lineFeed_not_mem_text_iff {status : DeviceStatus} :
    '\n' ∉ status.text.toList ↔ status.OnOneLine := by
  have hpid : '\n' ∉ (toString status.pid).toList := by
    rw [← Pid.Numeral.text_ofInt_zero]
    exact Pid.Numeral.lineFeed_not_mem _
  rw [Int.toString_eq_repr] at hpid
  have hword := lineFeed_not_mem_word status.state
  have hstring (text : String) : toString text = text := rfl
  unfold text OnOneLine
  cases hstate : status.state with
  | free => simp [hstring]
  | _ =>
      rw [hstate] at hword
      simp [hstring, hpid, hword]

end DeviceStatus

/-! ## The lock file -/

/-- A line feed in the path of a lock file comes from the settings, unless there is one in the name of
the device. -/
theorem Device.lineFeed_mem_lockPath_iff {settings : Settings} {device : String} {path : Path}
    (hflaw : settings.flaw? = none) (hpath : lockPath? settings device = some path)
    (hdevice : '\n' ∉ device.toList) :
    '\n' ∈ (Utf8.display path).toList ↔
      '\n' ∈ settings.lockDirectory.toList ∨ '\n' ∈ settings.lockPrefix.toList := by
  obtain ⟨hdirectory, hprefix, hslash⟩ := Settings.of_flaw?_eq_none hflaw
  unfold lockPath? at hpath
  obtain ⟨base, hbase, rfl⟩ := Option.map_eq_some_iff.mp hpath
  obtain ⟨hslash', hne, hdot, -⟩ := Path.of_fileName? hbase
  have hbase' : '\n' ∉ base := fun hmem => hdevice (Path.subset_of_fileName? hbase hmem)
  have hname : Utf8.ofString settings.lockPrefix ++ Utf8.encode base =
      Utf8.encode (settings.lockPrefix.toList ++ base) := (Utf8.encode_append _ _).symm
  obtain ⟨-, hname₁, -, -⟩ := name_ordinary hprefix hslash hne hdot hslash'
  have hdirectory' : Utf8.ofString settings.lockDirectory ≠ [] := fun hnil =>
    hdirectory (Utf8.encode_eq_nil_iff.mp hnil)
  rw [hname, Path.join_eq hdirectory' hname₁]
  split
  · rw [List.append_nil, Utf8.ofString, ← Utf8.encode_append, Utf8.display_encode]
    simp [hbase']
  · have hseparator : [Path.slash] = Utf8.encode ['/'] := rfl
    rw [hseparator, Utf8.ofString, ← Utf8.encode_append, ← Utf8.encode_append, Utf8.display_encode]
    simp [hbase']

/-! ## Reports -/

namespace Program

open DeviceStatus (inspectChosen OnOneLine)

variable {settings : Settings} {machine after : Machine} {devices : List String} {report : Report}
  {statuses : List DeviceStatus}

/-- Devices whose states are told have each the status that inspecting it alone yields, and the
report is what is said of these. -/
theorem exists_statuses_of_tellStatus
    (hrun : machine.attempt (tellStatus settings devices false) = (.ok report, after)) :
    ∃ statuses,
      devices.mapM (fun device => (machine.attempt (inspectChosen settings device)).1) =
        .ok statuses ∧
      report.output.toList =
        (statuses.map fun status => status.text.toList).flatMap (· ++ ['\n']) := by
  obtain ⟨checker, start, hfiles, hprocesses, hfollows, htold, -⟩ :=
    attempt_tellStatus machine settings devices false
  rw [hrun, DeviceStatus.attempt_inspectAll hfollows settings devices, hfiles] at htold
  simp only [DeviceStatus.attempt_inspectChosen]
  cases hstatuses : devices.mapM (DeviceStatus.statusIn machine.files settings
      (Checker.ruleOf settings.checkLiveness machine.processes)) with
  | error failure => simp [hstatuses, Except.bind] at htold
  | ok statuses =>
      refine ⟨statuses, rfl, ?_⟩
      rw [hstatuses] at htold
      obtain rfl : report = ⟨DeviceStatus.exitCode statuses, DeviceStatus.report statuses⟩ :=
        Except.ok.inj htold
      simp [DeviceStatus.report, List.flatMap_map]

/-- The devices whose states are told, each with what its status comes from. -/
theorem of_mapM_inspectChosen
    (hstatuses : devices.mapM (fun device => (machine.attempt (inspectChosen settings device)).1) =
      .ok statuses) :
    statuses.map DeviceStatus.device = devices ∧
      ∀ status ∈ statuses, Device.lockPath? settings status.device = some status.lockPath := by
  simp only [DeviceStatus.attempt_inspectChosen] at hstatuses
  obtain ⟨hok, rfl⟩ := mapM_eq_ok_iff.mp hstatuses
  have hparts (device : String) (hmem : device ∈ devices) :=
    DeviceStatus.of_statusIn (hok device hmem)
  constructor
  · rw [List.map_map]
    have hsame := List.map_congr_left fun device hmem => (hparts device hmem).1
    exact hsame.trans (List.map_id devices)
  · intro status hmem
    obtain ⟨device, hdevice, rfl⟩ := List.mem_map.mp hmem
    obtain ⟨hname, hpath, -⟩ := hparts device hdevice
    rw [hname]
    exact hpath

/-- With settings that can be used, what is said of the devices takes one line each where no line
feed stands in their names, nor in the settings if a lock file is shown. -/
theorem onOneLine_iff (hflaw : settings.flaw? = none)
    (hdevices : statuses.map DeviceStatus.device = devices)
    (hpaths : ∀ status ∈ statuses,
      Device.lockPath? settings status.device = some status.lockPath) :
    (∀ status ∈ statuses, status.OnOneLine) ↔
      (∀ device ∈ devices, '\n' ∉ device.toList) ∧
        ((∃ status ∈ statuses, status.state ≠ .free) →
          '\n' ∉ settings.lockDirectory.toList ∧ '\n' ∉ settings.lockPrefix.toList) := by
  subst hdevices
  constructor
  · intro hlines
    constructor
    · intro device hmem
      obtain ⟨status, hstatus, rfl⟩ := List.mem_map.mp hmem
      exact (hlines status hstatus).1
    · rintro ⟨status, hstatus, hshown⟩
      obtain ⟨hdevice, hpath⟩ := hlines status hstatus
      rw [← not_or, ← Device.lineFeed_mem_lockPath_iff hflaw (hpaths status hstatus) hdevice]
      exact hpath hshown
  · rintro ⟨hnames, hsettings⟩ status hstatus
    have hdevice := hnames status.device (List.mem_map_of_mem hstatus)
    refine ⟨hdevice, fun hshown => ?_⟩
    rw [Device.lineFeed_mem_lockPath_iff hflaw (hpaths status hstatus) hdevice, not_or]
    exact hsettings ⟨status, hstatus, hshown⟩

/-- A report in words on the states of devices is what is said of each, ended by a line feed.  Its
lines are one for each device, in their order, and no more, exactly where no line feed stands in the
name of a device or in the path of a lock file that is shown; with settings that can be used, where
none stands in the name of a device, nor in the lock directory or the prefix, unless all devices are
free.  Else a line is what stands between two line feeds of what is said of a device. -/
theorem lines_of_tellStatus
    (hrun : machine.attempt (tellStatus settings devices false) = (.ok report, after)) :
    ∃ statuses,
      devices.mapM (fun device => (machine.attempt (inspectChosen settings device)).1) =
        .ok statuses ∧
      let shown := statuses.map fun status => status.text.toList
      let lines := Text.lines report.output.toList
      report.output.toList = shown.flatMap (· ++ ['\n']) ∧
      lines = shown.flatMap (Path.cut '\n') ∧
      (lines = shown ↔ ∀ status ∈ statuses, status.OnOneLine) ∧
      (lines.length = devices.length ↔ ∀ status ∈ statuses, status.OnOneLine) ∧
      (settings.flaw? = none →
        ((∀ status ∈ statuses, status.OnOneLine) ↔
          (∀ device ∈ devices, '\n' ∉ device.toList) ∧
            ((∃ status ∈ statuses, status.state ≠ .free) →
              '\n' ∉ settings.lockDirectory.toList ∧ '\n' ∉ settings.lockPrefix.toList))) := by
  obtain ⟨statuses, hstatuses, houtput⟩ := exists_statuses_of_tellStatus hrun
  obtain ⟨hdevices, hpaths⟩ := of_mapM_inspectChosen hstatuses
  have hlength : devices.length = (statuses.map fun status => status.text.toList).length := by
    rw [← hdevices, List.length_map, List.length_map]
  have hwhole : (∀ text ∈ statuses.map fun status => status.text.toList, '\n' ∉ text) ↔
      ∀ status ∈ statuses, status.OnOneLine := by
    simp only [List.forall_mem_map, DeviceStatus.lineFeed_not_mem_text_iff]
  refine ⟨statuses, hstatuses, houtput, ?_, ?_, ?_, fun hflaw => onOneLine_iff hflaw hdevices hpaths⟩
  · rw [houtput, Text.lines_flatMap]
  · rw [houtput, Text.lines_flatMap_eq_iff, hwhole]
  · rw [houtput, hlength, Text.length_lines_flatMap_eq_iff, hwhole]

/-- The name of the first device says of the second that it is free, and splits its own line.  So
three lines tell the states of two devices, and the second line is not about the second device. -/
theorem lines_of_tellStatus_splitName :
    let settings : Settings := { lockDirectory := "/l" }
    let devices := ["c: free\nd", "c"]
    let report : Report :=
      ⟨ExitCode.deviceLocked, "c: free\nd: free\nc: locked (pid 12, /l/LCK..c)\n"⟩
    settings.flaw? = none ∧
      (DeviceStatus.busyLocks.attempt (tellStatus settings devices false)).1 = .ok report ∧
      Text.lines report.output.toList =
        ["c: free".toList, "d: free".toList, "c: locked (pid 12, /l/LCK..c)".toList] ∧
      (Text.lines report.output.toList).length ≠ devices.length := by
  intro settings devices report
  have hflaw : settings.flaw? = none := by decide
  have hreport : (DeviceStatus.busyLocks.attempt (tellStatus settings devices false)).1 =
      .ok report :=
    toOption_eq_some_iff.mp (by decide +kernel)
  obtain ⟨statuses, -, -, -, -, hlength, hsettings⟩ :=
    lines_of_tellStatus (Prod.ext hreport rfl : DeviceStatus.busyLocks.attempt
      (tellStatus settings devices false) = (.ok report, _))
  refine ⟨hflaw, hreport, by decide, ?_⟩
  rw [ne_eq, hlength, hsettings hflaw]
  rintro ⟨hnames, -⟩
  exact hnames "c: free\nd" (by simp [devices]) (by decide)

end Program

end SerialLock
