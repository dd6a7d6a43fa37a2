import SerialLock.Proofs.Json.Decoded
import SerialLock.Proofs.Json.Written
import SerialLock.Proofs.Run.Result

/-!
# What the JSON report tells

A report is taken apart again by the decoder, which knows nothing of devices: each object of the
array tells a device, its lock file, the owner, what is known of the owner and the state
(`Told.read?`).  What is read from a report is what was reported, in its order, and no other
statuses have the same report (`jsonReport_decodes`).
-/

set_option autoImplicit false

namespace SerialLock

namespace Json.Value

/-- The value of a text. -/
def text? : Value → Option String
  | .text characters => some (String.ofList characters)
  | _ => none

/-- The value of a whole number. -/
def whole? : Value → Option Int
  | .number mantissa exponent => if exponent = 0 then some mantissa else none
  | _ => none

/-- The value that an object has for a name. -/
def member? (name : String) : Value → Option Value
  | .object entries => entries.lookup name.toList
  | _ => none

end Json.Value

/-- What is known of an owner, by its word. -/
def Liveness.ofWord? (word : String) : Option Liveness :=
  [alive, dead, unknown].find? fun liveness => liveness.word == word

/-- What is known of an owner is read back from its word. -/
theorem Liveness.ofWord?_word (liveness : Liveness) : ofWord? liveness.word = some liveness := by
  cases liveness <;> rfl

/-- The state, by its word. -/
def DeviceState.ofWord? (word : String) : Option DeviceState :=
  [free, locked, stale, unverified].find? fun state => state.word == word

/-- A state is read back from its word. -/
theorem DeviceState.ofWord?_word (state : DeviceState) : ofWord? state.word = some state := by
  cases state <;> rfl

/-- What one object of a report tells. -/
structure Told where
  device : String
  lockPath : String
  pid : Int
  /-- What is known of the owner: nothing where the object holds null. -/
  liveness : Option Liveness
  state : DeviceState
  deriving DecidableEq, Repr

namespace Told

/-- What is known of an owner: nothing, or what a word says. -/
def livenessOf? : Json.Value → Option (Option Liveness)
  | .null => some none
  | value => do return some (← Liveness.ofWord? (← value.text?))

/-- What an object tells. -/
def ofValue? (value : Json.Value) : Option Told := do
  let device ← (← value.member? "device").text?
  let lockPath ← (← value.member? "lock_path").text?
  let pid ← (← value.member? "pid").whole?
  let liveness ← livenessOf? (← value.member? "liveness")
  let state ← DeviceState.ofWord? (← (← value.member? "state").text?)
  return { device, lockPath, pid, liveness, state }

/-- What a report tells. -/
def read? (report : String) : Option (List Told) := do
  match ← Json.decode? report.toList with
  | .array objects => objects.mapM ofValue?
  | _ => none

end Told

namespace DeviceStatus

variable {status : DeviceStatus} {statuses : List DeviceStatus}

/-- What a report tells of a status. -/
def told (status : DeviceStatus) : Told where
  device := status.device
  lockPath := Utf8.display status.lockPath
  pid := status.pid
  liveness := status.liveness
  state := status.state

/-- The path of the lock file is a text. -/
def HasText (status : DeviceStatus) : Prop :=
  ∃ text, status.lockPath = Utf8.encode text

/-- The object for a status tells that status. -/
theorem ofValue?_value {json : Json} (hjson : status.json? = some json) :
    Told.ofValue? json.value = some status.told := by
  unfold json? at hjson
  obtain ⟨path, hpath, rfl⟩ := Option.map_eq_some_iff.mp hjson
  have hdisplay : Utf8.display status.lockPath = String.ofList path := by
    rw [Utf8.decode?_eq_some_iff.mp hpath, Utf8.display_encode]
  have hstate := DeviceState.ofWord?_word status.state
  cases hliveness : status.liveness with
  | none =>
      simp only [Json.value, Json.entryValues, Told.ofValue?]
      simp [Json.Value.member?, List.lookup_cons, Json.Value.text?, Json.Value.whole?,
        Told.livenessOf?, hstate, told, hliveness, hdisplay]
  | some liveness =>
      have hword := Liveness.ofWord?_word liveness
      simp only [Json.value, Json.entryValues, Told.ofValue?]
      simp [Json.Value.member?, List.lookup_cons, Json.Value.text?, Json.Value.whole?,
        Told.livenessOf?, hword, hstate, told, hliveness, hdisplay]

/-- Several statuses are written as JSON one by one. -/
theorem cons_of_mapM {items : List Json}
    (hitems : (status :: statuses).mapM json? = some items) :
    ∃ item rest, items = item :: rest ∧ status.json? = some item ∧
      statuses.mapM json? = some rest := by
  simp only [List.mapM_cons, Option.pure_def, Option.bind_eq_bind, Option.bind_eq_some_iff,
    Option.some.injEq] at hitems
  obtain ⟨item, hitem, rest, hrest, rfl⟩ := hitems
  exact ⟨item, rest, rfl, hitem, hrest⟩

/-- Statuses are told by their objects, one after the other. -/
theorem mapM_ofValue? {items : List Json} (hitems : statuses.mapM json? = some items) :
    (items.map Json.value).mapM Told.ofValue? = some (statuses.map told) := by
  induction statuses generalizing items with
  | nil =>
      obtain rfl : items = [] := by simpa using hitems.symm
      rfl
  | cons status statuses ih =>
      obtain ⟨item, rest, rfl, hitem, hrest⟩ := cons_of_mapM hitems
      simp [List.mapM_cons, ofValue?_value hitem, ih hrest]

/-- A report on statuses is a document with one object for each of them, which tells it. -/
theorem document_jsonReport {report : String} (hreport : jsonReport? statuses = some report) :
    ∃ items, statuses.mapM json? = some items ∧
      Json.Document (.array (items.map Json.value)) report.toList := by
  unfold jsonReport? at hreport
  obtain ⟨items, hitems, rfl⟩ := Option.map_eq_some_iff.mp hreport
  refine ⟨items, hitems, ?_⟩
  have hdocument := Json.document_spread (.array items)
  rw [Json.value, Json.values_eq_map] at hdocument
  rwa [String.toList_ofList]

/-- What is read from a report is what was reported. -/
theorem read?_jsonReport {report : String} (hreport : jsonReport? statuses = some report) :
    Told.read? report = some (statuses.map told) := by
  obtain ⟨items, hitems, hdocument⟩ := document_jsonReport hreport
  unfold Told.read?
  rw [Json.decode?_document hdocument]
  exact mapM_ofValue? hitems

/-- What is told of a status makes it up, where the path of its lock file is a text. -/
theorem eq_of_told {other : DeviceStatus} (htext : status.HasText) (hother : other.HasText)
    (htold : status.told = other.told) : status = other := by
  obtain ⟨device, lockPath, pid, liveness⟩ := status
  obtain ⟨device', lockPath', pid', liveness'⟩ := other
  obtain ⟨text, rfl⟩ := htext
  obtain ⟨text', rfl⟩ := hother
  simp only [told, Utf8.display_encode, Told.mk.injEq] at htold
  obtain ⟨rfl, hpath, rfl, rfl, -⟩ := htold
  have htexts : text = text' := by simpa using congrArg String.toList hpath
  rw [htexts]

/-- A status that can be written as JSON has a path that is a text. -/
theorem hasText_of_json? {json : Json} (hjson : status.json? = some json) : status.HasText := by
  obtain ⟨path, hpath, -⟩ := Option.map_eq_some_iff.mp hjson
  exact ⟨path, Utf8.decode?_eq_some_iff.mp hpath⟩

/-- The objects of a report, status by status. -/
theorem map_json? {items : List Json} (hitems : statuses.mapM json? = some items) :
    statuses.map json? = items.map some := by
  induction statuses generalizing items with
  | nil =>
      obtain rfl : items = [] := by simpa using hitems.symm
      rfl
  | cons status statuses ih =>
      obtain ⟨item, rest, rfl, hitem, hrest⟩ := cons_of_mapM hitems
      rw [List.map_cons, List.map_cons, hitem, ih hrest]

/-- Where all of several statuses can be written as JSON, each has a path that is a text. -/
theorem forall_hasText {items : List Json} (hitems : statuses.mapM json? = some items) :
    ∀ status ∈ statuses, status.HasText := by
  intro status hmem
  have hjson : status.json? ∈ items.map some := map_json? hitems ▸ List.mem_map_of_mem hmem
  obtain ⟨json, -, hjson⟩ := List.mem_map.mp hjson
  exact hasText_of_json? hjson.symm

/-- Statuses of which the same is told are the same. -/
theorem eq_of_map_told {others : List DeviceStatus} (htext : ∀ status ∈ statuses, status.HasText)
    (hothers : ∀ other ∈ others, other.HasText) (htold : others.map told = statuses.map told) :
    others = statuses := by
  induction others generalizing statuses with
  | nil => simpa using htold.symm
  | cons other others ih =>
      cases statuses with
      | nil => simp at htold
      | cons status statuses =>
          obtain ⟨hfirst, hrest⟩ : other.told = status.told ∧ others.map told = statuses.map told :=
            List.cons.inj htold
          have hhead := eq_of_told (hothers other (by simp)) (htext status (by simp)) hfirst
          have htail := ih (fun status hmem => htext status (by simp [hmem]))
            (fun other hmem => hothers other (by simp [hmem])) hrest
          rw [hhead, htail]

/-- The JSON report on statuses is one array, which spells one object for each of them and is read
back as what was reported; the line for a single status is read as the same object.  The grammar
lets the report stand for nothing else, and no other statuses are reported by it. -/
theorem jsonReport_decodes (htext : ∀ status ∈ statuses, status.HasText) :
    ∃ (report : String) (objects : List Json.Value),
      jsonReport? statuses = some report ∧
        Json.Document (.array objects) report.toList ∧
        Json.decode? report.toList = some (.array objects) ∧
        objects.mapM Told.ofValue? = some (statuses.map told) ∧
        statuses.map (fun status => status.json?.bind fun json => Json.decode? json.compact) =
          objects.map some ∧
        (∀ value, Json.Document value report.toList → value = .array objects) ∧
        ∀ others, jsonReport? others = some report → others = statuses := by
  obtain ⟨report, hreport⟩ := exists_jsonReport htext
  obtain ⟨items, hitems, hdocument⟩ := document_jsonReport hreport
  refine ⟨report, items.map Json.value, hreport, hdocument, Json.decode?_document hdocument,
    mapM_ofValue? hitems, ?_, fun value hvalue => hvalue.unique hdocument, ?_⟩
  · have hline (json : Json) : Json.decode? json.compact = some json.value :=
      Json.decode?_document (Json.document_compact json)
    calc statuses.map (fun status => status.json?.bind fun json => Json.decode? json.compact)
      _ = (statuses.map json?).map (·.bind fun json => Json.decode? json.compact) := by simp
      _ = (items.map some).map (·.bind fun json => Json.decode? json.compact) := by
          rw [map_json? hitems]
      _ = (items.map Json.value).map some := by simp [hline]
  · intro others hothers
    have htold := read?_jsonReport hothers
    rw [read?_jsonReport hreport, Option.some.injEq] at htold
    obtain ⟨items', hitems', -⟩ := document_jsonReport hothers
    exact eq_of_map_told htext (forall_hasText hitems') htold.symm

/-- A device whose name could end the array, with the least owner that can be named, and one without
a name or an owner. -/
def hostileNames : List DeviceStatus :=
  [⟨"a\"\x7d],\n\\", Utf8.ofString "/l/\x01\u00e9\"", Pid.least, some .dead⟩,
    ⟨"", Utf8.ofString "/l/LCK..", 0, none⟩]

/-- The report on a device whose name could end the array is one array of two objects. -/
theorem jsonReport_decodes_hostileNames :
    (∀ status ∈ hostileNames, status.HasText) ∧
      ∃ (report : String) (objects : List Json.Value),
        jsonReport? hostileNames = some report ∧
          Json.Document (.array objects) report.toList ∧
          Json.decode? report.toList = some (.array objects) ∧
          objects.mapM Told.ofValue? = some (hostileNames.map told) ∧
          hostileNames.map
              (fun status => status.json?.bind fun json => Json.decode? json.compact) =
            objects.map some ∧
          (∀ value, Json.Document value report.toList → value = .array objects) ∧
          ∀ others, jsonReport? others = some report → others = hostileNames := by
  have htext : ∀ status ∈ hostileNames, status.HasText := by
    intro status hmem
    rcases List.mem_cons.mp hmem with rfl | hmem
    · exact ⟨_, rfl⟩
    · obtain rfl := List.mem_singleton.mp hmem
      exact ⟨_, rfl⟩
  exact ⟨htext, jsonReport_decodes htext⟩

end DeviceStatus

end SerialLock
