import Mathlib.Logic.Relation
import SerialLock.Proofs.FileName
import SerialLock.Proofs.Status.Inspect
import SerialLock.Proofs.Text.Ascii

/-!
# Lock files are named after the last segment

Two paths have the same last segment exactly if one becomes the other by directories in front,
doubled separators, and `/` or `/.` at the end (`spelled_iff`).  The name that the walk over the
components of a device finds is that segment, unless it is `..`.

What stands before the name in the path of a lock file does not depend on the name
(`join_append`), so the lock files of two devices are one exactly if their last segments are
(`lockPath_last_segment`).
-/

set_option autoImplicit false

namespace SerialLock

namespace Path

/-! ## Spellings -/

/-- One change to the spelling of a path, that leads to the same name. -/
inductive Respelled : List Char → List Char → Prop where
  | directory (front : List Char) {text : List Char} (htext : lastSegment? text ≠ none) :
      Respelled text (front ++ '/' :: text)
  | separator (front back : List Char) :
      Respelled (front ++ '/' :: back) (front ++ '/' :: '/' :: back)
  | atEnd (text : List Char) : Respelled text (text ++ ['/'])
  | here (text : List Char) : Respelled text (text ++ ['/', '.'])

/-- A change to the spelling of a path keeps the last segment. -/
theorem Respelled.lastSegment?_eq {text text' : List Char} (hspelled : Respelled text text') :
    lastSegment? text' = lastSegment? text := by
  cases hspelled with
  | directory front htext =>
      rw [lastSegment?_append]
      exact Option.or_of_isSome (Option.isSome_iff_ne_none.mpr htext)
  | separator front back =>
      rw [lastSegment?_append, lastSegment?_append, lastSegment?_separator]
  | atEnd => exact lastSegment?_append text []
  | here => exact lastSegment?_append text ['.']

/-- The spellings of one path: any number of changes, made or undone. -/
def Spelled : List Char → List Char → Prop :=
  Relation.EqvGen Respelled

/-- All spellings of a path have the same last segment. -/
theorem Spelled.lastSegment?_eq {text text' : List Char} (hspelled : Spelled text text') :
    lastSegment? text = lastSegment? text' := by
  induction hspelled with
  | rel text text' hchange => exact hchange.lastSegment?_eq.symm
  | refl text => rfl
  | symm text text' _ ih => exact ih.symm
  | trans text text' text'' _ _ ih ih' => exact ih.trans ih'

/-- A text with a separator in it has a piece behind the last one. -/
theorem exists_last_piece {text : List Char} (htext : '/' ∈ text) :
    ∃ front piece, text = front ++ '/' :: piece ∧ '/' ∉ piece := by
  obtain ⟨piece, front, hreverse, hpiece⟩ :=
    List.eq_append_cons_of_mem (List.mem_reverse.mpr htext)
  refine ⟨front.reverse, piece.reverse, ?_, fun hmem => hpiece (List.mem_reverse.mp hmem)⟩
  have htext' := congrArg List.reverse hreverse
  rw [List.reverse_reverse] at htext'
  rw [htext']
  simp

/-- A path that has a last segment is a spelling of it. -/
theorem spelled_of_lastSegment? {text segment : List Char}
    (hlast : lastSegment? text = some segment) : Spelled segment text := by
  -- induction on the number of segments: pieces that name nothing come off the end one by one
  induction hlength : text.length using Nat.strongRecOn generalizing text with
  | ind length ih =>
      subst hlength
      by_cases hslash : '/' ∈ text
      · obtain ⟨front, piece, rfl, hpiece⟩ := exists_last_piece hslash
        have hshorter : front.length < (front ++ '/' :: piece).length := by simp
        rw [lastSegment?_append, lastSegment?_of_not_mem hpiece] at hlast
        by_cases hnothing : piece = [] ∨ piece = ['.']
        · rw [if_pos hnothing, Option.none_or] at hlast
          have hfront : Spelled segment front := ih _ hshorter hlast rfl
          apply Relation.EqvGen.trans _ _ _ hfront
          apply Relation.EqvGen.rel
          rcases hnothing with rfl | rfl
          · exact .atEnd front
          · exact .here front
        · rw [if_neg hnothing, Option.some_or] at hlast
          obtain rfl := Option.some.inj hlast
          apply Relation.EqvGen.rel
          apply Respelled.directory
          rw [lastSegment?_of_not_mem hpiece, if_neg hnothing]
          exact Option.some_ne_none _
      · rw [lastSegment?_of_not_mem hslash] at hlast
        obtain ⟨-, hwhole⟩ := Option.ite_none_left_eq_some.mp hlast
        obtain rfl := Option.some.inj hwhole
        exact Relation.EqvGen.refl _

/-- Two texts, one of which has a last segment, are spellings of one path exactly if they have the
same one. -/
theorem spelled_iff {text text' : List Char} (htext : lastSegment? text ≠ none) :
    Spelled text text' ↔ lastSegment? text = lastSegment? text' := by
  constructor
  · exact Spelled.lastSegment?_eq
  · intro hsame
    obtain ⟨segment, hsegment⟩ := Option.ne_none_iff_exists'.mp htext
    have hfront : Spelled segment text := spelled_of_lastSegment? hsegment
    have hback : Spelled segment text' := spelled_of_lastSegment? (hsame.symm.trans hsegment)
    exact Relation.EqvGen.trans _ _ _ (Relation.EqvGen.symm _ _ hfront) hback

/-! ## Names joined to directories -/

/-- What is put before a name without separators goes before it in the joined path. -/
theorem join_append (directory front : Path) {name : Path} (hname : slash ∉ name) :
    join directory (front ++ name) = join directory front ++ name := by
  have habsolute : isAbsolute (front ++ name) = isAbsolute front := by
    unfold isAbsolute
    cases front with
    | nil =>
        cases name with
        | nil => rfl
        | cons b name =>
            have hne : slash ≠ b := fun hb => hname (hb ▸ List.mem_cons_self)
            simp [Ne.symm hne]
    | cons b front => rfl
  unfold join
  rw [habsolute]
  split
  · rfl
  · split
    · exact (List.append_assoc directory front name).symm
    · exact (List.append_assoc directory (slash :: front) name).symm

end Path

namespace Device

variable (settings : Settings) (machine : Machine)

/-- What the search for the lock file of a device yields. -/
def located (device : String) : Except Failure Path :=
  (machine.attempt (lockPath settings device)).1

/-- The path of the lock file that is named after a segment. -/
def lockPathOf (segment : List Char) : Path :=
  Path.join (Utf8.ofString settings.lockDirectory)
    (Utf8.ofString settings.lockPrefix ++ Utf8.encode segment)

/-- The search for a lock file yields the path that is named after the device, or refuses a device
without a name. -/
theorem located_eq (device : String) :
    located settings machine device =
      match Path.fileName? device.toList with
      | none => .error (.invalidDevice device)
      | some segment => .ok (lockPathOf settings segment) := by
  unfold located lockPathOf
  rw [DeviceStatus.attempt_lockPath]
  unfold lockPath?
  cases Path.fileName? device.toList with
  | none => rfl
  | some segment => rfl

/-- A device is refused exactly if it has no name. -/
theorem located_eq_error_iff (device : String) :
    located settings machine device = .error (.invalidDevice device) ↔
      Path.fileName? device.toList = none := by
  rw [located_eq]
  cases Path.fileName? device.toList with
  | none => simp
  | some segment => simp

/-- A path is found exactly if it is named after the device. -/
theorem located_eq_ok_iff (device : String) (path : Path) :
    located settings machine device = .ok path ↔
      ∃ segment, Path.fileName? device.toList = some segment ∧
        path = lockPathOf settings segment := by
  rw [located_eq]
  cases Path.fileName? device.toList with
  | none => simp
  | some segment => simp [eq_comm]

/-- Segments that are not the same have lock files that are not the same. -/
theorem lockPathOf_inj {segment segment' : List Char} (hslash : '/' ∉ segment)
    (hslash' : '/' ∉ segment') :
    lockPathOf settings segment = lockPathOf settings segment' ↔ segment = segment' := by
  have hencoded {segment : List Char} (hsegment : '/' ∉ segment) :
      Path.slash ∉ Utf8.encode segment :=
    fun hmem => hsegment ((Utf8.mem_encode_iff (by decide)).mp hmem)
  unfold lockPathOf
  constructor
  · intro hpath
    rw [Path.join_append _ _ (hencoded hslash), Path.join_append _ _ (hencoded hslash')] at hpath
    exact Utf8.encode_injective (List.append_cancel_left hpath)
  · rintro rfl
    rfl

/-- A device is named by its last segment that is neither empty nor `.`.  It is refused exactly if
there is none or it is `..`, and else its lock file is the one named after that segment, which is
also the name at which a walk over the components from the end stops.  The lock file stays the same
under each change to the spelling, and is the one of the last segment alone.  Two devices that are
not refused have one lock file exactly if they have the same last segment, that is, if they are
spellings of one device.  The settings are any, also such as no settings file can have. -/
theorem lockPath_last_segment :
    (∀ device, located settings machine device = .error (.invalidDevice device) ↔
      Path.lastSegment? device.toList = none ∨
        Path.lastSegment? device.toList = some ['.', '.']) ∧
    (∀ device path, located settings machine device = .ok path ↔
      ∃ segment, Path.lastSegment? device.toList = some segment ∧ segment ≠ ['.', '.'] ∧
        path = lockPathOf settings segment) ∧
    (∀ device path, located settings machine device = .ok path ↔
      ∃ segment, Path.lastComponent? device.toList = some (.name segment) ∧
        path = lockPathOf settings segment) ∧
    (∀ device device' path, Path.Spelled device.toList device'.toList →
      (located settings machine device = .ok path ↔
        located settings machine device' = .ok path)) ∧
    (∀ device segment path, Path.lastSegment? device.toList = some segment →
      (located settings machine (String.ofList segment) = .ok path ↔
        located settings machine device = .ok path)) ∧
    ∀ device device' path path', located settings machine device = .ok path →
      located settings machine device' = .ok path' →
        (path = path' ↔ Path.lastSegment? device.toList = Path.lastSegment? device'.toList) ∧
        (path = path' ↔ Path.Spelled device.toList device'.toList) := by
  -- what is located depends on the last segment alone
  have hsame (device device' : String) (path : Path)
      (hlast : Path.lastSegment? device.toList = Path.lastSegment? device'.toList) :
      located settings machine device = .ok path ↔ located settings machine device' = .ok path := by
    rw [located_eq_ok_iff, located_eq_ok_iff, Path.fileName?_eq, Path.fileName?_eq, hlast]
  refine ⟨?refused, ?named, ?walked, ?spelled, ?alone, ?distinct⟩
  case refused =>
    intro device
    rw [located_eq_error_iff, Path.fileName?_eq_none_iff]
  case named =>
    intro device path
    rw [located_eq_ok_iff]
    simp only [Path.fileName?_eq_some_iff, and_assoc]
  case walked =>
    intro device path
    rw [located_eq_ok_iff]
    simp only [Path.fileName?_eq_some_iff_walked]
  case spelled =>
    intro device device' path hspelled
    exact hsame device device' path hspelled.lastSegment?_eq
  case alone =>
    intro device segment path hlast
    apply hsame
    rw [String.toList_ofList, Path.lastSegment?_idem hlast, hlast]
  case distinct =>
    intro device device' path path' hpath hpath'
    obtain ⟨segment, hname, rfl⟩ := (located_eq_ok_iff ..).mp hpath
    obtain ⟨segment', hname', rfl⟩ := (located_eq_ok_iff ..).mp hpath'
    obtain ⟨hlast, -⟩ := Path.fileName?_eq_some_iff.mp hname
    obtain ⟨hlast', -⟩ := Path.fileName?_eq_some_iff.mp hname'
    have hequal : lockPathOf settings segment = lockPathOf settings segment' ↔
        Path.lastSegment? device.toList = Path.lastSegment? device'.toList := by
      rw [hlast, hlast', Option.some.injEq]
      exact lockPathOf_inj settings (Path.of_lastSegment? hlast).1 (Path.of_lastSegment? hlast').1
    refine ⟨hequal, hequal.trans (Path.spelled_iff ?_).symm⟩
    rw [hlast]
    exact Option.some_ne_none segment

/-- With a prefix that starts at the root, a name and the name with a directory in front and more
segments behind have one lock file.  A last segment `..` is refused. -/
theorem lockPath_last_segment_spelled :
    let settings : Settings := { lockDirectory := "", lockPrefix := "/run/." }
    let machine : Machine := { files := ⟨[], [], []⟩, processes := [] }
    Path.Spelled "tty".toList "/dev/.//tty/./".toList ∧
      located settings machine "tty" = .ok (Utf8.ofString "/run/.tty") ∧
      located settings machine "/dev/.//tty/./" = .ok (Utf8.ofString "/run/.tty") ∧
      located settings machine "/dev/../" = .error (.invalidDevice "/dev/../") := by
  intro settings machine
  obtain ⟨hrefused, hnamed, -, hspelled, -, -⟩ := lockPath_last_segment settings machine
  have hchanges : Path.Spelled "tty".toList "/dev/.//tty/./".toList := by
    apply Relation.EqvGen.trans _ "/dev/./tty".toList
    · exact Relation.EqvGen.rel _ _ (.directory "/dev/.".toList (by decide))
    · apply Relation.EqvGen.trans _ "/dev/.//tty".toList
      · exact Relation.EqvGen.rel _ _ (.separator "/dev/.".toList "tty".toList)
      · apply Relation.EqvGen.trans _ "/dev/.//tty/.".toList
        · exact Relation.EqvGen.rel _ _ (.here "/dev/.//tty".toList)
        · exact Relation.EqvGen.rel _ _ (.atEnd "/dev/.//tty/.".toList)
  have hpath : located settings machine "tty" = .ok (Utf8.ofString "/run/.tty") :=
    (hnamed _ _).mpr ⟨"tty".toList, by decide, by decide, by decide⟩
  exact ⟨hchanges, hpath, (hspelled _ _ _ hchanges).mp hpath,
    (hrefused _).mpr (.inr (by decide))⟩

end Device

end SerialLock
