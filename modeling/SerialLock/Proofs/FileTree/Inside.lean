import SerialLock.Proofs.FileTree.Erase
import SerialLock.Proofs.Segments

/-!
# Entries of a directory

A path made of a directory and a name without a separator names the entry with that name in the
directory that the first path leads to, and nothing else (`find_join_iff`).
-/

set_option autoImplicit false

namespace SerialLock.FileTree

variable {tree : FileTree} {followLast : Bool}

namespace Leads

variable {used left : Nat} {here directory place : Place} {names rest : List Name} {goal : Goal}

/-- Names lead to where the last of them lead from where the first of them lead. -/
theorem append (hfront : tree.Leads true used here names (.at directory))
    (hback : tree.Leads followLast left directory rest goal) (hrest : rest ≠ []) :
    tree.Leads followLast (used + left) here (names ++ rest) goal := by
  generalize hend : Goal.at directory = end_ at hfront
  induction hfront with
  | @done here names end_ hleg =>
      subst hend
      have happend : tree.leg followLast here (names ++ rest) =
          tree.leg followLast directory rest := by
        rw [leg_append hrest, hleg]
      rw [Nat.zero_add]
      cases hback with
      | done hlast => exact .done (happend.trans hlast)
      | through hfirst hmore => exact .through (happend.trans hfirst) hmore
  | @through links here middle names onward end_ hleg _ ih =>
      have happend : tree.leg followLast here (names ++ rest) =
          .through middle (onward ++ rest) := by
        rw [leg_append hrest, hleg]
      rw [Nat.add_right_comm]
      exact .through happend (ih hend)

/-- A last `.` leads to the directory that it stands for. -/
theorem append_dot_iff :
    tree.Leads true used here (names ++ [[Path.dot]]) (.at place) ∧
        tree.entry? place = some .directory ↔
      tree.Leads true used here names (.at place) ∧ tree.entry? place = some .directory := by
  have hdot {middle : Place} (hmiddle : tree.entry? middle = some .directory) :
      tree.leg true middle [[Path.dot]] = .done (.at middle) := by
    rw [leg_dot hmiddle (by rfl), leg]
  constructor
  · rintro ⟨hleads, hplace⟩
    obtain ⟨middle, used', left, hused, hfront, hback⟩ := hleads.split (by simp)
    have hmiddle := hback.directory (by simp)
    -- the `.` alone takes no link, and stays where it is
    cases hback with
    | done hleg =>
        obtain rfl : middle = place := by simpa [hdot hmiddle] using hleg
        obtain rfl : used' = used := by omega
        exact ⟨hfront, hplace⟩
    | through hleg _ => simp [hdot hmiddle] at hleg
  · rintro ⟨hleads, hplace⟩
    exact ⟨hleads.append (.done (hdot hplace)) (by simp), hplace⟩

end Leads

/-- A single name leads to the entry with that name, whatever that is, if a last link is kept. -/
theorem leg_single {directory : Place} {name : Name}
    (hdirectory : tree.entry? directory = some .directory) (hdot : name ≠ [Path.dot])
    (hup : name ≠ [Path.dot, Path.dot]) (hshort : name.length ≤ 255) :
    tree.leg false directory [name] =
      match tree.entry? (directory ++ [name]) with
      | none => .done (.vacant directory name)
      | some _ => .done (.at (directory ++ [name])) := by
  rw [leg_name hdirectory (by simpa using hdot) (by simpa using hup) (Nat.not_lt.mpr hshort)]
  cases hentry : tree.entry? (directory ++ [name]) with
  | none => rfl
  | some entry => cases entry <;> rfl

/-- A path leads to a directory where its segments do. -/
theorem leads_segments_iff {used : Nat} {here place : Place} {path : Path} :
    tree.Leads true used here path.names (.at place) ∧ tree.entry? place = some .directory ↔
      tree.Leads true used here (Path.segments path) (.at place) ∧
        tree.entry? place = some .directory := by
  rcases Path.names_eq path with hnames | hnames
  · rw [hnames]
  · rw [hnames]
    exact Leads.append_dot_iff

variable {directory path name : Path} {place : Place} {entry : Entry}

/-- Where the system takes a joined path, it takes the directory. -/
theorem Takes.of_join (htakes : Takes (Path.join directory name)) (hdirectory : directory ≠ [])
    (hslash : Path.slash ∉ name) : Takes directory := by
  obtain ⟨hzero, _, hlong⟩ := htakes
  rw [Path.join_eq hdirectory hslash] at hzero hlong
  refine ⟨?_, by simpa using hdirectory, ?_⟩
  · simp only [List.contains_eq_mem, List.mem_append, decide_eq_false_iff_not, not_or] at hzero ⊢
    exact hzero.1.1
  · rw [List.append_assoc, List.length_append] at hlong
    omega

/-- A name joined to the path of a directory names the entry with that name in that directory. -/
theorem find_join_iff (hdirectory : directory ≠ []) (hname : name ≠ [])
    (hslash : Path.slash ∉ name) (hdot : name ≠ [Path.dot]) (hup : name ≠ [Path.dot, Path.dot]) :
    tree.find false (Path.join directory name) = .ok (place, entry) ↔
      Takes (Path.join directory name) ∧ name.length ≤ 255 ∧
        ∃ above, tree.find true directory = .ok (above, .directory) ∧ place = above ++ [name] ∧
          tree.entry? place = some entry := by
  have hstart : start tree.workingDirectory (Path.join directory name) =
      start tree.workingDirectory directory := by
    unfold start
    rw [Path.isAbsolute_join hdirectory hslash]
  simp only [find_eq_ok_iff, follow_eq_ok_iff, hstart, Path.names_join hdirectory hslash hname]
  constructor
  · rintro ⟨⟨htakes, used, hused, hleads⟩, hentry⟩
    -- the names before the last one lead to a directory, in which one step remains
    obtain ⟨above, front, left, hlinks, hfront, hback⟩ := hleads.split (by simp)
    have habove := hback.directory (by simp)
    have hshort : name.length ≤ 255 := by
      by_cases hlong : 255 < name.length
      · have hfailed : tree.leg false above [name] = .failed .nameTooLong :=
          leg_long habove (by simpa using hdot) (by simpa using hup) hlong
        cases hback with
        | done hleg => simp [hfailed] at hleg
        | through hleg _ => simp [hfailed] at hleg
      · omega
    have hleg := leg_single habove hdot hup hshort
    have hplace : place = above ++ [name] := by
      cases hthere : tree.entry? (above ++ [name]) with
      | none =>
          simp only [hthere] at hleg
          simpa using hback.unique (.done hleg)
      | some there =>
          simp only [hthere] at hleg
          simpa using hback.unique (.done hleg)
    have hnames := leads_segments_iff.mpr ⟨hfront, habove⟩
    exact ⟨htakes, hshort, above,
      ⟨⟨htakes.of_join hdirectory hslash, front, by omega, hnames.1⟩, habove⟩, hplace, hentry⟩
  · rintro ⟨htakes, hshort, above, ⟨⟨-, used, hused, hleads⟩, habove⟩, rfl, hentry⟩
    have hleg := leg_single habove hdot hup hshort
    simp only [hentry] at hleg
    have hsegments := leads_segments_iff.mp ⟨hleads, habove⟩
    have hall := hsegments.1.append (.done hleg) (by simp)
    exact ⟨⟨htakes, used, hused, hall⟩, hentry⟩

end SerialLock.FileTree
