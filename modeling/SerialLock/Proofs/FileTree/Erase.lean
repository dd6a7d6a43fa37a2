import SerialLock.FileTree.Change
import SerialLock.Proofs.FileTree.Follow
import SerialLock.Proofs.Table

/-!
# Trees that lost an entry

Taking an entry away lets no path lead anywhere new (`find_of_find_erase`).  The entry that a path
to a regular file names can only be the last one on the way of another path, because nothing lies
below a file.  So a path either leads where it led before, or it led to that file
(`find_erase_of_isFile`); and what a path names stays named, unless it is the entry taken away
(`find_erase_literal`).
-/

set_option autoImplicit false

namespace SerialLock.FileTree

variable {tree : FileTree} {followLast : Bool}

/-! ## Entries -/

/-- Only the entry at the place itself is gone, and the root is never gone. -/
theorem entry_erase (tree : FileTree) (place other : Place) :
    entry? (tree.erase place) other =
      if other = place ∧ place ≠ [] then none else tree.entry? other := by
  unfold entry? erase
  by_cases hroot : other = []
  · subst hroot
    by_cases hplace : place = [] <;> simp [hplace, eq_comm]
  · simp only [List.isEmpty_iff, hroot, if_false, lookup_filter_ne, beq_iff_eq]
    by_cases hsame : other = place
    · simp [hsame, hsame ▸ hroot]
    · simp [hsame]

/-- What stands in a tree without an entry stood there before. -/
theorem entry_of_erase {place other : Place} {entry : Entry}
    (hentry : entry? (tree.erase place) other = some entry) : tree.entry? other = some entry := by
  rw [entry_erase] at hentry
  split at hentry
  · cases hentry
  · exact hentry

/-- What is removed is one entry. -/
theorem exists_erase_of_remove {path : Path} {after : FileTree}
    (hremove : tree.remove path = .ok after) : ∃ place, after = tree.erase place := by
  unfold remove at hremove
  split at hremove
  · cases hremove
  · cases hremove
  · cases hremove
  · exact ⟨_, (Except.ok.inj hremove).symm⟩

/-! ## Finding -/

/-- The system takes the path: it has no zero byte, is not empty and not too long. -/
def Takes (path : Path) : Prop :=
  path.contains 0 = false ∧ path.isEmpty = false ∧ path.length ≤ pathLimit

/-- A path that the system takes leads where its names lead. -/
theorem follow_eq_ok_iff {path : Path} {goal : Goal} :
    tree.follow followLast path = .ok goal ↔
      Takes path ∧ ∃ used ≤ linkLimit,
        tree.Leads followLast used (start tree.workingDirectory path) path.names goal := by
  rw [← walk_eq_ok_iff]
  unfold follow Takes
  cases path.contains 0 with
  | true => simp
  | false =>
      cases path.isEmpty with
      | true => simp
      | false =>
          by_cases hlong : pathLimit < path.length
          · simp [hlong, Nat.not_le.mpr hlong]
          · simp [hlong, Nat.not_lt.mp hlong]

/-- A path is found at the entry that it leads to. -/
theorem find_eq_ok_iff {path : Path} {place : Place} {entry : Entry} :
    tree.find followLast path = .ok (place, entry) ↔
      tree.follow followLast path = .ok (.at place) ∧ tree.entry? place = some entry := by
  unfold find
  cases tree.follow followLast path with
  | error fault => simp
  | ok goal =>
      cases goal with
      | vacant directory name => simp
      | «at» found =>
          simp only [Except.ok.injEq, Goal.at.injEq]
          constructor
          · intro hfound
            cases hentry : tree.entry? found with
            | none => simp [hentry] at hfound
            | some entry =>
                simp only [hentry, Except.ok.injEq, Prod.mk.injEq] at hfound
                obtain ⟨rfl, rfl⟩ := hfound
                exact ⟨rfl, hentry⟩
          · rintro ⟨rfl, hentry⟩
            simp [hentry]

/-- A path that names an entry which is no link leads to that entry. -/
theorem find_of_find_literal {path : Path} {place : Place} {entry : Entry}
    (hfind : tree.find false path = .ok (place, entry)) (hlink : ∀ target, entry ≠ .link target) :
    tree.find true path = .ok (place, entry) := by
  rw [find_eq_ok_iff, follow_eq_ok_iff] at hfind ⊢
  obtain ⟨⟨htakes, used, hused, hleads⟩, hentry⟩ := hfind
  have hfollowed := hleads.followed fun target hplace =>
    hlink target (Option.some.inj (hentry.symm.trans hplace))
  exact ⟨⟨htakes, used, hused, hfollowed⟩, hentry⟩

/-! ## Paths that still lead somewhere -/

/-- A leg that gets somewhere after an entry was taken away got there before. -/
theorem leg_of_erase {place here : Place} {names : List Name} {result : Leg}
    (hleg : (tree.erase place).leg followLast here names = result)
    (hfailed : ∀ fault, result ≠ .failed fault)
    (hvacant : ∀ directory name, result ≠ .done (.vacant directory name)) :
    tree.leg followLast here names = result := by
  induction here, names using leg.induct (tree.erase place) followLast with
  | case1 here => exact hleg
  | case2 here name rest hhere hdot ih =>
      rw [leg_dot hhere hdot] at hleg
      rw [leg_dot (entry_of_erase hhere) hdot, ih hleg]
  | case3 here name rest hhere hdot hup ih =>
      rw [leg_up hhere hdot hup] at hleg
      rw [leg_up (entry_of_erase hhere) hdot hup, ih hleg]
  | case4 here name rest hhere hdot hup hlong =>
      rw [leg_long hhere hdot hup hlong] at hleg
      exact absurd hleg.symm (hfailed _)
  | case5 here name rest hhere hdot hup hlong there hthere hlast =>
      rw [leg_name hhere hdot hup hlong, hthere] at hleg
      simp only [hlast, if_true] at hleg
      exact absurd hleg.symm (hvacant _ _)
  | case6 here name rest hhere hdot hup hlong there hthere hmore =>
      rw [leg_name hhere hdot hup hlong, hthere] at hleg
      simp only [hmore] at hleg
      exact absurd hleg.symm (hfailed _)
  | case7 here name rest hhere hdot hup hlong there target hthere hstop =>
      rw [leg_name hhere hdot hup hlong, hthere] at hleg
      rw [leg_name (entry_of_erase hhere) hdot hup hlong, entry_of_erase hthere]
      exact hleg
  | case8 here name rest hhere hdot hup hlong there target hthere hgo =>
      rw [leg_name hhere hdot hup hlong, hthere] at hleg
      rw [leg_name (entry_of_erase hhere) hdot hup hlong, entry_of_erase hthere]
      exact hleg
  | case9 here name rest hhere hdot hup hlong there entry hlink hthere ih =>
      rw [leg_name hhere hdot hup hlong, hthere] at hleg
      rw [leg_name (entry_of_erase hhere) hdot hup hlong, entry_of_erase hthere]
      simp only at hleg ⊢
      exact ih hleg
  | case10 here name rest hhere =>
      rw [leg_of_not_directory (by simp) hhere] at hleg
      exact absurd hleg.symm (hfailed _)

/-- Names that lead to an entry after another was taken away led to it before. -/
theorem Leads.of_erase {place here goal : Place} {links : Nat} {names : List Name}
    (hleads : (tree.erase place).Leads followLast links here names (.at goal)) :
    tree.Leads followLast links here names (.at goal) := by
  generalize hend : Goal.at goal = end_ at hleads
  induction hleads with
  | done hleg =>
      subst hend
      exact .done (leg_of_erase hleg (by simp) (by simp))
  | through hleg _ ih => exact .through (leg_of_erase hleg (by simp) (by simp)) (ih hend)

/-- What a path leads to after an entry was taken away, it led to before. -/
theorem find_of_find_erase {place : Place} {path : Path} {found : Place × Entry}
    (hfind : (tree.erase place).find followLast path = .ok found) :
    tree.find followLast path = .ok found := by
  obtain ⟨goal, entry⟩ := found
  rw [find_eq_ok_iff, follow_eq_ok_iff] at hfind ⊢
  obtain ⟨⟨htakes, used, hused, hleads⟩, hentry⟩ := hfind
  exact ⟨⟨htakes, used, hused, hleads.of_erase⟩, entry_of_erase hentry⟩

/-! ## Paths by the lost entry -/

/-- Either a leg does not come by the entry taken away, or it comes to it with some names left: it
ends there, goes through it if it is a link, or fails. -/
theorem leg_erase {place : Place} {entry : Entry} (hplace : tree.entry? place = some entry)
    (hentry : entry ≠ .directory) (followLast : Bool) (here : Place) (names : List Name) :
    (tree.erase place).leg followLast here names = tree.leg followLast here names ∨
      tree.leg followLast here names = .done (.at place) ∨
      (∃ fault, tree.leg followLast here names = .failed fault) ∨
      ∃ target rest, entry = .link target ∧ (followLast = true ∨ rest ≠ []) ∧
        tree.leg followLast here names =
          .through (start place.dropLast target) (target.names ++ rest) := by
  -- directories are still there
  have hkept {here : Place} (hhere : tree.entry? here = some .directory) :
      entry? (tree.erase place) here = some .directory := by
    rw [entry_erase, if_neg]
    · exact hhere
    · rintro ⟨rfl, -⟩
      exact hentry (Option.some.inj (hplace.symm.trans hhere))
  have hother {there : Place} (hthere : there ≠ place) :
      entry? (tree.erase place) there = tree.entry? there := by
    rw [entry_erase, if_neg (fun h => hthere h.1)]
  induction here, names using leg.induct tree followLast with
  | case1 here => exact .inl rfl
  | case2 here name rest hhere hdot ih =>
      simpa only [leg_dot hhere hdot, leg_dot (hkept hhere) hdot] using ih
  | case3 here name rest hhere hdot hup ih =>
      simpa only [leg_up hhere hdot hup, leg_up (hkept hhere) hdot hup] using ih
  | case4 here name rest hhere hdot hup hlong =>
      simp only [leg_long hhere hdot hup hlong, leg_long (hkept hhere) hdot hup hlong, true_or]
  | case5 here name rest hhere hdot hup hlong there hthere hlast =>
      left
      have hne : there ≠ place := by
        rintro rfl
        simp [hplace] at hthere
      rw [leg_name hhere hdot hup hlong, leg_name (hkept hhere) hdot hup hlong, hother hne,
        hthere]
  | case6 here name rest hhere hdot hup hlong there hthere hmore =>
      left
      have hne : there ≠ place := by
        rintro rfl
        simp [hplace] at hthere
      rw [leg_name hhere hdot hup hlong, leg_name (hkept hhere) hdot hup hlong, hother hne,
        hthere]
  | case7 here name rest hhere hdot hup hlong there target hthere hstop =>
      by_cases hne : there = place
      · right; left
        rw [leg_name hhere hdot hup hlong, hthere]
        simp only [hstop, if_true]
        rw [← hne]
      · left
        rw [leg_name hhere hdot hup hlong, leg_name (hkept hhere) hdot hup hlong, hother hne,
          hthere]
  | case8 here name rest hhere hdot hup hlong there target hthere hgo =>
      by_cases hne : there = place
      · right; right; right
        subst hne
        refine ⟨target, rest, Option.some.inj (hplace.symm.trans hthere), ?_, ?_⟩
        · cases followLast <;> simp_all
        · rw [leg_name hhere hdot hup hlong, hthere]
          simp [hgo, there]
      · left
        rw [leg_name hhere hdot hup hlong, leg_name (hkept hhere) hdot hup hlong, hother hne,
          hthere]
  | case9 here name rest hhere hdot hup hlong there entry' hlink hthere ih =>
      by_cases hne : there = place
      · right
        subst hne
        obtain rfl : entry = entry' := Option.some.inj (hplace.symm.trans hthere)
        rw [leg_name hhere hdot hup hlong, hthere]
        simp only
        cases rest with
        | nil => exact .inl rfl
        | cons name' rest =>
            -- nothing lies below what is no directory
            have hbelow : tree.entry? there ≠ some .directory := fun hthere' =>
              hentry (Option.some.inj (hthere.symm.trans hthere'))
            exact .inr (.inl ⟨_, leg_of_not_directory (by simp) hbelow⟩)
      · rw [leg_name hhere hdot hup hlong, leg_name (hkept hhere) hdot hup hlong, hother hne,
          hthere]
        simpa only [hlink] using ih
  | case10 here name rest hhere =>
      left
      rw [leg_of_not_directory (by simp) hhere,
        leg_of_not_directory (by simp) fun h => hhere (entry_of_erase h)]

/-- A path leads to a regular file if it is found and one. -/
theorem isFile_iff {path : Path} :
    tree.isFile path = true ↔
      ∃ goal file, tree.find true path = .ok (goal, file) ∧ file.isFile = true := by
  unfold FileTree.isFile
  cases hfind : tree.find true path with
  | error fault => simp
  | ok found =>
      constructor
      · intro hfile
        exact ⟨found.1, found.2, rfl, hfile⟩
      · rintro ⟨goal, file, hfound, hfile⟩
        cases hfound
        exact hfile

/-- The entry that a path names, with the regular file that the path leads to. -/
structure Names (tree : FileTree) (path : Path) (place : Place) (entry : Entry) (goal : Place)
    (file : Entry) : Prop where
  literal : tree.find false path = .ok (place, entry)
  followed : tree.find true path = .ok (goal, file)
  isFile : file.isFile = true

/-- A path that leads to a regular file names an entry: that file, or a link. -/
theorem exists_names {path : Path} {goal : Place} {file : Entry}
    (hfind : tree.find true path = .ok (goal, file)) (hfile : file.isFile = true) :
    ∃ place entry, tree.Names path place entry goal file := by
  have ⟨hfollow, hgoal⟩ := find_eq_ok_iff.mp hfind
  obtain ⟨htakes, used, hused, hleads⟩ := follow_eq_ok_iff.mp hfollow
  obtain ⟨place, used', hused', hliteral, hplace⟩ := hleads.literal
  have hfollow' : tree.follow false path = .ok (.at place) :=
    follow_eq_ok_iff.mpr ⟨htakes, used', by omega, hliteral⟩
  obtain ⟨entry, hentry⟩ : ∃ entry, tree.entry? place = some entry := by
    rcases hplace with rfl | ⟨target, _, hlink, _⟩
    · exact ⟨file, hgoal⟩
    · exact ⟨.link target, hlink⟩
  exact ⟨place, entry, find_eq_ok_iff.mpr ⟨hfollow', hentry⟩, hfind, hfile⟩

namespace Names

variable {path : Path} {place goal : Place} {entry file : Entry}

/-- The named entry is the file, or a link whose target leads to it. -/
theorem cases_entry (h : tree.Names path place entry goal file) :
    (place = goal ∧ entry = file) ∨ ∃ target left, entry = .link target ∧
      tree.Leads true left (start place.dropLast target) target.names (.at goal) := by
  have ⟨hfollow, hgoal⟩ := find_eq_ok_iff.mp h.followed
  have ⟨hfollow', hentry⟩ := find_eq_ok_iff.mp h.literal
  obtain ⟨_, used, _, hleads⟩ := follow_eq_ok_iff.mp hfollow
  obtain ⟨_, used', _, hleads'⟩ := follow_eq_ok_iff.mp hfollow'
  obtain ⟨place', _, _, hliteral, hplace⟩ := hleads.literal
  obtain rfl : place' = place := by simpa using hliteral.unique hleads'
  rcases hplace with rfl | ⟨target, left, hlink, htarget⟩
  · exact .inl ⟨rfl, Option.some.inj (hentry.symm.trans hgoal)⟩
  · exact .inr ⟨target, left, Option.some.inj (hentry.symm.trans hlink), htarget⟩

/-- The file that a path leads to is no directory. -/
theorem file_ne_directory (h : tree.Names path place entry goal file) : file ≠ .directory := by
  rintro rfl
  cases h.isFile

/-- The file that a path leads to is no link. -/
theorem file_ne_link (h : tree.Names path place entry goal file) (target : Path) :
    file ≠ .link target := by
  rintro rfl
  cases h.isFile

/-- The entry that a path to a file names is no directory. -/
theorem entry_ne_directory (h : tree.Names path place entry goal file) : entry ≠ .directory := by
  rcases h.cases_entry with ⟨-, rfl⟩ | ⟨target, _, rfl, _⟩
  · exact h.file_ne_directory
  · simp

/-- The root is never named as an entry that leads to a file. -/
theorem place_ne_nil (h : tree.Names path place entry goal file) : place ≠ [] := by
  rintro rfl
  exact h.entry_ne_directory (Option.some.inj (find_eq_ok_iff.mp h.literal).2.symm)

/-- Names lead where they led before the named entry was taken away, or they led to where that entry
leads, or to the entry itself if a last link is kept. -/
theorem leads_erase (h : tree.Names path place entry goal file) {links : Nat} {here other : Place}
    {names : List Name} (hleads : tree.Leads followLast links here names (.at other)) :
    (tree.erase place).Leads followLast links here names (.at other) ∨
      other = place ∨ (followLast = true ∧ other = goal) := by
  have hplace := (find_eq_ok_iff.mp h.literal).2
  have hgoal := (find_eq_ok_iff.mp h.followed).2
  -- only a leg that comes upon the named entry changes
  generalize hend : Goal.at other = end_ at hleads
  induction hleads with
  | @done here names end_ hleg =>
      subst hend
      rcases leg_erase hplace h.entry_ne_directory followLast here names with
        hsame | hstop | ⟨_, hfailed⟩ | ⟨_, _, _, _, hthrough⟩
      · exact .inl (.done (hsame.trans hleg))
      · exact .inr (.inl (by simpa [hstop] using hleg.symm))
      · simp [hfailed] at hleg
      · simp [hthrough] at hleg
  | @through links here directory names rest end_ hleg hleads ih =>
      subst hend
      rcases leg_erase hplace h.entry_ne_directory followLast here names with
        hsame | hstop | ⟨_, hfailed⟩ | ⟨target, rest', rfl, hgo, hthrough⟩
      · exact (ih rfl).imp_left (.through (hsame.trans hleg))
      · simp [hstop] at hleg
      · simp [hfailed] at hleg
      · obtain ⟨rfl, rfl⟩ : _ ∧ _ := by simpa [hthrough] using hleg
        obtain ⟨-, hlink⟩ | ⟨_, left, hlink, htarget⟩ := h.cases_entry
        · exact absurd hlink.symm (h.file_ne_link target)
        cases hlink
        by_cases hrest : rest' = []
        · -- the link stands last, so that the names lead where it leads
          obtain rfl : followLast = true := hgo.resolve_right (by simp [hrest])
          rw [hrest, List.append_nil] at hleads
          exact .inr (.inr ⟨rfl, by simpa using hleads.unique htarget⟩)
        · -- nothing lies below the file that the link leads to
          obtain ⟨middle, _, _, _, hfront, hback⟩ := hleads.split hrest
          obtain rfl : middle = goal := by simpa using hfront.unique htarget
          have hmiddle := hgoal.symm.trans (hback.directory hrest)
          exact absurd (Option.some.inj hmiddle) h.file_ne_directory

/-- What a path names it still names after the named entry of another was taken away, unless it is
that entry. -/
theorem find_erase_literal (h : tree.Names path place entry goal file) {path' : Path}
    {place' : Place} {entry' : Entry} (hfind : tree.find false path' = .ok (place', entry'))
    (hne : place' ≠ place) : (tree.erase place).find false path' = .ok (place', entry') := by
  rw [find_eq_ok_iff, follow_eq_ok_iff] at hfind ⊢
  obtain ⟨⟨htakes, used, hused, hleads⟩, hentry'⟩ := hfind
  rcases h.leads_erase hleads with hleads' | hsame | ⟨hfalse, -⟩
  · refine ⟨⟨htakes, used, hused, hleads'⟩, ?_⟩
    rw [entry_erase, if_neg (fun hsame => hne hsame.1), hentry']
  · exact absurd hsame hne
  · cases hfalse

/-- A path to a regular file still leads there after the named entry of another was taken away,
unless the other led there too. -/
theorem find_erase_of_isFile (h : tree.Names path place entry goal file) {path' : Path}
    {goal' : Place} {file' : Entry} (hfind : tree.find true path' = .ok (goal', file'))
    (hfile' : file'.isFile = true) (hne : goal' ≠ goal) :
    (tree.erase place).find true path' = .ok (goal', file') := by
  have hplace := (find_eq_ok_iff.mp h.literal).2
  rw [find_eq_ok_iff, follow_eq_ok_iff] at hfind ⊢
  obtain ⟨⟨htakes, used, hused, hleads⟩, hgoal'⟩ := hfind
  -- the entry taken away is a link, or the goal of the other path
  have hne' : goal' ≠ place := by
    rintro rfl
    rcases h.cases_entry with ⟨rfl, -⟩ | ⟨target, _, rfl, _⟩
    · exact hne rfl
    · obtain rfl := Option.some.inj (hgoal'.symm.trans hplace)
      cases hfile'
  rcases h.leads_erase hleads with hleads' | hsame | ⟨-, hsame⟩
  · refine ⟨⟨htakes, used, hused, hleads'⟩, ?_⟩
    rw [entry_erase, if_neg (fun hsame => hne' hsame.1), hgoal']
  · exact absurd hsame hne'
  · exact absurd hsame hne

/-- A path leads to no regular file once the entry that it names was taken away. -/
theorem isFile_erase_self (h : tree.Names path place entry goal file) :
    (tree.erase place).isFile path = false := by
  by_cases hfile : (tree.erase place).isFile path = true
  · obtain ⟨goal', file', hfind, hfile'⟩ := isFile_iff.mp hfile
    obtain ⟨place', entry', hnames⟩ := exists_names hfind hfile'
    obtain ⟨rfl, rfl⟩ : place' = place ∧ entry' = entry := by
      simpa [h.literal, eq_comm] using find_of_find_erase hnames.literal
    have hgone := (find_eq_ok_iff.mp hnames.literal).2
    rw [entry_erase, if_pos ⟨rfl, h.place_ne_nil⟩] at hgone
    cases hgone
  · simpa using hfile

end Names

end SerialLock.FileTree
