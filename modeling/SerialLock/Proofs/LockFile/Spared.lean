import SerialLock.Proofs.LockFile.Owner

/-!
# Lock files with an owner are spared

Reading a lock file, whichever it is, leaves every file that names an owner where it is and as it
is: its path still names the same entry and still leads to the same contents (`spared_treeAfter`).
What an owner was read from is there before and after (`exists_spared`).
-/

set_option autoImplicit false

namespace SerialLock

namespace FileTree

variable {tree : FileTree} {path path' : Path} {place : Place} {contents : Bytes}

/-- In both trees the path names the same entry and leads to a regular file with the same
contents. -/
structure Spared (before after : FileTree) (path : Path) (contents : Bytes) : Prop where
  held : before.Holds path contents
  holds : after.Holds path contents
  named : ∃ found, before.find false path = .ok found ∧ after.find false path = .ok found

/-- A path holds contents exactly if it leads to a regular file that reads as them. -/
theorem holds_iff :
    tree.Holds path contents ↔ ∃ goal file, tree.find true path = .ok (goal, file) ∧
      file.isFile = true ∧ tree.readEntry file = .ok contents := by
  constructor
  · rintro ⟨hfile, hread⟩
    obtain ⟨goal, file, hfind, hregular⟩ := isFile_iff.mp hfile
    refine ⟨goal, file, hfind, hregular, ?_⟩
    simpa [read, hfind] using hread
  · rintro ⟨goal, file, hfind, hregular, hread⟩
    exact ⟨isFile_iff.mpr ⟨goal, file, hfind, hregular⟩, by simpa [read, hfind] using hread⟩

/-- A file that is there is spared by doing nothing. -/
theorem Holds.spared (hholds : tree.Holds path contents) : tree.Spared tree path contents := by
  obtain ⟨goal, file, hfind, hregular, _⟩ := holds_iff.mp hholds
  obtain ⟨place, entry, hnames⟩ := exists_names hfind hregular
  exact ⟨hholds, hholds, (place, entry), hnames.literal, hnames.literal⟩

/-- What a file holds after an entry was taken away it held before. -/
theorem Holds.of_erase (hholds : (tree.erase place).Holds path contents) :
    tree.Holds path contents := by
  obtain ⟨goal, file, hfind, hregular, hread⟩ := holds_iff.mp hholds
  rw [readEntry_erase] at hread
  exact holds_iff.mpr ⟨goal, file, find_of_find_erase hfind, hregular, hread⟩

/-- Discarding one lock file spares those that name an owner. -/
theorem Discards.spared {pid : Int} (h : tree.Discards path place)
    (hholds : tree.Holds path' contents) (hpid : Pid.ofBytes? contents = some pid) :
    tree.Spared (tree.erase place) path' contents := by
  obtain ⟨entry, goal, file, hnames, _, hinvalid⟩ := h.exists_names
  obtain ⟨goal', file', hfind', hregular', hread'⟩ := holds_iff.mp hholds
  obtain ⟨place', entry', hnames'⟩ := FileTree.exists_names hfind' hregular'
  -- the discarded path leads to contents that name nobody, hence elsewhere
  have hgoal : goal' ≠ goal := by
    rintro rfl
    obtain rfl : file' = file := Option.some.inj
      ((find_eq_ok_iff.mp hfind').2.symm.trans (find_eq_ok_iff.mp hnames.followed).2)
    rw [hread'] at hinvalid
    simp [LockFile.Finding.ofContents, hpid] at hinvalid
  have hkept : (tree.erase place).find true path' = .ok (goal', file') :=
    hnames.find_erase_of_isFile hfind' hregular' hgoal
  -- so the entry that the path names is another one too
  have hplace : place' ≠ place := by
    rintro rfl
    have hgone := hnames'.isFile_erase_self
    rw [isFile_iff.mpr ⟨goal', file', hkept, hregular'⟩] at hgone
    cases hgone
  refine ⟨hholds, ?_, (place', entry'), hnames'.literal, ?_⟩
  · exact holds_iff.mpr ⟨goal', file', hkept, hregular', by rw [readEntry_erase, hread']⟩
  · exact hnames.find_erase_literal hnames'.literal hplace

end FileTree

namespace LockFile

variable {tree before : FileTree} {path path' : Path} {contents : Bytes}

/-- What a file holds after another lock file was read, it held before. -/
theorem holds_of_treeAfter (hholds : (treeAfter tree path).Holds path' contents) :
    tree.Holds path' contents := by
  rcases treeAfter_cases tree path with hsame | ⟨place, _, herased, _⟩
  · rwa [hsame] at hholds
  · rw [herased] at hholds
    exact hholds.of_erase

/-- Reading one more lock file spares those that name an owner. -/
theorem spared_treeAfter {pid : Int} (hspared : before.Spared tree path' contents)
    (hpid : Pid.ofBytes? contents = some pid) (path : Path) :
    before.Spared (LockFile.treeAfter tree path) path' contents := by
  rcases treeAfter_cases tree path with hsame | ⟨place, hdiscards, herased, _⟩
  · rwa [hsame]
  · rw [herased]
    have hstep := hdiscards.spared hspared.holds hpid
    obtain ⟨found, hfound, hfound'⟩ := hspared.named
    obtain ⟨next, hnext, hnext'⟩ := hstep.named
    obtain rfl : found = next := by simpa [hfound'] using hnext
    exact ⟨hspared.held, hstep.holds, found, hfound, hnext'⟩

/-- An owner other than nobody was read from contents that name it, and these are spared. -/
theorem exists_spared {pid : Int} (howner : ownerIn tree path = .ok pid)
    (hpid : pid ≠ Pid.noOwner) :
    ∃ contents, tree.Spared (treeAfter tree path) path contents ∧
      Pid.ofBytes? contents = some pid := by
  have hfinding : findingIn tree path = .owner pid := by
    unfold ownerIn at howner
    cases hfinding : findingIn tree path with
    | owner pid' =>
        simp only [hfinding, Except.ok.injEq] at howner
        rw [howner]
    | unreadable fault => simp [hfinding] at howner
    | invalid =>
        simp only [hfinding] at howner
        rcases discardIn_cases tree path with
          ⟨_, _, hdiscard⟩ | ⟨_, _, _, hdiscard⟩ | ⟨_, _, _, hdiscard⟩
        · simp only [hdiscard, Except.ok.injEq] at howner
          exact absurd howner.symm hpid
        · simp only [hdiscard, Except.ok.injEq] at howner
          exact absurd howner.symm hpid
        · simp [hdiscard] at howner
  rcases findingIn_owner_cases hfinding with hnobody | ⟨contents, hholds, hcontents⟩
  · exact absurd hnobody hpid
  · exact ⟨contents, spared_treeAfter hholds.spared hcontents path, hcontents⟩

end LockFile

end SerialLock
