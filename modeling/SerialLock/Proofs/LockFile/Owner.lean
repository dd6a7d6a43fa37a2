import SerialLock.LockFile
import SerialLock.Proofs.Attempt
import SerialLock.Proofs.FileTree.Erase

/-!
# Reading a lock file on a machine

What a look at a lock file shows, who its owner is and what becomes of the tree of files are
functions of that tree (`ownerIn`, `treeAfter`), and reading a lock file computes them
(`attempt_owner`).  The tree changes in one way only: an invalid file is discarded, which takes away
the entry that the path names (`Discards`).

Discarding one file changes the owner of no other (`Discards.ownerIn_erase`): every path to it names
an entry that can be taken away too, so that reading it finds nobody before and after.
-/

set_option autoImplicit false

namespace SerialLock

open LockFile (Finding)

namespace FileTree

/-- The path leads to a regular file that reads as `contents`. -/
structure Holds (tree : FileTree) (path : Path) (contents : Bytes) : Prop where
  isFile : tree.isFile path = true
  read : tree.read path = .ok contents

/-- The path leads to a regular file that could be read and names nobody. -/
def Invalid (tree : FileTree) (path : Path) : Prop :=
  ∃ goal file contents, tree.find true path = .ok (goal, file) ∧ file.isFile = true ∧
    tree.readEntry file = .ok contents ∧ Pid.ofBytes? contents = none

/-- The path leads to an invalid lock file and names the entry at `place`, which can be taken
away. -/
structure Discards (tree : FileTree) (path : Path) (place : Place) : Prop where
  invalid : tree.Invalid path
  literal : ∃ entry, tree.find false path = .ok (place, entry)
  removed : tree.remove path = .ok (tree.erase place)

end FileTree

namespace LockFile

/-- What a look at a lock file in the tree shows. -/
def findingIn (tree : FileTree) (path : Path) : Finding :=
  if tree.isFile path then .ofContents (tree.read path) else .owner Pid.noOwner

/-- What removing an invalid lock file from the tree yields. -/
def discardIn (tree : FileTree) (path : Path) : Except Failure Int :=
  match tree.remove path with
  | .ok _ => .ok Pid.noOwner
  | .error fault => if fault.isMissing then .ok Pid.noOwner else .error (.lockFileKept path fault)

/-- The owner that a lock file in the tree names. -/
def ownerIn (tree : FileTree) (path : Path) : Except Failure Int :=
  match findingIn tree path with
  | .owner pid => .ok pid
  | .invalid => discardIn tree path
  | .unreadable fault => .error (.lockFileUnread path fault)

/-- The tree after a lock file in it was read. -/
def treeAfter (tree : FileTree) (path : Path) : FileTree :=
  match findingIn tree path, tree.remove path with
  | .invalid, .ok after => after
  | _, _ => tree

/-- What is told when a lock file in the tree is read. -/
def notice (tree : FileTree) (path : Path) : List Log.Record :=
  match findingIn tree path with
  | .invalid =>
    [⟨.info, .reading, s!"lock file '{Utf8.display path}' is invalid, removing it"⟩]
  | _ => []

/-! ## Reading computes these functions -/

/-- A look shows what is in the tree and changes nothing. -/
theorem run_look (machine : Machine) (path : Path) :
    (look path : Simulation Finding).run machine = (findingIn machine.files path, machine) := by
  unfold findingIn
  cases hfile : machine.files.isFile path with
  | true =>
      have hask : (Host.isFile path : Simulation Bool).run machine = (true, machine) := by
        rw [← hfile]; rfl
      unfold look
      rw [StateT.run_bind, hask]
      rfl
  | false =>
      have hask : (Host.isFile path : Simulation Bool).run machine = (false, machine) := by
        rw [← hfile]; rfl
      unfold look
      rw [StateT.run_bind, hask]
      rfl

/-- A reader goes on as its look shows: only an invalid file is discarded, by the step `remove`. -/
theorem attempt_ownerWith (machine : Machine) (path : Path)
    (remove : Path → Simulation (Except Fault Unit)) :
    machine.attempt (ownerWith remove path) =
      match findingIn machine.files path with
      | .owner pid => (.ok pid, machine)
      | .invalid => machine.attempt (discard remove path)
      | .unreadable fault => (.error (.lockFileUnread path fault), machine) := by
  unfold ownerWith
  rw [Machine.attempt_bind, Machine.attempt_lift, run_look]
  cases findingIn machine.files path <;> rfl

/-- Whatever the step that would remove it, a file that names an owner is left alone. -/
theorem attempt_ownerWith_of_owner {machine : Machine} {path : Path} {pid : Int}
    (hfinding : findingIn machine.files path = .owner pid)
    (remove : Path → Simulation (Except Fault Unit)) :
    machine.attempt (ownerWith remove path) = (.ok pid, machine) := by
  rw [attempt_ownerWith, hfinding]

/-- Discarding a lock file tells so and then removes it. -/
theorem attempt_discard (machine : Machine) (path : Path) :
    machine.attempt (discard Host.remove path) =
      (discardIn machine.files path,
        ((machine.told ⟨.info, .reading,
          s!"lock file '{Utf8.display path}' is invalid, removing it"⟩).remove path).2) := by
  unfold discard discardIn
  simp only [info]
  rw [Machine.attempt_bind, Machine.attempt_lift, Machine.run_tell]
  simp only
  rw [Machine.attempt_bind, Machine.attempt_lift, Machine.run_remove]
  simp only [Machine.remove, Machine.told]
  cases hremove : machine.files.remove path with
  | ok after => rfl
  | error fault => cases hmissing : fault.isMissing <;> simp [hmissing]

/-- Reading a lock file yields what the tree has, and leaves the tree as it is or without the
file. -/
theorem attempt_owner (machine : Machine) (path : Path) :
    machine.attempt (owner path) =
      (ownerIn machine.files path,
        { machine with
            files := treeAfter machine.files path
            log := machine.log ++ notice machine.files path }) := by
  unfold owner ownerIn treeAfter notice
  rw [attempt_ownerWith]
  cases hfinding : findingIn machine.files path with
  | owner pid => simp
  | unreadable fault => simp
  | invalid =>
      simp only [attempt_discard, Machine.remove, Machine.told]
      cases machine.files.remove path <;> rfl

/-! ## Invalid files -/

/-- Contents are found invalid exactly if they were read and name nobody. -/
theorem ofContents_eq_invalid_iff {read : Except Fault Bytes} :
    Finding.ofContents read = .invalid ↔
      ∃ contents, read = .ok contents ∧ Pid.ofBytes? contents = none := by
  unfold Finding.ofContents
  cases read with
  | error fault => cases hmissing : fault.isMissing <;> simp [hmissing]
  | ok contents => cases hpid : Pid.ofBytes? contents <;> simp [hpid]

/-- What removing an invalid lock file can yield. -/
theorem discardIn_cases (tree : FileTree) (path : Path) :
    (∃ after, tree.remove path = .ok after ∧ discardIn tree path = .ok Pid.noOwner) ∨
      (∃ fault, tree.remove path = .error fault ∧ fault.isMissing = true ∧
        discardIn tree path = .ok Pid.noOwner) ∨
      ∃ fault, tree.remove path = .error fault ∧ fault.isMissing = false ∧
        discardIn tree path = .error (.lockFileKept path fault) := by
  unfold discardIn
  cases tree.remove path with
  | ok after => exact .inl ⟨after, rfl, rfl⟩
  | error fault =>
      cases hmissing : fault.isMissing with
      | true => exact .inr (.inl ⟨fault, rfl, hmissing, by simp [hmissing]⟩)
      | false => exact .inr (.inr ⟨fault, rfl, hmissing, by simp [hmissing]⟩)

/-- A look at a file shows what its contents do. -/
theorem findingIn_of_holds {tree : FileTree} {path : Path} {contents : Bytes}
    (hholds : tree.Holds path contents) : findingIn tree path = .ofContents (.ok contents) := by
  unfold findingIn
  rw [if_pos hholds.isFile, hholds.read]

/-- An owner that a look shows is nobody, or named by the contents of the file. -/
theorem findingIn_owner_cases {tree : FileTree} {path : Path} {pid : Int}
    (hfinding : findingIn tree path = .owner pid) :
    pid = Pid.noOwner ∨
      ∃ contents, tree.Holds path contents ∧ Pid.ofBytes? contents = some pid := by
  unfold findingIn at hfinding
  cases hfile : tree.isFile path with
  | false =>
      rw [hfile] at hfinding
      cases hfinding
      exact .inl rfl
  | true =>
      rw [hfile, if_pos rfl] at hfinding
      unfold Finding.ofContents at hfinding
      cases hread : tree.read path with
      | error fault =>
          cases hmissing : fault.isMissing with
          | true =>
              simp only [hread, hmissing, if_true, Finding.owner.injEq] at hfinding
              exact .inl hfinding.symm
          | false => simp [hread, hmissing] at hfinding
      | ok contents =>
          cases hpid : Pid.ofBytes? contents with
          | none => simp [hread, hpid] at hfinding
          | some pid' =>
              simp only [hread, hpid, Finding.owner.injEq] at hfinding
              exact .inr ⟨contents, ⟨hfile, hread⟩, hfinding ▸ hpid⟩

/-- A lock file is found invalid where the path leads to one that names nobody. -/
theorem findingIn_eq_invalid_iff {tree : FileTree} {path : Path} :
    findingIn tree path = .invalid ↔ tree.Invalid path := by
  unfold findingIn FileTree.isFile FileTree.read
  constructor
  · intro hfinding
    cases hfind : tree.find true path with
    | error fault => simp [hfind] at hfinding
    | ok found =>
        obtain ⟨goal, file⟩ := found
        simp only [hfind] at hfinding
        cases hfile : file.isFile with
        | false => simp [hfile] at hfinding
        | true =>
            simp only [hfile, if_true] at hfinding
            obtain ⟨contents, hread, hpid⟩ := ofContents_eq_invalid_iff.mp hfinding
            exact ⟨goal, file, contents, hfind, hfile, hread, hpid⟩
  · rintro ⟨goal, file, contents, hfind, hfile, hread, hpid⟩
    simp only [hfind, hfile, if_true]
    exact ofContents_eq_invalid_iff.mpr ⟨contents, hread, hpid⟩

/-- It is found unreadable where a file is there, and the fault does not say that it is missing. -/
theorem findingIn_eq_unreadable_iff {tree : FileTree} {path : Path} {fault : Fault} :
    findingIn tree path = .unreadable fault ↔
      tree.isFile path = true ∧ tree.read path = .error fault ∧ fault.isMissing = false := by
  unfold findingIn
  cases tree.isFile path with
  | false => simp
  | true =>
      cases tree.read path with
      | ok contents => cases hpid : Pid.ofBytes? contents <;> simp [Finding.ofContents, hpid]
      | error fault' =>
          by_cases hfault : fault' = fault
          · subst hfault
            cases hmissing : fault'.isMissing <;> simp [Finding.ofContents, hmissing]
          · cases hmissing : fault'.isMissing <;> simp [Finding.ofContents, hmissing, hfault]

end LockFile

namespace FileTree

variable {tree : FileTree} {path : Path} {place goal : Place} {entry file : Entry}

/-- What removing an invalid lock file yields, by the entry that its path names. -/
def discardOf (path : Path) : Entry → Except Failure Int
  | .kernel _ refusal =>
    if refusal.isMissing then .ok Pid.noOwner else .error (.lockFileKept path refusal)
  | _ => .ok Pid.noOwner

/-- The named entry is taken away, unless the kernel provides it. -/
theorem Names.remove_eq (h : tree.Names path place entry goal file) :
    (∃ contents refusal, entry = .kernel contents refusal ∧ tree.remove path = .error refusal) ∨
      (∀ contents refusal, entry ≠ .kernel contents refusal) ∧
        tree.remove path = .ok (tree.erase place) := by
  unfold remove
  cases hentry : entry with
  | directory => exact absurd hentry h.entry_ne_directory
  | kernel contents refusal =>
      exact .inl ⟨contents, refusal, rfl, by rw [h.literal, hentry]⟩
  | file number => exact .inr ⟨by simp, by rw [h.literal, hentry]⟩
  | link target => exact .inr ⟨by simp, by rw [h.literal, hentry]⟩
  | pipe => exact .inr ⟨by simp, by rw [h.literal, hentry]⟩
  | device => exact .inr ⟨by simp, by rw [h.literal, hentry]⟩

/-- What removing an invalid lock file yields depends on the named entry only. -/
theorem Names.discardIn_eq (h : tree.Names path place entry goal file) :
    LockFile.discardIn tree path = discardOf path entry := by
  unfold LockFile.discardIn
  rcases h.remove_eq with ⟨contents, refusal, rfl, hremove⟩ | ⟨hentry, hremove⟩
  · rw [hremove]
    rfl
  · rw [hremove]
    cases entry with
    | kernel contents refusal => exact absurd rfl (hentry contents refusal)
    | _ => rfl

/-- What a look shows depends on the file that the path leads to only. -/
theorem Names.findingIn_eq (h : tree.Names path place entry goal file) :
    LockFile.findingIn tree path = .ofContents (tree.readEntry file) := by
  unfold LockFile.findingIn FileTree.isFile read
  simp [h.followed, h.isFile]

/-- The path of an invalid lock file names an entry. -/
theorem Invalid.exists_names (h : tree.Invalid path) :
    ∃ place entry goal file, tree.Names path place entry goal file := by
  obtain ⟨goal, file, _, hfind, hfile, _, _⟩ := h
  obtain ⟨place, entry, hnames⟩ := FileTree.exists_names hfind hfile
  exact ⟨place, entry, goal, file, hnames⟩

end FileTree

namespace LockFile

/-- Where there is no regular file there is no owner. -/
theorem ownerIn_of_not_isFile {tree : FileTree} {path : Path} (hfile : tree.isFile path = false) :
    ownerIn tree path = .ok Pid.noOwner := by
  unfold ownerIn findingIn
  simp [hfile]

/-- Reading a lock file leaves the tree as it is, or discards the file and finds nobody. -/
theorem treeAfter_cases (tree : FileTree) (path : Path) :
    treeAfter tree path = tree ∨ ∃ place, tree.Discards path place ∧
      treeAfter tree path = tree.erase place ∧ ownerIn tree path = .ok Pid.noOwner := by
  unfold treeAfter ownerIn
  cases hfinding : findingIn tree path with
  | owner pid => exact .inl rfl
  | unreadable fault => exact .inl rfl
  | invalid =>
      have hinvalid := findingIn_eq_invalid_iff.mp hfinding
      obtain ⟨place, entry, goal, file, hnames⟩ := hinvalid.exists_names
      rcases hnames.remove_eq with ⟨contents, refusal, -, hremove⟩ | ⟨-, hremove⟩
      · exact .inl (by rw [hremove])
      · refine .inr ⟨place, ⟨hinvalid, ⟨entry, hnames.literal⟩, hremove⟩, by rw [hremove], ?_⟩
        unfold discardIn
        rw [hremove]

/-- A lock file that could not be read or discarded leaves the tree as it is. -/
theorem treeAfter_of_error {tree : FileTree} {path : Path} {failure : Failure}
    (herror : ownerIn tree path = .error failure) : treeAfter tree path = tree := by
  rcases treeAfter_cases tree path with hsame | ⟨_, _, _, howner⟩
  · exact hsame
  · rw [howner] at herror
    cases herror

end LockFile

/-! ## Other lock files -/

namespace FileTree

variable {tree : FileTree} {path path' : Path} {place : Place}

/-- Taking an entry away does not change what an entry reads as. -/
theorem readEntry_erase (tree : FileTree) (place : Place) (entry : Entry) :
    (tree.erase place).readEntry entry = tree.readEntry entry := by
  cases entry <;> rfl

namespace Discards

/-- What is discarded is an entry that leads to an invalid file. -/
theorem exists_names (h : tree.Discards path place) :
    ∃ entry goal file, tree.Names path place entry goal file ∧
      (∀ contents refusal, entry ≠ .kernel contents refusal) ∧
      Finding.ofContents (tree.readEntry file) = .invalid := by
  obtain ⟨place', entry, goal, file, hnames⟩ := h.invalid.exists_names
  obtain ⟨_, hliteral⟩ := h.literal
  obtain rfl : place' = place := by
    have hsame := hnames.literal.symm.trans hliteral
    simp only [Except.ok.injEq, Prod.mk.injEq] at hsame
    exact hsame.1
  refine ⟨entry, goal, file, hnames, ?_, ?_⟩
  · rintro contents refusal rfl
    have hremoved := h.removed
    simp [remove, hnames.literal] at hremoved
  · rw [← hnames.findingIn_eq]
    exact LockFile.findingIn_eq_invalid_iff.mpr h.invalid

/-- A path that no longer leads to a file after another was discarded named an entry that could be
taken away too. -/
theorem entry_ne_kernel_of_lost (h : tree.Discards path place) {place' goal' : Place}
    {entry' file' : Entry} (h' : tree.Names path' place' entry' goal' file')
    (hlost : (tree.erase place).isFile path' = false) (contents : Except Fault Bytes)
    (refusal : Fault) : entry' ≠ .kernel contents refusal := by
  rintro rfl
  obtain ⟨entry, goal, file, hnames, hentry, _⟩ := h.exists_names
  by_cases hplace : place' = place
  · subst hplace
    have hsame := h'.literal
    have hentry' := (find_eq_ok_iff.mp hnames.literal).2.symm.trans (find_eq_ok_iff.mp hsame).2
    exact hentry contents refusal (Option.some.inj hentry')
  · -- the entry is still named, so that the path still leads to it
    have hliteral := hnames.find_erase_literal h'.literal hplace
    have hfind := find_of_find_literal hliteral (by simp)
    have hkept : (tree.erase place).isFile path' = true :=
      isFile_iff.mpr ⟨place', _, hfind, rfl⟩
    rw [hkept] at hlost
    cases hlost

/-- A path that no longer leads to a file after another was discarded led to an invalid one, where
nobody is the owner. -/
theorem ownerIn_of_lost (h : tree.Discards path place) (hfile : tree.isFile path' = true)
    (hlost : (tree.erase place).isFile path' = false) :
    LockFile.ownerIn tree path' = .ok Pid.noOwner := by
  obtain ⟨goal', file', hfind', hfile'⟩ := isFile_iff.mp hfile
  obtain ⟨place', entry', hnames'⟩ := FileTree.exists_names hfind' hfile'
  obtain ⟨entry, goal, file, hnames, _, hinvalid⟩ := h.exists_names
  have hgoal : goal' = goal := by
    by_cases hgoal : goal' = goal
    · exact hgoal
    · have hkept := isFile_iff.mpr ⟨goal', file', hnames.find_erase_of_isFile hfind' hfile' hgoal,
        hfile'⟩
      rw [hkept] at hlost
      cases hlost
  subst hgoal
  obtain rfl : file' = file := Option.some.inj
    ((find_eq_ok_iff.mp hfind').2.symm.trans (find_eq_ok_iff.mp hnames.followed).2)
  have hkernel := h.entry_ne_kernel_of_lost hnames' hlost
  unfold LockFile.ownerIn
  rw [hnames'.findingIn_eq, hinvalid, hnames'.discardIn_eq]
  cases entry' with
  | kernel contents refusal => exact absurd rfl (hkernel contents refusal)
  | _ => rfl

/-- Discarding a lock file changes the owner of none. -/
theorem ownerIn_erase (h : tree.Discards path place) (path' : Path) :
    LockFile.ownerIn (tree.erase place) path' = LockFile.ownerIn tree path' := by
  cases hlost : (tree.erase place).isFile path' with
  | false =>
      rw [LockFile.ownerIn_of_not_isFile hlost]
      cases hfile : tree.isFile path' with
      | false => rw [LockFile.ownerIn_of_not_isFile hfile]
      | true => rw [h.ownerIn_of_lost hfile hlost]
  | true =>
      obtain ⟨goal', file', hfind', hfile'⟩ := isFile_iff.mp hlost
      obtain ⟨place', entry', hkept⟩ := FileTree.exists_names hfind' hfile'
      -- what the path still names and leads to, it named and led to before
      have hnames : tree.Names path' place' entry' goal' file' :=
        ⟨find_of_find_erase hkept.literal, find_of_find_erase hkept.followed, hfile'⟩
      unfold LockFile.ownerIn
      rw [hkept.findingIn_eq, hnames.findingIn_eq, hkept.discardIn_eq, hnames.discardIn_eq,
        readEntry_erase]

end Discards

end FileTree

namespace LockFile

/-- Reading a lock file changes the owner of no other, and not its own. -/
theorem ownerIn_treeAfter (tree : FileTree) (path path' : Path) :
    ownerIn (treeAfter tree path) path' = ownerIn tree path' := by
  rcases treeAfter_cases tree path with hsame | ⟨place, hdiscards, herased, _⟩
  · rw [hsame]
  · rw [herased, hdiscards.ownerIn_erase]

end LockFile

end SerialLock
