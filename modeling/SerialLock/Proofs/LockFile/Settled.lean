import SerialLock.Proofs.FileTree.Honest
import SerialLock.Proofs.LockFile.Owner

/-!
# Reading settles a lock file

Once a lock file was read with success, its path either leads to no regular file, and nobody owns
the lock, or leads to one whose contents name the owner (`Settled`).  In a settled tree a look shows
the owner, so that reading again finds the same one, tells nothing and changes nothing
(`owner_settles`).

A reader takes the system at its word when that says that a file is missing, be it while reading or
while removing.  So the system must not say so of a file that is there, which only files that the
kernel provides could bring about (`Honest`).
-/

set_option autoImplicit false

namespace SerialLock

namespace FileTree

/-- The path leads to a regular file whose contents name the process. -/
def NamesOwner (tree : FileTree) (path : Path) (pid : Int) : Prop :=
  ∃ contents, tree.Holds path contents ∧ Pid.ofBytes? contents = some pid

/-- Nobody owns the lock and the path leads to no regular file, or the file there names the
owner. -/
def Settled (tree : FileTree) (path : Path) (pid : Int) : Prop :=
  (tree.isFile path = false ∧ pid = Pid.noOwner) ∨ tree.NamesOwner path pid

end FileTree

namespace LockFile

variable {tree : FileTree} {machine after : Machine} {path : Path} {pid : Int}

/-- A look shows an owner exactly where the lock file is settled. -/
theorem findingIn_eq_owner_iff (hhonest : tree.Honest) :
    findingIn tree path = .owner pid ↔ tree.Settled path pid := by
  constructor
  · intro hfinding
    cases hfile : tree.isFile path with
    | false =>
        left
        simp only [findingIn, hfile, Bool.false_eq_true, if_false, Finding.owner.injEq] at hfinding
        exact ⟨hfile, hfinding.symm⟩
    | true =>
        right
        cases hread : tree.read path with
        | error fault =>
            have hmissing := hhonest.read_not_missing hfile hread
            simp [findingIn, hfile, hread, Finding.ofContents, hmissing] at hfinding
        | ok contents =>
            have hholds : tree.Holds path contents := ⟨hfile, hread⟩
            rw [findingIn_of_holds hholds, Finding.ofContents] at hfinding
            cases hpid : Pid.ofBytes? contents with
            | none => simp [hpid] at hfinding
            | some pid' =>
                simp only [hpid, Finding.owner.injEq] at hfinding
                subst hfinding
                exact ⟨contents, hholds, hpid⟩
  · intro hsettled
    cases hsettled with
    | inl hnobody =>
        obtain ⟨hfile, rfl⟩ := hnobody
        simp [findingIn, hfile]
    | inr hnamed =>
        obtain ⟨contents, hholds, hpid⟩ := hnamed
        rw [findingIn_of_holds hholds]
        simp [Finding.ofContents, hpid]

/-- What was read as the owner is what a look shows afterwards. -/
theorem findingIn_treeAfter (hhonest : tree.Honest) (howner : ownerIn tree path = .ok pid) :
    findingIn (treeAfter tree path) path = .owner pid := by
  unfold ownerIn at howner
  cases hfinding : findingIn tree path with
  | owner pid' =>
      simp only [hfinding, Except.ok.injEq] at howner
      subst howner
      simp only [treeAfter, hfinding]
  | unreadable fault => simp [hfinding] at howner
  | invalid =>
      simp only [hfinding] at howner
      have hinvalid := findingIn_eq_invalid_iff.mp hfinding
      obtain ⟨place, entry, goal, file, hnames⟩ := hinvalid.exists_names
      cases hnames.remove_eq with
      | inl hrefused =>
          -- an honest refusal is a failure, and not a result
          obtain ⟨contents, refusal, rfl, hremove⟩ := hrefused
          have hentry := (FileTree.find_eq_ok_iff.mp hnames.literal).2
          have hmissing := hhonest.refusal_not_missing hentry
          simp [discardIn, hremove, hmissing] at howner
      | inr herased =>
          have hremove := herased.2
          simp only [discardIn, hremove, Except.ok.injEq] at howner
          subst howner
          have hgone := hnames.isFile_erase_self
          simp only [treeAfter, hfinding, hremove]
          simp [findingIn, hgone]

/-- Reading a lock file keeps the tree honest. -/
theorem honest_treeAfter (hhonest : tree.Honest) (path : Path) :
    (treeAfter tree path).Honest := by
  rcases treeAfter_cases tree path with hsame | ⟨place, _, herased, _⟩
  · rw [hsame]
    exact hhonest
  · rw [herased]
    exact hhonest.erase place

/-- Whoever reads a lock file with success leaves it settled: the path leads to no regular file and
nobody was found, or it leads to one that names the owner found.  Reading it again finds the same
owner and leaves the machine as it is, files and log alike. -/
theorem owner_settles (hhonest : machine.files.Honest)
    (hrun : machine.attempt (owner path) = (.ok pid, after)) :
    after.files.Settled path pid ∧ after.attempt (owner path) = (.ok pid, after) := by
  rw [attempt_owner, Prod.mk.injEq] at hrun
  obtain ⟨howner, rfl⟩ := hrun
  have hfinding := findingIn_treeAfter hhonest howner
  constructor
  · apply (findingIn_eq_owner_iff (honest_treeAfter hhonest path)).mp
    exact hfinding
  · apply attempt_ownerWith_of_owner
    exact hfinding

/-- A lock file that is reached through a chain of two links, the first of them in a linked
directory, and that names nobody. -/
def chainedLocks : Machine where
  processes := []
  files :=
    { entries := [
        ([Utf8.ofString "l"], .directory),
        ([Utf8.ofString "k"], .link (Utf8.ofString "l")),
        ([Utf8.ofString "l", Utf8.ofString "LCK..a"], .link (Utf8.ofString "../LCK..b")),
        ([Utf8.ofString "LCK..b"], .link (Utf8.ofString "l/LCK..c")),
        ([Utf8.ofString "l", Utf8.ofString "LCK..c"], .file 0)]
      contents := [(0, Utf8.ofString "nobody")]
      workingDirectory := [] }

/-- Of such a chain the first link is taken away, and the rest is settled from then on. -/
theorem owner_settles_chainedLocks :
    ∃ after, chainedLocks.attempt (owner (Utf8.ofString "/k/LCK..a")) = (.ok 0, after) ∧
      after.files.isFile (Utf8.ofString "/LCK..b") = true ∧
      after.files.Settled (Utf8.ofString "/k/LCK..a") 0 ∧
      after.attempt (owner (Utf8.ofString "/k/LCK..a")) = (.ok 0, after) := by
  have hhonest : chainedLocks.files.Honest := by decide
  refine ⟨_, rfl, rfl, ?_⟩
  exact owner_settles hhonest rfl

end LockFile

end SerialLock
