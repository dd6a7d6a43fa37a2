import SerialLock.FileTree.Change
import SerialLock.FileTree.Standard
import SerialLock.Proofs.FileTree.Erase
import Mathlib.Logic.Relation

/-!
# Files that the system reports as they are

The system says that a file is missing where there is none.  Of a file that is there it must not say
so, neither when that is read nor when it is removed; only files that the kernel provides could
bring that about.  A usual tree is honest in this sense, and stays so under every change
(`honest_of_changes`).
-/

set_option autoImplicit false

namespace SerialLock

/-- The system says of no such entry that it is missing. -/
def Entry.isHonest : Entry → Bool
  | .kernel (.ok _) refusal => !refusal.isMissing
  | .kernel (.error fault) refusal => !fault.isMissing && !refusal.isMissing
  | _ => true

namespace FileTree

variable {tree after : FileTree} {path target : Path} {place : Place} {entry : Entry}
  {bytes : Bytes}

/-- The system says of no file that is there that it is missing. -/
def Honest (tree : FileTree) : Prop :=
  ∀ e ∈ tree.entries, e.2.isHonest = true

instance (tree : FileTree) : Decidable tree.Honest :=
  inferInstanceAs (Decidable (∀ e ∈ tree.entries, e.2.isHonest = true))

/-- One change to a tree. -/
inductive Change (tree after : FileTree) : Prop where
  | remove {path : Path} (hremove : tree.remove path = .ok after)
  | write {path : Path} {bytes : Bytes} (hwrite : tree.write path bytes = .ok after)
  | link {path target : Path} (hlink : tree.makeLink path target = .ok after)
  | hardLink {path target : Path} (hlink : tree.makeHardLink path target = .ok after)
  | pipe {path : Path} (hpipe : tree.makePipe path = .ok after)
  | directory {path : Path} (hdirectory : tree.makeDirectory path = .ok after)
  | prune {path : Path} (hprune : tree.prune path = .ok after)

namespace Honest

/-! ## What an honest system says -/

/-- In an honest tree whatever stands at a place is honest about itself. -/
theorem isHonest_of_entry (h : tree.Honest) (hentry : tree.entry? place = some entry) :
    entry.isHonest = true := by
  unfold entry? at hentry
  split at hentry
  · cases hentry
    rfl
  · obtain ⟨_, _, hmem, _⟩ := List.lookup_eq_some_iff.mp hentry
    have hentries : (place, entry) ∈ tree.entries := by
      rw [hmem]
      simp
    exact h (place, entry) hentries

/-- A file that cannot be removed is not said to be missing. -/
theorem refusal_not_missing (h : tree.Honest) {contents : Except Fault Bytes} {refusal : Fault}
    (hentry : tree.entry? place = some (.kernel contents refusal)) :
    refusal.isMissing = false := by
  have hhonest := h.isHonest_of_entry hentry
  unfold Entry.isHonest at hhonest
  cases contents with
  | ok bytes => simpa using hhonest
  | error fault =>
      rw [Bool.and_eq_true] at hhonest
      simpa using hhonest.2

/-- A regular file that cannot be read is not said to be missing. -/
theorem read_not_missing (h : tree.Honest) (hfile : tree.isFile path = true) {fault : Fault}
    (hread : tree.read path = .error fault) : fault.isMissing = false := by
  obtain ⟨goal, file, hfind, hregular⟩ := isFile_iff.mp hfile
  have hhonest := h.isHonest_of_entry (find_eq_ok_iff.mp hfind).2
  simp only [read, hfind] at hread
  cases file with
  | file number => cases hread
  | kernel contents refusal =>
      simp only [readEntry] at hread
      subst hread
      rw [Entry.isHonest, Bool.and_eq_true] at hhonest
      simpa using hhonest.1
  | directory => cases hregular
  | link target => cases hregular
  | pipe => cases hregular
  | device => cases hregular

/-! ## Changes -/

/-- Taking an entry away keeps a tree honest. -/
theorem erase (h : tree.Honest) (place : Place) : (tree.erase place).Honest := by
  intro e he
  apply h
  exact (List.mem_filter.mp he).1

/-- Putting an honest entry somewhere keeps a tree honest. -/
theorem insert (h : tree.Honest) (place : Place) (hentry : entry.isHonest = true) :
    (tree.insert place entry).Honest := by
  intro e he
  cases List.mem_append.mp he with
  | inl hkept => exact h.erase place e hkept
  | inr hnew =>
      rw [List.mem_singleton.mp hnew]
      exact hentry

/-- Putting an honest entry where a path leads to none keeps a tree honest. -/
theorem placed (h : tree.Honest) (hentry : entry.isHonest = true)
    (hplace : tree.place path entry = .ok after) : after.Honest := by
  unfold FileTree.place at hplace
  split at hplace
  · cases hplace
  · cases hplace
  · cases hplace
    exact h.insert _ hentry

/-- Writing a file keeps a tree honest. -/
theorem write (h : tree.Honest) (hwrite : tree.write path bytes = .ok after) : after.Honest := by
  unfold FileTree.write at hwrite
  split at hwrite
  · cases hwrite
  · -- a new file
    cases hwrite
    exact h.insert _ rfl
  · split at hwrite
    · cases hwrite
      exact h
    · cases hwrite
    · cases hwrite
    · cases hwrite
      exact h

/-- A second entry for what is there keeps a tree honest. -/
theorem makeHardLink (h : tree.Honest) (hlink : tree.makeHardLink path target = .ok after) :
    after.Honest := by
  unfold FileTree.makeHardLink at hlink
  split at hlink
  · cases hlink
  · cases hlink
  · rename_i hfind
    exact h.placed (h.isHonest_of_entry (find_eq_ok_iff.mp hfind).2) hlink

/-- Making directories keeps a tree honest. -/
theorem makeBelow (h : tree.Honest) {segments : List Name}
    (hbelow : tree.makeBelow path segments = .ok after) : after.Honest := by
  induction segments generalizing tree path with
  | nil =>
      cases hbelow
      exact h
  | cons segment rest ih =>
      simp only [FileTree.makeBelow] at hbelow
      split at hbelow
      · cases hbelow
      · exact ih h hbelow
      · exact ih (h.insert _ rfl) hbelow

/-- Every change keeps a tree honest. -/
theorem change (h : tree.Honest) (hchange : Change tree after) : after.Honest := by
  cases hchange with
  | remove hremove =>
      obtain ⟨place, rfl⟩ := exists_erase_of_remove hremove
      exact h.erase place
  | write hwrite => exact h.write hwrite
  | link hlink => exact h.placed rfl hlink
  | hardLink hlink => exact h.makeHardLink hlink
  | pipe hpipe => exact h.placed rfl hpipe
  | directory hdirectory => exact h.makeBelow hdirectory
  | prune hprune =>
      unfold FileTree.prune at hprune
      split at hprune
      · cases hprune
      · cases hprune
        intro e he
        apply h
        exact (List.mem_filter.mp he).1

end Honest

/-- A usual system is honest about its files. -/
theorem honest_standard : standard.Honest := by
  decide

/-- Whatever is done to the files of a usual system, they are reported as they are. -/
theorem honest_of_changes (hchanges : Relation.ReflTransGen Change standard tree) :
    tree.Honest := by
  induction hchanges with
  | refl => exact honest_standard
  | tail _ hchange ih => exact ih.change hchange

end FileTree

end SerialLock
