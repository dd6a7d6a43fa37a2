import SerialLock.Proofs.LockFile.Interleaving
import SerialLock.Proofs.LockFile.Settled

/-!
# Concurrent readers agree

Readers of one lock file while files are only deleted, by its owner or by anybody: a path leads to
the file that it led to at the start, or nowhere.  So all readers find the same, whatever the order
of their steps, as long as no removal is refused (`readers_agree`).

What holds after each step is one of two invariants, by what the first look would show.  Of a file
that names its owner no reader ever goes on to the removal (`Undisputed`).  An invalid file is
removed by the first reader that gets to it, and from then on the path leads nowhere (`Doomed`).
-/

set_option autoImplicit false

namespace SerialLock

/-! ## Paths that lead nowhere -/

namespace FileTree

variable {tree : FileTree} {path : Path} {place goal : Place} {entry file : Entry}

/-- The path leads to no entry at all. -/
def Gone (tree : FileTree) (path : Path) : Prop :=
  ∀ found, tree.find true path ≠ .ok found

/-- Where a path leads nowhere there is no regular file. -/
theorem Gone.isFile (hgone : tree.Gone path) : tree.isFile path = false := by
  unfold FileTree.isFile
  cases hfind : tree.find true path with
  | error fault => rfl
  | ok found => exact absurd hfind (hgone found)

/-- A path that leads nowhere leads nowhere when one entry more is gone. -/
theorem Gone.erase (hgone : tree.Gone path) (place : Place) : (tree.erase place).Gone path := by
  intro found hfind
  apply hgone found
  exact find_of_find_erase hfind

/-- Once an entry was taken away, a path leads where it led before or nowhere. -/
theorem gone_or_find_erase (tree : FileTree) (place : Place) (path : Path) :
    (tree.erase place).Gone path ∨ (tree.erase place).find true path = tree.find true path := by
  cases hfind : (tree.erase place).find true path with
  | error fault =>
      left
      intro found hfound
      rw [hfind] at hfound
      cases hfound
  | ok found =>
      right
      exact (find_of_find_erase hfind).symm

/-- A path leads nowhere once the entry that it names was taken away. -/
theorem Names.gone_erase_self (h : tree.Names path place entry goal file) :
    (tree.erase place).Gone path := by
  intro found hfind
  have hfollowed := find_of_find_erase hfind
  rw [h.followed, Except.ok.injEq] at hfollowed
  subst hfollowed
  have hfile : (tree.erase place).isFile path = true := isFile_iff.mpr ⟨goal, file, hfind, h.isFile⟩
  rw [h.isFile_erase_self] at hfile
  cases hfile

end FileTree

namespace LockFile

variable {tree : FileTree} {path : Path} {machine : Machine} {trace : List Event} {event : Event}
  {scene after : Scene} {pid : Int}

/-- A look along a path that leads nowhere shows nobody. -/
theorem findingIn_of_gone (hgone : tree.Gone path) :
    findingIn tree path = .owner Pid.noOwner := by
  unfold findingIn
  rw [hgone.isFile]
  rfl

/-- Once an entry was taken away, a look shows what it showed before, or the path leads nowhere. -/
theorem gone_or_findingIn_erase (tree : FileTree) (place : Place) (path : Path) :
    (tree.erase place).Gone path ∨ findingIn (tree.erase place) path = findingIn tree path := by
  apply (FileTree.gone_or_find_erase tree place path).imp_right
  intro hfind
  unfold findingIn FileTree.isFile FileTree.read
  rw [hfind]
  simp only [FileTree.readEntry_erase]

/-- Other processes only delete files. -/
def Deletes (before after : FileTree) : Prop :=
  ∃ path, before.remove path = .ok after

/-- Where others only delete, a step takes away at most one entry. -/
theorem Step.files_cases (hstep : Step Deletes path scene event after) :
    after.machine.files = scene.machine.files ∨
      ∃ place, after.machine.files = scene.machine.files.erase place := by
  cases event with
  | look reader =>
      left
      rw [hstep.of_look.2]
  | removal reader outcome =>
      cases hstep.of_removal.2 with
      | inl hremoved => exact .inr (FileTree.exists_erase_of_remove hremoved.2)
      | inr hrefused =>
          obtain ⟨_, _, _, hfiles⟩ := hrefused
          exact .inl hfiles
  | other =>
      obtain ⟨_, hremove⟩ := hstep.of_other
      exact .inr (FileTree.exists_erase_of_remove hremove)

/-- What is gone stays away. -/
theorem Step.gone (hstep : Step Deletes path scene event after)
    (hgone : scene.machine.files.Gone path) : after.machine.files.Gone path := by
  cases hstep.files_cases with
  | inl hsame =>
      rw [hsame]
      exact hgone
  | inr herased =>
      obtain ⟨place, herased⟩ := herased
      rw [herased]
      exact hgone.erase place

/-- A step keeps the tree honest where others only delete. -/
theorem Step.honest (hstep : Step Deletes path scene event after)
    (hhonest : scene.machine.files.Honest) : after.machine.files.Honest := by
  cases hstep.files_cases with
  | inl hsame =>
      rw [hsame]
      exact hhonest
  | inr herased =>
      obtain ⟨place, herased⟩ := herased
      rw [herased]
      exact hhonest.erase place

/-- A look shows the same before and after a step, unless the path leads nowhere. -/
theorem Step.gone_or_findingIn (hstep : Step Deletes path scene event after) :
    after.machine.files.Gone path ∨
      findingIn after.machine.files path = findingIn scene.machine.files path := by
  cases hstep.files_cases with
  | inl hsame =>
      right
      rw [hsame]
  | inr herased =>
      obtain ⟨place, herased⟩ := herased
      rw [herased]
      exact gone_or_findingIn_erase scene.machine.files place path

/-! ## A file that names its owner -/

/-- As long as nobody deletes it, a look shows the owner, and no reader is about to remove the
file. -/
structure Undisputed (path : Path) (pid : Int) (trace : List Event) (scene : Scene) : Prop where
  unremoved : ∀ reader outcome, Event.removal reader outcome ∉ trace
  spared : ∀ reader, scene.progress reader ≠ .removing
  shown : findingIn scene.machine.files path = .owner pid ∨
    Event.other ∈ trace ∧ scene.machine.files.Gone path
  told : ∀ reader result, scene.progress reader = .finished result →
    result = .ok pid ∨
      result = .ok Pid.noOwner ∧ Event.other ∈ trace ∧ scene.machine.files.Gone path

/-- A file that names its owner is not found invalid. -/
theorem Undisputed.not_invalid (h : Undisputed path pid trace scene) :
    findingIn scene.machine.files path ≠ .invalid := by
  intro hinvalid
  cases h.shown with
  | inl howner => simp [hinvalid] at howner
  | inr hgone => simp [findingIn_of_gone hgone.2] at hinvalid

/-- A step leaves the file to its owner, or has taken it away. -/
theorem Undisputed.step (h : Undisputed path pid trace scene)
    (hstep : Step Deletes path scene event after) :
    Undisputed path pid (trace ++ [event]) after := by
  have hunremoved (reader : Nat) (outcome : Except Fault Unit) :
      Event.removal reader outcome ≠ event := by
    rintro rfl
    exact h.spared reader hstep.of_removal.1
  constructor
  · intro reader outcome hmem
    cases List.mem_append.mp hmem with
    | inl hearlier => exact h.unremoved reader outcome hearlier
    | inr hlast => exact hunremoved reader outcome (List.mem_singleton.mp hlast)
  · intro reader hremoving
    cases hstep.removing_cases hremoving with
    | inl hearlier => exact h.spared reader hearlier
    | inr hlook => exact h.not_invalid hlook.2
  · cases h.shown with
    | inr hgone => exact .inr ⟨by simp [hgone.1], hstep.gone hgone.2⟩
    | inl howner =>
        -- only another process can have taken the file away
        cases event with
        | removal reader outcome => exact absurd rfl (hunremoved reader outcome)
        | look reader =>
            left
            rw [hstep.of_look.2]
            exact howner
        | other =>
            cases hstep.gone_or_findingIn with
            | inl hgone => exact .inr ⟨by simp, hgone⟩
            | inr hsame => exact .inl (hsame.trans howner)
  · intro reader result hfinished
    have hlater (hgone : Event.other ∈ trace ∧ scene.machine.files.Gone path) :
        Event.other ∈ trace ++ [event] ∧ after.machine.files.Gone path :=
      ⟨List.mem_append_left _ hgone.1, hstep.gone hgone.2⟩
    rcases hstep.finished_cases hfinished with hearlier | ⟨-, hlook⟩ | ⟨outcome, hremoval, -⟩
    · exact (h.told reader result hearlier).imp_right (And.imp_right hlater)
    · cases h.shown with
      | inl howner =>
          rw [howner] at hlook
          cases hlook
          exact .inl rfl
      | inr hgone =>
          rw [findingIn_of_gone hgone.2] at hlook
          cases hlook
          exact .inr ⟨rfl, hlater hgone⟩
    · exact absurd hremoval.symm (hunremoved reader outcome)

/-- A run that starts where the file names its owner leaves the file to it, or has taken it away. -/
theorem Undisputed.run (hfinding : findingIn machine.files path = .owner pid)
    (hrun : Run Deletes path (.start machine) trace scene) :
    Undisputed path pid trace scene := by
  induction hrun with
  | nil => exact ⟨by simp, by simp [Scene.start], .inl hfinding, by simp [Scene.start]⟩
  | snoc hrun hstep ih => exact ih.step hstep

/-! ## An invalid file -/

/-- A look shows an invalid file until the path leads nowhere, and readers only finish then. -/
structure Doomed (path : Path) (scene : Scene) : Prop where
  honest : scene.machine.files.Honest
  shown : findingIn scene.machine.files path = .invalid ∨ scene.machine.files.Gone path
  told : ∀ reader result, scene.progress reader = .finished result →
    result = .ok Pid.noOwner ∧ scene.machine.files.Gone path

/-- The removal is refused for no other reason than that the file is missing. -/
def Event.Unhindered : Event → Prop
  | .removal _ (.error fault) => fault.isMissing = true
  | _ => True

/-- A removal that is not hindered leaves the path leading nowhere, and finds nobody. -/
theorem Doomed.removal (h : Doomed path scene) {reader : Nat} {outcome : Except Fault Unit}
    (hstep : Step Deletes path scene (.removal reader outcome) after)
    (hunhindered : (Event.removal reader outcome).Unhindered) :
    after.machine.files.Gone path ∧ discardIn scene.machine.files path = .ok Pid.noOwner := by
  have hdiscard : discardIn scene.machine.files path = .ok Pid.noOwner := by
    cases hstep.of_removal.2 with
    | inl hremoved => simp [discardIn, hremoved.2]
    | inr hrefused =>
        obtain ⟨fault, rfl, hremove, _⟩ := hrefused
        have hmissing : fault.isMissing = true := hunhindered
        simp [discardIn, hremove, hmissing]
  refine ⟨?_, hdiscard⟩
  cases h.shown with
  | inr hgone => exact hstep.gone hgone
  | inl hinvalid =>
      obtain ⟨place, entry, goal, file, hnames⟩ :=
        (findingIn_eq_invalid_iff.mp hinvalid).exists_names
      rcases hnames.remove_eq with ⟨contents, refusal, rfl, hremove⟩ | ⟨-, hremove⟩
      · -- an honest system does not say of a file that is there that it is missing
        have hentry := (FileTree.find_eq_ok_iff.mp hnames.literal).2
        have hthere := h.honest.refusal_not_missing hentry
        simp [discardIn, hremove, hthere] at hdiscard
      · rcases hstep.of_removal.2 with ⟨-, hremoved⟩ | ⟨fault, -, hrefused, -⟩
        · rw [hremove, Except.ok.injEq] at hremoved
          rw [← hremoved]
          exact hnames.gone_erase_self
        · rw [hremove] at hrefused
          cases hrefused

/-- A step that is not hindered leaves the invalid file doomed. -/
theorem Doomed.step (h : Doomed path scene) (hstep : Step Deletes path scene event after)
    (hunhindered : event.Unhindered) : Doomed path after := by
  constructor
  · exact hstep.honest h.honest
  · cases h.shown with
    | inr hgone => exact .inr (hstep.gone hgone)
    | inl hinvalid =>
        apply hstep.gone_or_findingIn.symm.imp_left
        intro hsame
        rw [hsame]
        exact hinvalid
  · intro reader result hfinished
    rcases hstep.finished_cases hfinished with hearlier | ⟨-, hlook⟩ | ⟨outcome, rfl, hdiscard⟩
    · obtain ⟨hresult, hgone⟩ := h.told reader result hearlier
      exact ⟨hresult, hstep.gone hgone⟩
    · cases h.shown with
      | inl hinvalid =>
          rw [hinvalid] at hlook
          cases hlook
      | inr hgone =>
          rw [findingIn_of_gone hgone] at hlook
          cases hlook
          exact ⟨rfl, hstep.gone hgone⟩
    · obtain ⟨hgone, hnobody⟩ := h.removal hstep hunhindered
      rw [hnobody] at hdiscard
      exact ⟨hdiscard.symm, hgone⟩

/-- A run of such steps from an invalid file in an honest tree leaves it doomed. -/
theorem Doomed.run (hhonest : machine.files.Honest)
    (hinvalid : findingIn machine.files path = .invalid)
    (hrun : Run Deletes path (.start machine) trace scene)
    (hunhindered : ∀ event ∈ trace, event.Unhindered) : Doomed path scene := by
  induction hrun with
  | nil => exact ⟨hhonest, .inl hinvalid, by simp [Scene.start]⟩
  | snoc hrun hstep ih =>
      rw [List.forall_mem_append] at hunhindered
      exact (ih hunhindered.1).step hstep (hunhindered.2 _ (by simp))

/-! ## Every reader -/

/-- Any number of readers of one lock file, while files are at most deleted and no removal is
refused but for a missing file.  If the file could be read at the start, no reader fails.  If it was
invalid, every reader finds nobody, and the path leads nowhere once one of them has finished.  If it
named an owner, every reader finds that owner, or nobody after the file was deleted by another
process, and no reader removes it.  And each reader can always finish, by at most two steps. -/
theorem readers_agree (hhonest : machine.files.Honest)
    (hreadable : ∀ fault, machine.files.read path = .error fault →
      machine.files.isFile path = false)
    (hrun : Run Deletes path (.start machine) trace scene)
    (hunhindered : ∀ reader fault, Event.removal reader (.error fault) ∈ trace →
      fault.isMissing = true) :
    (∀ reader failure, scene.progress reader ≠ .finished (.error failure)) ∧
      (machine.files.Invalid path → ∀ reader result,
        scene.progress reader = .finished result →
        result = .ok Pid.noOwner ∧ scene.machine.files.Gone path) ∧
      (∀ pid, machine.files.NamesOwner path pid →
        (∀ reader result, scene.progress reader = .finished result →
          result = .ok pid ∨
            result = .ok Pid.noOwner ∧ .other ∈ trace ∧ scene.machine.files.Gone path) ∧
        ∀ reader outcome, .removal reader outcome ∉ trace) ∧
      ∀ reader, ∃ more last, Run Deletes path scene more last ∧ more.length ≤ 2 ∧
        (∀ event ∈ more, event.actor = some reader) ∧
        ∃ result, last.progress reader = .finished result := by
  have hevents : ∀ event ∈ trace, event.Unhindered := by
    intro event hevent
    match event with
    | .removal reader (.error fault) => exact hunhindered reader fault hevent
    | .removal reader (.ok ()) => trivial
    | .look reader => trivial
    | .other => trivial
  have hundisputed (pid : Int) (hfinding : findingIn machine.files path = .owner pid) :
      Undisputed path pid trace scene := .run hfinding hrun
  have hdoomed (hfinding : findingIn machine.files path = .invalid) : Doomed path scene :=
    .run hhonest hfinding hrun hevents
  refine ⟨?_, ?_, ?_, exists_finish Deletes path scene⟩
  · intro reader failure hfinished
    cases hfinding : findingIn machine.files path with
    | owner pid =>
        have htold := (hundisputed pid hfinding).told reader _ hfinished
        simp at htold
    | invalid =>
        have htold := (hdoomed hfinding).told reader _ hfinished
        simp at htold
    | unreadable fault =>
        obtain ⟨hfile, hread, -⟩ := findingIn_eq_unreadable_iff.mp hfinding
        rw [hreadable fault hread] at hfile
        cases hfile
  · intro hinvalid
    exact (hdoomed (findingIn_eq_invalid_iff.mpr hinvalid)).told
  · intro pid hnamed
    have hfinding := (findingIn_eq_owner_iff hhonest).mpr (.inr hnamed)
    exact ⟨(hundisputed pid hfinding).told, (hundisputed pid hfinding).unremoved⟩

/-- A machine with an invalid lock file. -/
def invalidLock : Machine where
  processes := []
  files :=
    { entries := [([Utf8.ofString "LCK..a"], .file 0)]
      contents := [(0, Utf8.ofString "nobody")]
      workingDirectory := [] }

/-- Two readers look before either of them removes the file.  The second comes too late, which is no
failure. -/
theorem readers_agree_twoReaders :
    let path := Utf8.ofString "/LCK..a"
    ∃ scene,
      Run Deletes path (.start invalidLock)
        [.look 0, .look 1, .removal 0 (.ok ()), .removal 1 (.error .missing)] scene ∧
        scene.progress 0 = .finished (.ok 0) ∧ scene.progress 1 = .finished (.ok 0) ∧
        scene.machine.files.Gone path := by
  intro path
  let looked : Scene := ((Scene.start invalidLock).looked path 0).looked path 1
  let scene : Scene := (looked.removed path 0).removed path 1
  have hlook : Run Deletes path (.start invalidLock) [.look 0, .look 1] looked :=
    .snoc (.single (.looked rfl)) (.looked rfl)
  have hfirst : Step Deletes path looked (.removal 0 (.ok ())) (looked.removed path 0) :=
    .removed rfl
  have hsecond : Step Deletes path (looked.removed path 0) (.removal 1 (.error .missing)) scene :=
    .removed rfl
  have hrun : Run Deletes path (.start invalidLock)
      [.look 0, .look 1, .removal 0 (.ok ()), .removal 1 (.error .missing)] scene :=
    .snoc (.snoc hlook hfirst) hsecond
  have hhonest : invalidLock.files.Honest := by decide
  have hholds : invalidLock.files.Holds path (Utf8.ofString "nobody") := ⟨rfl, rfl⟩
  have hinvalid : invalidLock.files.Invalid path :=
    ⟨_, .file 0, Utf8.ofString "nobody", rfl, rfl, rfl, by decide⟩
  have hunhindered : ∀ reader fault, Event.removal reader (.error fault) ∈
      [Event.look 0, .look 1, .removal 0 (.ok ()), .removal 1 (.error .missing)] →
      fault.isMissing = true := by
    simp [Fault.isMissing, Fault.missing]
  have hagree := readers_agree hhonest (by simp [hholds.read]) hrun hunhindered
  refine ⟨scene, hrun, rfl, rfl, ?_⟩
  exact (hagree.2.1 hinvalid 0 (.ok 0) rfl).2

end LockFile

end SerialLock
