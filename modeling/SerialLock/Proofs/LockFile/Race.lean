import SerialLock.Proofs.LockFile.Interleaving
import SerialLock.Proofs.LockFile.Settled

/-!
# The race for an empty lock file

A reader decides by what it read, and removes what stands there later.  So it spares a lock whose
file named the owner when the reader looked, but not one whose file was invalid then: an owner that
creates its file empty, and writes its number after a reader has looked, loses the lock
(`not_spares_acquires`).  This is the only way to lose one: whenever a file that names an owner is
removed, its reader had seen it invalid, and another process turned it into what it is after that
look (`removal_of_owned`).
-/

set_option autoImplicit false

namespace SerialLock.LockFile

/-- No reader ever removes a file that names an owner at that moment, whatever machine the readers
start on and whatever steps are taken. -/
def Spares (others : FileTree → FileTree → Prop) (path : Path) : Prop :=
  ∀ (machine : Machine) (trace : List Event) (scene after : Scene) (reader : Nat) (pid : Int),
    Run others path (.start machine) trace scene →
    Step others path scene (.removal reader (.ok ())) after →
    ¬scene.machine.files.NamesOwner path pid

/-- In the run from the first scene to the last, the reader looked at an invalid file, and after
that another process turned it into one that names an owner. -/
inductive Overtaken (others : FileTree → FileTree → Prop) (path : Path) (reader : Nat)
    (first : Scene) : List Event → Scene → Prop where
  | intro {before between rest : List Event} {looked resumed turning turned last : Scene}
      {pid : Int}
      (hbefore : Run others path first before looked)
      (hinvalid : looked.machine.files.Invalid path)
      (hlook : Step others path looked (.look reader) resumed)
      (hbetween : Run others path resumed between turning)
      (hnobody : ∀ pid, ¬turning.machine.files.NamesOwner path pid)
      (hturn : Step others path turning .other turned)
      (howned : turned.machine.files.NamesOwner path pid)
      (hrest : Run others path turned rest last) :
      Overtaken others path reader first
        (before ++ .look reader :: (between ++ .other :: rest)) last

variable {others : FileTree → FileTree → Prop} {path : Path} {machine : Machine}
  {trace : List Event} {event : Event} {first scene after : Scene} {reader : Nat} {pid : Int}

/-! ## What readers do to a file -/

/-- A file that names an owner after a step of a reader named it before. -/
theorem namesOwner_of_step (hstep : Step others path scene event after) (hevent : event ≠ .other)
    (howned : after.machine.files.NamesOwner path pid) :
    scene.machine.files.NamesOwner path pid := by
  cases event with
  | other => exact absurd rfl hevent
  | look reader =>
      rw [hstep.of_look.2] at howned
      exact howned
  | removal reader outcome =>
      cases hstep.of_removal.2 with
      | inl hremoved =>
          obtain ⟨place, herased⟩ := FileTree.exists_erase_of_remove hremoved.2
          rw [herased] at howned
          obtain ⟨contents, hholds, hpid⟩ := howned
          exact ⟨contents, hholds.of_erase, hpid⟩
      | inr hrefused =>
          obtain ⟨fault, _, _, hfiles⟩ := hrefused
          rw [hfiles] at howned
          exact howned

/-- An invalid file names no owner. -/
theorem not_namesOwner_of_invalid (hinvalid : scene.machine.files.Invalid path) (pid : Int) :
    ¬scene.machine.files.NamesOwner path pid := by
  intro howned
  obtain ⟨contents, hholds, hpid⟩ := howned
  have hfinding := findingIn_eq_invalid_iff.mpr hinvalid
  rw [findingIn_of_holds hholds] at hfinding
  simp [Finding.ofContents, hpid] at hfinding

/-! ## What must have happened -/

/-- A reader that is about to remove the file has looked at it and found it invalid. -/
theorem Run.exists_look (hrun : Run others path (.start machine) trace scene)
    (hremoving : scene.progress reader = .removing) :
    ∃ before looked resumed between, trace = before ++ .look reader :: between ∧
      Run others path (.start machine) before looked ∧ looked.machine.files.Invalid path ∧
      Step others path looked (.look reader) resumed ∧ Run others path resumed between scene := by
  induction hrun with
  | nil => simp [Scene.start] at hremoving
  | @snoc trace event middle last hrun hstep ih =>
      cases hstep.removing_cases hremoving with
      | inl hearlier =>
          obtain ⟨before, looked, resumed, between, rfl, hbefore, hinvalid, hlook, hbetween⟩ :=
            ih hearlier
          refine ⟨before, looked, resumed, between ++ [event], by simp, hbefore, hinvalid, hlook,
            ?_⟩
          exact .snoc hbetween hstep
      | inr hlook =>
          obtain ⟨rfl, hfinding⟩ := hlook
          exact ⟨trace, middle, last, [], rfl, hrun, findingIn_eq_invalid_iff.mp hfinding, hstep,
            .nil⟩

/-- A file that comes to name an owner was turned into such a file by another process. -/
theorem Run.exists_turn (hrun : Run others path first trace scene)
    (hnobody : ∀ pid, ¬first.machine.files.NamesOwner path pid)
    (howned : scene.machine.files.NamesOwner path pid) :
    ∃ before turning turned rest pid', trace = before ++ .other :: rest ∧
      Run others path first before turning ∧
      (∀ pid, ¬turning.machine.files.NamesOwner path pid) ∧
      Step others path turning .other turned ∧ turned.machine.files.NamesOwner path pid' ∧
      Run others path turned rest scene := by
  induction hrun generalizing pid with
  | nil => exact absurd howned (hnobody pid)
  | @snoc trace event middle last hrun hstep ih =>
      by_cases hmiddle : ∃ pid, middle.machine.files.NamesOwner path pid
      · obtain ⟨pid', howned'⟩ := hmiddle
        obtain ⟨before, turning, turned, rest, pid'', rfl, hbefore, hturning, hturn, hturned,
          hrest⟩ := ih howned'
        exact ⟨before, turning, turned, rest ++ [event], pid'', by simp, hbefore, hturning, hturn,
          hturned, .snoc hrest hstep⟩
      · -- the last step is the one that turned the file
        obtain rfl : event = .other := by
          by_contra hevent
          exact hmiddle ⟨pid, namesOwner_of_step hstep hevent howned⟩
        refine ⟨trace, middle, last, [], pid, rfl, hrun, ?_, hstep, howned, .nil⟩
        intro pid' howned'
        exact hmiddle ⟨pid', howned'⟩

/-- A reader only removes a file that names an owner if it had looked at an invalid file, and after
that look another process turned this into one that names an owner. -/
theorem removal_of_owned (hrun : Run others path (.start machine) trace scene)
    (hstep : Step others path scene (.removal reader (.ok ())) after)
    (howned : scene.machine.files.NamesOwner path pid) :
    Overtaken others path reader (.start machine) trace scene := by
  obtain ⟨before, looked, resumed, between, rfl, hbefore, hinvalid, hlook, hbetween⟩ :=
    hrun.exists_look hstep.of_removal.1
  have hresumed : resumed.machine = looked.machine := hlook.of_look.2
  have hnobody (pid' : Int) : ¬resumed.machine.files.NamesOwner path pid' := by
    rw [hresumed]
    exact not_namesOwner_of_invalid hinvalid pid'
  obtain ⟨quiet, turning, turned, rest, pid', rfl, hquiet, hturning, hturn, hturned, hrest⟩ :=
    hbetween.exists_turn hnobody howned
  exact .intro hbefore hinvalid hlook hquiet hturning hturn hturned hrest

/-! ## The race -/

/-- One step of a process that takes a lock as is usual: it creates the file, empty, and then writes
its number into it. -/
inductive Acquires (path : Path) (pid : Int) : FileTree → FileTree → Prop where
  | create {tree after : FileTree} (hvacant : tree.isFile path = false)
      (hwrite : tree.write path [] = .ok after) : Acquires path pid tree after
  | number {tree after : FileTree} (hfile : tree.isFile path = true)
      (hwrite : tree.write path (Utf8.ofString s!"{pid}\n") = .ok after) :
      Acquires path pid tree after

/-- A machine without a file. -/
def bareMachine : Machine where
  processes := []
  files := { entries := [], contents := [], workingDirectory := [] }

/-- The lock file is created, a reader looks, the number is written, and the reader removes the
file. -/
theorem exists_race :
    let path := Utf8.ofString "/LCK..a"
    ∃ scene after,
      Run (Acquires path 1234) path (.start bareMachine) [.other, .look 0, .other] scene ∧
        Step (Acquires path 1234) path scene (.removal 0 (.ok ())) after ∧
        scene.machine.files.NamesOwner path 1234 ∧
        after.machine.files.isFile path = false := by
  intro path
  let created : FileTree :=
    { entries := [([Utf8.ofString "LCK..a"], .file 0)], contents := [(0, [])],
      workingDirectory := [] }
  let written : FileTree :=
    { created with contents := [(0, Utf8.ofString "1234\n")] }
  have hcreate : Acquires path 1234 bareMachine.files created := .create rfl rfl
  have hnumber : Acquires path 1234 created written := .number rfl rfl
  let started : Scene := .start { bareMachine with files := created }
  let looked : Scene := started.looked path 0
  let scene : Scene := { looked with machine := { bareMachine with files := written } }
  have hcreated : Step (Acquires path 1234) path (.start bareMachine) .other started :=
    .other hcreate
  have hwritten : Step (Acquires path 1234) path looked .other scene := .other hnumber
  have hremoval : Step (Acquires path 1234) path scene (.removal 0 (.ok ()))
      (scene.removed path 0) := .removed rfl
  refine ⟨scene, scene.removed path 0, ?_, hremoval, ?_, rfl⟩
  · exact .snoc (.snoc (.single hcreated) (.looked rfl)) hwritten
  · exact ⟨Utf8.ofString "1234\n", ⟨rfl, rfl⟩, by decide⟩

/-- A process that creates its lock file and then writes its number can lose the lock to a
reader. -/
theorem not_spares_acquires : ¬Spares (Acquires (Utf8.ofString "/LCK..a") 1234)
    (Utf8.ofString "/LCK..a") := by
  intro hspares
  obtain ⟨scene, after, hrun, hremoval, howned, _⟩ := exists_race
  apply hspares bareMachine _ scene after 0 1234 hrun hremoval
  exact howned

/-- A reader that looks between the creation of a file and the writing of its number removes a file
that names an owner. -/
theorem removal_of_owned_race :
    let path := Utf8.ofString "/LCK..a"
    ∃ scene after,
      Run (Acquires path 1234) path (.start bareMachine) [.other, .look 0, .other] scene ∧
        Step (Acquires path 1234) path scene (.removal 0 (.ok ())) after ∧
        scene.machine.files.NamesOwner path 1234 ∧
        Overtaken (Acquires path 1234) path 0 (.start bareMachine)
          [.other, .look 0, .other] scene := by
  obtain ⟨scene, after, hrun, hremoval, howned, _⟩ := exists_race
  exact ⟨scene, after, hrun, hremoval, howned, removal_of_owned hrun hremoval howned⟩

end SerialLock.LockFile
