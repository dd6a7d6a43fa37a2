import Mathlib.Logic.Function.Basic
import SerialLock.Proofs.LockFile.Spared

/-!
# Readers of one lock file among other processes

Reading a lock file takes two steps: a look, and the removal of the file if the look found it
invalid.  Any number of readers take these steps in any order, and other processes change the tree
of files in between (`Step`, `Run`).  What others may do is a parameter.

A reader that is not disturbed between its steps reads the lock file as `owner` does
(`exists_run_owner`), and in any scene each reader can finish by at most two steps of its own
(`exists_finish`).
-/

set_option autoImplicit false

namespace SerialLock.LockFile

/-- How far a reader of a lock file has come. -/
inductive Progress where
  | ready
  /-- The reader found the file invalid and is about to remove it. -/
  | removing
  | finished (result : Except Failure Int)

/-- Where a look leaves a reader, by what it shows. -/
def Progress.after (path : Path) : Finding → Progress
  | .owner pid => .finished (.ok pid)
  | .invalid => .removing
  | .unreadable fault => .finished (.error (.lockFileUnread path fault))

/-- A machine with the readers of a lock file on it, each under its number. -/
structure Scene where
  machine : Machine
  progress : Nat → Progress

/-- The scene in which no reader has looked yet. -/
def Scene.start (machine : Machine) : Scene :=
  ⟨machine, fun _ => .ready⟩

/-- What happens from one scene to the next. -/
inductive Event where
  | look (reader : Nat)
  | removal (reader : Nat) (outcome : Except Fault Unit)
  /-- A process that is no reader changes the files. -/
  | other

/-- The reader that makes the event happen, if it is one. -/
def Event.actor : Event → Option Nat
  | .look reader => some reader
  | .removal reader _ => some reader
  | .other => none

/-- One step of a reader of the lock file, or of another process, which may change the files as
`others` says. -/
inductive Step (others : FileTree → FileTree → Prop) (path : Path) :
    Scene → Event → Scene → Prop where
  | look {scene : Scene} {reader : Nat} {finding : Finding} {machine : Machine}
      (hready : scene.progress reader = .ready)
      (hlook : (LockFile.look path : Simulation Finding).run scene.machine = (finding, machine)) :
      Step others path scene (.look reader)
        ⟨machine, Function.update scene.progress reader (.after path finding)⟩
  | removal {scene : Scene} {reader : Nat} {result : Except Failure Int} {machine : Machine}
      (hremoving : scene.progress reader = .removing)
      (hdiscard : scene.machine.attempt (discard Host.remove path) = (result, machine)) :
      Step others path scene (.removal reader (scene.machine.remove path).1)
        ⟨machine, Function.update scene.progress reader (.finished result)⟩
  | other {scene : Scene} {files : FileTree} (hothers : others scene.machine.files files) :
      Step others path scene .other { scene with machine := { scene.machine with files } }

/-- The events of a run lead from the first scene to the last. -/
inductive Run (others : FileTree → FileTree → Prop) (path : Path) (first : Scene) :
    List Event → Scene → Prop where
  | nil : Run others path first [] first
  | snoc {trace : List Event} {event : Event} {middle last : Scene}
      (hrun : Run others path first trace middle) (hstep : Step others path middle event last) :
      Run others path first (trace ++ [event]) last

variable {others : FileTree → FileTree → Prop} {path : Path} {scene after : Scene} {event : Event}
  {reader : Nat}

/-! ## What a step does -/

namespace Step

/-- A look is taken by a reader that is ready, and changes no file. -/
theorem of_look (hstep : Step others path scene (.look reader) after) :
    scene.progress reader = .ready ∧ after.machine = scene.machine := by
  cases hstep with
  | look hready hlook =>
      rw [run_look, Prod.mk.injEq] at hlook
      exact ⟨hready, hlook.2.symm⟩

/-- A removal is made by a reader that found the file invalid.  It takes the named entry away or is
refused. -/
theorem of_removal {outcome : Except Fault Unit}
    (hstep : Step others path scene (.removal reader outcome) after) :
    scene.progress reader = .removing ∧
      ((outcome = .ok () ∧ scene.machine.files.remove path = .ok after.machine.files) ∨
        ∃ fault, outcome = .error fault ∧ scene.machine.files.remove path = .error fault ∧
          after.machine.files = scene.machine.files) := by
  cases hstep with
  | removal hremoving hdiscard =>
      rw [attempt_discard, Prod.mk.injEq] at hdiscard
      obtain ⟨-, rfl⟩ := hdiscard
      refine ⟨hremoving, ?_⟩
      simp only [Machine.remove, Machine.told_files]
      cases hremove : scene.machine.files.remove path with
      | ok files => exact .inl ⟨rfl, rfl⟩
      | error fault => exact .inr ⟨fault, rfl, rfl, rfl⟩

/-- A step of another process changes the files as others do. -/
theorem of_other (hstep : Step others path scene .other after) :
    others scene.machine.files after.machine.files := by
  cases hstep with
  | other hothers => exact hothers

/-- A reader gets on by its own steps only: by a look, as that shows, or by its removal. -/
theorem progress_cases (hstep : Step others path scene event after) (reader : Nat) :
    after.progress reader = scene.progress reader ∨
      (event = .look reader ∧
        after.progress reader = .after path (findingIn scene.machine.files path)) ∨
      ∃ outcome, event = .removal reader outcome ∧
        after.progress reader = .finished (discardIn scene.machine.files path) := by
  cases hstep with
  | other hothers => exact .inl rfl
  | @look actor finding machine _ hlook =>
      rw [run_look, Prod.mk.injEq] at hlook
      obtain ⟨rfl, -⟩ := hlook
      by_cases hactor : reader = actor
      · subst hactor
        exact .inr (.inl ⟨rfl, Function.update_self ..⟩)
      · exact .inl (Function.update_of_ne hactor ..)
  | @removal actor result machine _ hdiscard =>
      rw [attempt_discard, Prod.mk.injEq] at hdiscard
      obtain ⟨rfl, -⟩ := hdiscard
      by_cases hactor : reader = actor
      · subst hactor
        exact .inr (.inr ⟨_, rfl, Function.update_self ..⟩)
      · exact .inl (Function.update_of_ne hactor ..)

/-- A reader comes to remove the file by a look at an invalid one only. -/
theorem removing_cases (hstep : Step others path scene event after)
    (hremoving : after.progress reader = .removing) :
    scene.progress reader = .removing ∨
      event = .look reader ∧ findingIn scene.machine.files path = .invalid := by
  rcases hstep.progress_cases reader with hsame | ⟨rfl, hlook⟩ | ⟨outcome, -, hremoval⟩
  · exact .inl (hsame.symm.trans hremoving)
  · rw [hlook] at hremoving
    refine .inr ⟨rfl, ?_⟩
    cases hfinding : findingIn scene.machine.files path with
    | invalid => rfl
    | owner pid => simp [hfinding, Progress.after] at hremoving
    | unreadable fault => simp [hfinding, Progress.after] at hremoving
  · rw [hremoval] at hremoving
    cases hremoving

/-- A reader finishes by a look that leaves nothing to do, or by its removal. -/
theorem finished_cases {result : Except Failure Int} (hstep : Step others path scene event after)
    (hfinished : after.progress reader = .finished result) :
    scene.progress reader = .finished result ∨
      (event = .look reader ∧
        .after path (findingIn scene.machine.files path) = Progress.finished result) ∨
      ∃ outcome, event = .removal reader outcome ∧
        discardIn scene.machine.files path = result := by
  rcases hstep.progress_cases reader with hsame | ⟨rfl, hlook⟩ | ⟨outcome, rfl, hremoval⟩
  · exact .inl (hsame.symm.trans hfinished)
  · exact .inr (.inl ⟨rfl, hlook.symm.trans hfinished⟩)
  · rw [hremoval, Progress.finished.injEq] at hfinished
    exact .inr (.inr ⟨outcome, rfl, hfinished⟩)

end Step

/-! ## Runs -/

/-- One step is a run. -/
theorem Run.single (hstep : Step others path scene event after) :
    Run others path scene [event] after :=
  .snoc .nil hstep

/-- The scene after a reader has looked. -/
def Scene.looked (scene : Scene) (path : Path) (reader : Nat) : Scene :=
  ⟨scene.machine, Function.update scene.progress reader
    (.after path (findingIn scene.machine.files path))⟩

/-- The scene after a reader has removed the file, or tried to. -/
def Scene.removed (scene : Scene) (path : Path) (reader : Nat) : Scene :=
  ⟨(scene.machine.attempt (discard Host.remove path)).2, Function.update scene.progress reader
    (.finished (scene.machine.attempt (discard Host.remove path)).1)⟩

/-- A reader that is ready can look. -/
theorem Step.looked (hready : scene.progress reader = .ready) :
    Step others path scene (.look reader) (scene.looked path reader) :=
  .look hready (run_look scene.machine path)

/-- A reader that found the file invalid can go on to its removal. -/
theorem Step.removed (hremoving : scene.progress reader = .removing) :
    Step others path scene (.removal reader (scene.machine.remove path).1)
      (scene.removed path reader) :=
  .removal hremoving rfl

/-- A look leaves a reader where what it shows takes it. -/
@[simp] theorem Scene.looked_progress (scene : Scene) (path : Path) (reader : Nat) :
    (scene.looked path reader).progress reader =
      .after path (findingIn scene.machine.files path) := by
  apply Function.update_self

/-- A removal ends the call of a reader with what discarding yields. -/
@[simp] theorem Scene.removed_progress (scene : Scene) (path : Path) (reader : Nat) :
    (scene.removed path reader).progress reader =
      .finished (scene.machine.attempt (discard Host.remove path)).1 := by
  apply Function.update_self

/-- A reader that is not disturbed between its steps reads the lock file as one that is alone. -/
theorem exists_run_owner (others : FileTree → FileTree → Prop) (path : Path)
    (hready : scene.progress reader = .ready) :
    ∃ trace last, Run others path scene trace last ∧ trace.length ≤ 2 ∧
      (∀ event ∈ trace, event.actor = some reader) ∧
      last.machine = (scene.machine.attempt (owner path)).2 ∧
      last.progress reader = .finished (scene.machine.attempt (owner path)).1 := by
  have hlook : Run others path scene [.look reader] (scene.looked path reader) :=
    .single (.looked hready)
  have hprogress := scene.looked_progress path reader
  unfold owner
  rw [attempt_ownerWith]
  cases hfinding : findingIn scene.machine.files path with
  | owner pid =>
      rw [hfinding] at hprogress
      exact ⟨_, _, hlook, by simp, by simp [Event.actor], rfl, hprogress⟩
  | unreadable fault =>
      rw [hfinding] at hprogress
      exact ⟨_, _, hlook, by simp, by simp [Event.actor], rfl, hprogress⟩
  | invalid =>
      rw [hfinding] at hprogress
      refine ⟨_, (scene.looked path reader).removed path reader, .snoc hlook (.removed hprogress),
        by simp, by simp [Event.actor], rfl, ?_⟩
      apply Scene.removed_progress

/-- Every reader can finish, by at most two steps of its own. -/
theorem exists_finish (others : FileTree → FileTree → Prop) (path : Path) (scene : Scene)
    (reader : Nat) :
    ∃ trace last, Run others path scene trace last ∧ trace.length ≤ 2 ∧
      (∀ event ∈ trace, event.actor = some reader) ∧
      ∃ result, last.progress reader = .finished result := by
  cases hprogress : scene.progress reader with
  | ready =>
      obtain ⟨trace, last, hrun, hlength, hactor, _, hfinished⟩ :=
        exists_run_owner others path hprogress
      exact ⟨trace, last, hrun, hlength, hactor, _, hfinished⟩
  | removing =>
      exact ⟨_, scene.removed path reader, .single (.removed hprogress), by simp,
        by simp [Event.actor], _, scene.removed_progress path reader⟩
  | finished result => exact ⟨[], scene, .nil, by simp, by simp, result, hprogress⟩

end SerialLock.LockFile
