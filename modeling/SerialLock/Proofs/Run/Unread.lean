import SerialLock.Proofs.CommandLine.Moved
import SerialLock.Proofs.Run.Result

/-!
# What a run does not read

Of all commands only the one that tells the states of devices uses settings.  The others do the same
on any system, whatever the options and the environment say about settings (`perform_unread`), and
of the files they see no more than what their operand leads to (`outcome_of_alike`).  So a settings
file may hold anything, unless it is the very file that the operand leads to
(`FileTree.alike_rewrite`).
-/

set_option autoImplicit false

namespace SerialLock

/-! ## Other contents of a file -/

namespace FileTree

/-- Two trees show the same at a path: both have a regular file there or none, which reads alike,
and they refuse alike to take away what the path names. -/
structure Alike (path : Path) (tree other : FileTree) : Prop where
  isFile : other.isFile path = tree.isFile path
  read : other.read path = tree.read path
  refused : ∀ fault, other.remove path = .error fault ↔ tree.remove path = .error fault

variable {tree : FileTree} {number : Nat} {bytes : Bytes} {followLast : Bool} {path : Path}

/-- Other contents of a file leave all entries where they are. -/
theorem entry_rewrite (place : Place) :
    FileTree.entry? (tree.rewrite number bytes) place = tree.entry? place :=
  rfl

/-- Legs of paths lead where they led before. -/
theorem leg_rewrite (here : Place) (names : List Name) :
    (tree.rewrite number bytes).leg followLast here names = tree.leg followLast here names := by
  induction names generalizing here with
  | nil => rfl
  | cons name rest ih => simp only [leg, entry_rewrite, ih]

/-- Walks along paths lead where they led before. -/
theorem walk_rewrite (links : Nat) (here : Place) (names : List Name) :
    (tree.rewrite number bytes).walk followLast links here names =
      tree.walk followLast links here names := by
  induction links generalizing here names with
  | zero =>
      unfold walk
      rw [leg_rewrite]
  | succ links ih =>
      unfold walk
      rw [leg_rewrite]
      cases tree.leg followLast here names with
      | through directory names => exact ih directory names
      | _ => rfl

/-- Paths lead where they led before. -/
theorem find_rewrite (path : Path) :
    (tree.rewrite number bytes).find followLast path = tree.find followLast path := by
  unfold find follow
  simp only [walk_rewrite, entry_rewrite]
  rfl

/-- Every entry but those of the file reads as before. -/
theorem readEntry_rewrite {entry : Entry} (hother : entry ≠ .file number) :
    (tree.rewrite number bytes).readEntry entry = tree.readEntry entry := by
  cases entry with
  | file number' =>
      have hne : (number' == number) = false := by simpa using hother
      unfold readEntry contentsOf rewrite
      simp only
      rw [List.lookup_cons, hne]
      simp only
      rw [lookup_filter_ne, hne]
      rfl
  | _ => rfl

/-- A tree in which a file has other contents shows the same at every path that does not lead to
that file. -/
theorem alike_rewrite (hother : ∀ place, tree.find true path ≠ .ok (place, .file number)) :
    Alike path tree (tree.rewrite number bytes) where
  isFile := by
    unfold FileTree.isFile
    rw [find_rewrite]
  read := by
    unfold FileTree.read
    rw [find_rewrite]
    cases hfind : tree.find true path with
    | error fault => rfl
    | ok found =>
        obtain ⟨place, entry⟩ := found
        apply readEntry_rewrite
        rintro rfl
        exact hother place hfind
  refused := by
    intro fault
    unfold remove
    rw [find_rewrite]
    cases tree.find false path with
    | error fault' => rfl
    | ok found =>
        obtain ⟨place, entry⟩ := found
        cases entry <;> simp

end FileTree

/-- Trees that show the same at a path have the same owner there. -/
theorem LockFile.ownerIn_of_alike {path : Path} {tree other : FileTree}
    (halike : FileTree.Alike path tree other) : ownerIn other path = ownerIn tree path := by
  have hfinding : findingIn other path = findingIn tree path := by
    unfold findingIn
    rw [halike.isFile, halike.read]
  have hdiscard : discardIn other path = discardIn tree path := by
    unfold discardIn
    cases htree : tree.remove path with
    | error fault => rw [(halike.refused fault).mpr htree]
    | ok after =>
        cases hother : other.remove path with
        | ok after' => rfl
        | error fault =>
            rw [(halike.refused fault).mp hother] at htree
            cases htree
  unfold ownerIn
  rw [hfinding, hdiscard]

/-! ## Commands without settings -/

/-- Does the command use the settings of the run? -/
def Command.usesSettings : Command → Bool
  | .status .. => true
  | _ => false

namespace Program

variable {request request' : Request}

/-- On any system, a command without settings is performed alike whatever is said about settings. -/
theorem perform_unread {m : Type → Type} [Monad m] [Host m]
    (hunread : request.command.usesSettings = false) (hsame : request'.command = request.command)
    (setting setting' : Option Bytes) :
    (perform request' setting' : Attempt m Report) = perform request setting := by
  unfold perform
  rw [hsame]
  cases hcommand : request.command with
  | status devices json =>
      rw [hcommand] at hunread
      cases hunread
  | _ => rfl

/-- What a command without settings yields depends on no file but the one that its operand leads
to. -/
theorem resultIn_of_alike {machine machine' : Machine}
    (hunread : request.command.usesSettings = false) (hsame : request'.command = request.command)
    (halike : ∀ path, request.command = .owner path →
      FileTree.Alike path machine.files machine'.files)
    (setting setting' : Option Bytes) :
    resultIn machine' request' setting' = resultIn machine request setting := by
  unfold resultIn
  rw [hsame]
  cases hcommand : request.command with
  | status devices json =>
      rw [hcommand] at hunread
      cases hunread
  | owner path => simp only [LockFile.ownerIn_of_alike (halike path hcommand)]
  | _ => rfl

end Program

/-- A run for a command without settings ends alike where its operand shows the same. -/
theorem Machine.outcome_of_alike {machine machine' : Machine} {request request' : Request}
    (hunread : request.command.usesSettings = false) (hsame : request'.command = request.command)
    (halike : ∀ path, request.command = .owner path →
      FileTree.Alike path machine.files machine'.files)
    (environment environment' : Environment) :
    (machine'.runRequest environment' request').1.outcome =
      (machine.runRequest environment request).1.outcome := by
  rw [runRequest_outcome, runRequest_outcome, Program.attempt_perform, Program.attempt_perform]
  congr 1
  exact @Program.resultIn_of_alike request request' machine.fresh machine'.fresh hunread hsame
    halike _ _

/-! ## Options more -/

namespace CommandLine

/-- The second arguments have one option more that all commands share, on either side of the
command's name. -/
inductive AddsShared (item : Item) : List Bytes → List Bytes → Prop where
  | front {front front' behind : List Bytes} {name : CommandName} (hfront : InFront front)
      (hadds : Adds none item front front') :
      AddsShared item (front ++ Utf8.ofString name.word :: behind)
        (front' ++ Utf8.ofString name.word :: behind)
  | behind {front behind behind' : List Bytes} {name : CommandName} (hfront : InFront front)
      (hadds : Adds (some name) item behind behind') :
      AddsShared item (front ++ Utf8.ofString name.word :: behind)
        (front ++ Utf8.ofString name.word :: behind')

variable {setting : Setting} {value : Path} {arguments arguments' : List Bytes}
  {request request' : Request}

/-- The value of an option is no part of the command. -/
theorem command_put (setting : Setting) (value? : Option Path) (request : Request) :
    (setting.put value? request).command = request.command := by
  cases setting <;> rfl

/-- A value more for an option does not change the command. -/
theorem AddsShared.command_eq (hadds : AddsShared (.given setting value) arguments arguments')
    (hread : read arguments = .ok request) (hread' : read arguments' = .ok request') :
    request'.command = request.command := by
  cases hadds with
  | front hfront hadds =>
      have hmakes := (read_parted_iff hfront).mp hread
      obtain ⟨-, -, other, hother, rfl⟩ :=
        makes_given_front_iff.mp ((read_adds_front_iff hfront hadds).mp hread')
      rw [command_put, hother.unique hmakes]
  | behind hfront hadds =>
      have hmakes := (read_parted_iff hfront).mp hread
      obtain ⟨-, -, other, hother, rfl⟩ :=
        makes_given_behind_iff.mp ((read_adds_behind_iff hfront hadds).mp hread')
      rw [command_put, hother.unique hmakes]

end CommandLine

end SerialLock
