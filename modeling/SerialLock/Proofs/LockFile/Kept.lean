import SerialLock.Proofs.Pid.Contents
import SerialLock.Proofs.Run.Program

/-!
# Which lock files are kept

A lock file that names an owner is never removed, and the owner is the number that it holds.  Every
numeral is such content, whatever its size and the white space around it.  The reader also keeps
contents that start with a numeral beyond 64 bits and go on with anything, although they are no
numeral: reading digits stops where they leave the range, and what follows is never looked at.
-/

set_option autoImplicit false

namespace SerialLock

namespace LockFile

variable {machine : Machine} {path : Path} {contents : Bytes}

/-- Whatever the step that would remove it, a file whose contents name a process is left alone. -/
theorem attempt_ownerWith_of_holds {pid : Int} (hholds : machine.files.Holds path contents)
    (hpid : Pid.ofBytes? contents = some pid)
    (remove : Path → Simulation (Except Fault Unit)) :
    machine.attempt (ownerWith remove path) = (.ok pid, machine) := by
  have hfinding : findingIn machine.files path = .owner pid := by
    rw [findingIn_of_holds hholds]
    simp only [Finding.ofContents, hpid]
  exact attempt_ownerWith_of_owner hfinding remove

/-- An invalid file that is still there after it was read could not be removed, for being missing
already. -/
theorem remove_missing_of_kept {n : Int} (hinvalid : machine.files.Invalid path)
    (howner : ownerIn machine.files path = .ok n)
    (hkept : (treeAfter machine.files path).isFile path = true) :
    n = Pid.noOwner ∧
      ∃ fault, machine.files.remove path = .error fault ∧ fault.isMissing = true := by
  obtain ⟨place, entry, goal, file, hnames⟩ := hinvalid.exists_names
  have hfinding := findingIn_eq_invalid_iff.mpr hinvalid
  unfold ownerIn at howner
  unfold treeAfter at hkept
  rw [hfinding] at howner hkept
  rcases discardIn_cases machine.files path with
    ⟨after, hremove, _⟩ | ⟨fault, hremove, hmissing, hdiscard⟩ | ⟨fault, _, _, hdiscard⟩
  · -- the path leads nowhere once the entry that it names is gone
    rcases hnames.remove_eq with ⟨_, _, _, hrefused⟩ | ⟨_, herased⟩
    · rw [hremove] at hrefused
      cases hrefused
    · rw [herased] at hkept
      simp only [hnames.isFile_erase_self] at hkept
      cases hkept
  · simp only [hdiscard, Except.ok.injEq] at howner
    exact ⟨howner.symm, fault, hremove, hmissing⟩
  · simp [hdiscard] at howner

/-- The owner of a lock file is a number of 64 bits. -/
theorem mem_of_ownerIn {tree : FileTree} {pid : Int} (howner : ownerIn tree path = .ok pid) :
    Pid.least ≤ pid ∧ pid ≤ Pid.greatest := by
  have hnobody : Pid.least ≤ Pid.noOwner ∧ Pid.noOwner ≤ Pid.greatest := by decide
  unfold ownerIn at howner
  cases hfinding : findingIn tree path with
  | unreadable fault => simp [hfinding] at howner
  | invalid =>
      simp only [hfinding] at howner
      rcases discardIn_cases tree path with
        ⟨_, _, hdiscard⟩ | ⟨_, _, _, hdiscard⟩ | ⟨_, _, _, hdiscard⟩
      · rw [hdiscard, Except.ok.injEq] at howner
        exact howner ▸ hnobody
      · rw [hdiscard, Except.ok.injEq] at howner
        exact howner ▸ hnobody
      · rw [hdiscard] at howner
        cases howner
  | owner pid' =>
      simp only [hfinding, Except.ok.injEq] at howner
      subst howner
      rcases findingIn_owner_cases hfinding with rfl | ⟨contents, _, hpid⟩
      · exact hnobody
      · exact Pid.mem_of_ofBytes? hpid

/-- When a lock file is kept with an owner: if it encodes a numeral with white space around it,
whose value the owner is; if it encodes a text that starts with a numeral beyond 64 bits and goes on
with anything; or if it names nobody and the system says that it is missing when it is removed. -/
theorem owner_keeps_iff {n : Int} (hholds : machine.files.Holds path contents) :
    ((machine.attempt (owner path)).1 = .ok n ∧
        (machine.attempt (owner path)).2.files.isFile path = true) ↔
      (∃ (text : List Char) (numeral : Pid.Numeral) (rest : List Char),
        contents = Utf8.encode text ∧ Text.trim text = numeral.text ++ rest ∧
          n = Pid.clamp numeral.value ∧ (rest = [] ∨ Pid.Exceeds numeral.value)) ∨
      (n = Pid.noOwner ∧ Pid.ofBytes? contents = none ∧
        ∃ fault, machine.files.remove path = .error fault ∧ fault.isMissing = true) := by
  rw [← Pid.ofBytes?_eq_some_iff]
  have hfinding := findingIn_of_holds hholds
  cases hpid : Pid.ofBytes? contents with
  | some pid =>
      have hrun := attempt_ownerWith_of_holds hholds hpid Host.remove
      unfold owner
      rw [hrun]
      simp [hholds.isFile]
  | none =>
      have hinvalid : machine.files.Invalid path := by
        rw [← findingIn_eq_invalid_iff, hfinding]
        simp only [Finding.ofContents, hpid]
      rw [attempt_owner]
      constructor
      · rintro ⟨howner, hkept⟩
        obtain ⟨hn, hmissing⟩ := remove_missing_of_kept hinvalid howner hkept
        exact .inr ⟨hn, rfl, hmissing⟩
      · rintro (hsome | ⟨rfl, -, fault, hremove, hmissing⟩)
        · cases hsome
        · rw [← findingIn_eq_invalid_iff] at hinvalid
          unfold ownerIn discardIn treeAfter
          simp [hinvalid, hremove, hmissing, hholds.isFile]

/-- A file whose contents start with a numeral beyond 64 bits, but are no numeral. -/
def trailingGarbage : Machine where
  processes := []
  files :=
    { entries := [([Utf8.ofString "LCK..a"], .file 0)]
      contents := [(0, Utf8.ofString "99999999999999999999x")]
      workingDirectory := [] }

/-- The contents are no numeral, and yet the file is kept, with the greatest number as its owner. -/
theorem owner_keeps_trailingGarbage :
    trailingGarbage.files.Holds (Utf8.ofString "/LCK..a") (Utf8.ofString "99999999999999999999x") ∧
      (∀ numeral : Pid.Numeral, numeral.text ≠ "99999999999999999999x".toList) ∧
      (trailingGarbage.attempt (owner (Utf8.ofString "/LCK..a"))).1 = .ok Pid.greatest ∧
      (trailingGarbage.attempt (owner (Utf8.ofString "/LCK..a"))).2.files.isFile
        (Utf8.ofString "/LCK..a") = true := by
  have hholds : trailingGarbage.files.Holds (Utf8.ofString "/LCK..a")
      (Utf8.ofString "99999999999999999999x") := ⟨rfl, rfl⟩
  let numeral : Pid.Numeral :=
    ⟨.none, List.replicate 20 '9', by decide, fun c hc => List.eq_of_mem_replicate hc ▸ rfl⟩
  refine ⟨hholds, ?_, (owner_keeps_iff hholds).mpr (.inl ⟨"99999999999999999999x".toList, numeral,
    ['x'], rfl, by decide, by decide, .inr (.inr (by decide))⟩)⟩
  intro numeral htext
  have hmem : 'x' ∈ numeral.text := by
    rw [htext]
    decide
  rcases List.mem_append.mp hmem with hsign | hdigit
  · cases hsign' : numeral.sign <;> simp [hsign', Pid.Sign.text] at hsign
  · cases numeral.decimal 'x' hdigit

/-! ## Numerals are kept -/

/-- A lock file that holds a numeral, with any white space around it, is read as the number that the
numeral spells, within 64 bits, and left alone whatever the step that would remove it.  So every
number of 64 bits is read back from what is written for it with spaces or zeros in front, and from
the line that tells an owner. -/
theorem owner_of_numeral :
    (∀ (machine : Machine) (path : Path) (before after : List Char) (numeral : Pid.Numeral)
      (remove : Path → Simulation (Except Fault Unit)),
      (∀ c ∈ before, Text.isBlank c = true) → (∀ c ∈ after, Text.isBlank c = true) →
      machine.files.Holds path (Utf8.encode (before ++ numeral.text ++ after)) →
      machine.attempt (ownerWith remove path) = (.ok (Pid.clamp numeral.value), machine)) ∧
    (∀ (machine : Machine) (path : Path) (spaces zeros : Nat) (z : Int)
      (remove : Path → Simulation (Except Fault Unit)),
      Pid.least ≤ z → z ≤ Pid.greatest →
      machine.files.Holds path (Utf8.encode (Pid.padded spaces zeros z)) →
      machine.attempt (ownerWith remove path) = (.ok z, machine)) ∧
    (∀ (machine after : Machine) (path : Path) (report : Report),
      machine.attempt (Program.tellOwner path) = (.ok report, after) →
      ∃ pid, (machine.attempt (owner path)).1 = .ok pid ∧
        ∀ (machine' : Machine) (path' : Path) (remove : Path → Simulation (Except Fault Unit)),
          machine'.files.Holds path' (Utf8.ofString report.output) →
          machine'.attempt (ownerWith remove path') = (.ok pid, machine')) := by
  refine ⟨?_, ?_, ?_⟩
  · intro machine path before after numeral remove hbefore hafter hholds
    exact attempt_ownerWith_of_holds hholds (Pid.ofBytes?_numeral numeral hbefore hafter) remove
  · intro machine path spaces zeros z remove hleast hgreatest hholds
    have hpid := Pid.ofBytes?_padded spaces zeros hleast hgreatest
    exact attempt_ownerWith_of_holds hholds hpid remove
  · intro machine after path report hrun
    obtain ⟨log, htold⟩ := Program.attempt_tellOwner machine path
    rw [hrun, Prod.mk.injEq] at htold
    rw [attempt_owner]
    cases howner : ownerIn machine.files path with
    | error failure =>
        rw [howner] at htold
        cases htold.1
    | ok pid =>
        rw [howner] at htold
        cases htold.1
        refine ⟨pid, rfl, ?_⟩
        intro machine' path' remove hholds
        obtain ⟨hleast, hgreatest⟩ := mem_of_ownerIn howner
        have hline : Utf8.ofString s!"{pid}\n" = Utf8.encode (Pid.padded 0 0 pid) := by
          unfold Utf8.ofString Pid.padded
          rw [Pid.Numeral.text_ofInt_zero, String.toList_append]
          rfl
        rw [hline] at hholds
        exact attempt_ownerWith_of_holds hholds (Pid.ofBytes?_padded 0 0 hleast hgreatest) remove

/-- A file that holds a negative number with zeros in front, between wide blanks. -/
def wideBlanks : Machine where
  processes := []
  files :=
    { entries := [([Utf8.ofString "LCK..a"], .file 0)]
      contents := [(0, Utf8.ofString "\u3000-007\u2028\n")]
      workingDirectory := [] }

/-- The sign, the zeros and the wide blanks make no difference to the number that is read. -/
theorem owner_of_numeral_wideBlanks :
    wideBlanks.attempt (owner (Utf8.ofString "/LCK..a")) = (.ok (-7), wideBlanks) := by
  let numeral : Pid.Numeral := ⟨.minus, ['0', '0', '7'], by simp, by simp [Char.isDigit]⟩
  exact owner_of_numeral.1 wideBlanks (Utf8.ofString "/LCK..a") ['\u3000'] ['\u2028', '\n']
    numeral Host.remove (by simp [Text.isBlank]) (by simp [Text.isBlank]) ⟨rfl, rfl⟩

end LockFile

end SerialLock
