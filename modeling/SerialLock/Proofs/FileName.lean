import SerialLock.Proofs.Segments

/-!
# The name of a path

The reference is short: cut the path at `'/'`, drop the empty segments and the `.` segments, and
take the last one that is left (`lastSegment?`).  The program walks over the components from the end
of the path, with special cases for the root and for a `.` at the start.  The walk stops at the
component of that last segment (`walkBack_eq`), so the name that it finds is the last segment unless
that is `..` (`fileName?_eq`).
-/

set_option autoImplicit false

namespace SerialLock.Path

/-! ## The last segment -/

/-- The last segment of a text that is neither empty nor `.`. -/
def lastSegment? (text : List Char) : Option (List Char) :=
  ((text.splitOn '/').filter fun segment => segment != [] && segment != ['.']).getLast?

/-- Cutting a text at a separator splits it there. -/
theorem cut_eq_splitOn (separator : Char) (text : List Char) :
    cut separator text = text.splitOn separator := by
  induction text with
  | nil => rfl
  | cons c text ih =>
      rw [List.splitOn_cons_eq_if_modifyHead, ← ih]
      by_cases hc : c = separator
      · subst hc
        rw [cut_separator]
        simp
      · obtain ⟨first, others, htext, hcut⟩ := cut_other hc text
        rw [hcut, htext]
        simp [hc]

/-- The last segment is the last piece that names something. -/
theorem lastSegment?_eq (text : List Char) :
    lastSegment? text =
      ((cut '/' text).filter fun segment => segment != [] && segment != ['.']).getLast? := by
  unfold lastSegment?
  rw [cut_eq_splitOn]

/-- What stands before a separator matters only if nothing is named behind it. -/
theorem lastSegment?_append (front back : List Char) :
    lastSegment? (front ++ '/' :: back) = (lastSegment? back).or (lastSegment? front) := by
  simp only [lastSegment?_eq]
  rw [cut_append, List.filter_append, List.getLast?_append]

/-- A separator at the start names nothing. -/
theorem lastSegment?_separator (back : List Char) :
    lastSegment? ('/' :: back) = lastSegment? back := by
  rw [← List.nil_append ('/' :: back), lastSegment?_append]
  exact Option.or_none

/-- A text without separators is its own last segment, unless it names nothing. -/
theorem lastSegment?_of_not_mem {segment : List Char} (hsegment : '/' ∉ segment) :
    lastSegment? segment = if segment = [] ∨ segment = ['.'] then none else some segment := by
  rw [lastSegment?_eq, cut_of_not_mem hsegment]
  by_cases hnothing : segment = [] ∨ segment = ['.']
  · rw [if_pos hnothing]
    rcases hnothing with rfl | rfl
    · rfl
    · rfl
  · rw [if_neg hnothing]
    obtain ⟨hne, hdot⟩ := not_or.mp hnothing
    simp [hne, hdot]

variable {text segment : List Char}

/-- A last segment is one of the pieces, and it names something. -/
theorem mem_of_lastSegment? (hlast : lastSegment? text = some segment) :
    segment ∈ cut '/' text ∧ segment ≠ [] ∧ segment ≠ ['.'] := by
  rw [lastSegment?_eq] at hlast
  obtain ⟨hpiece, hnaming⟩ := List.mem_filter.mp (List.mem_of_getLast? hlast)
  obtain ⟨hne, hdot⟩ : segment ≠ [] ∧ segment ≠ ['.'] := by simpa using hnaming
  exact ⟨hpiece, hne, hdot⟩

/-- A last segment has no separator in it, and it names something. -/
theorem of_lastSegment? (hlast : lastSegment? text = some segment) :
    '/' ∉ segment ∧ segment ≠ [] ∧ segment ≠ ['.'] := by
  obtain ⟨hpiece, hne, hdot⟩ := mem_of_lastSegment? hlast
  exact ⟨not_mem_of_mem_cut hpiece, hne, hdot⟩

/-- The last segment alone has itself as its last segment. -/
theorem lastSegment?_idem (hlast : lastSegment? text = some segment) :
    lastSegment? segment = some segment := by
  obtain ⟨hslash, hne, hdot⟩ := of_lastSegment? hlast
  rw [lastSegment?_of_not_mem hslash, if_neg (not_or.mpr ⟨hne, hdot⟩)]

/-! ## Walking a path from its end -/

/-- A segment stands for the component of its own last segment. -/
theorem ofSegment?_eq (hsegment : '/' ∉ segment) :
    Component.ofSegment? segment = (lastSegment? segment).bind Component.ofSegment? := by
  rw [lastSegment?_of_not_mem hsegment]
  by_cases hnothing : segment = [] ∨ segment = ['.']
  · rw [if_pos hnothing]
    rcases hnothing with rfl | rfl
    · rfl
    · rfl
  · rw [if_neg hnothing]
    rfl

/-- A segment that names something stands for a component. -/
theorem exists_ofSegment? (hne : segment ≠ []) (hdot : segment ≠ ['.']) :
    ∃ component, Component.ofSegment? segment = some component := by
  unfold Component.ofSegment?
  split
  · exact absurd rfl hne
  · exact absurd rfl hdot
  · exact ⟨_, rfl⟩
  · exact ⟨_, rfl⟩

/-- The walk stops at the component of the last segment. -/
theorem walkBack_eq (before segment : List Char) (hsegment : '/' ∉ segment) :
    walkBack segment before =
      (lastSegment? (before.reverse ++ segment)).bind Component.ofSegment? := by
  induction before generalizing segment with
  | nil => exact ofSegment?_eq hsegment
  | cons c before ih =>
      rw [List.reverse_cons, List.append_assoc, List.singleton_append]
      unfold walkBack
      by_cases hc : c = '/'
      · subst hc
        rw [if_pos rfl, lastSegment?_append, ofSegment?_eq hsegment]
        cases hlast : lastSegment? segment with
        | none =>
            -- an empty segment or a `.` is passed over
            have hbefore := ih [] List.not_mem_nil
            rw [List.append_nil] at hbefore
            exact hbefore
        | some last =>
            obtain ⟨-, hne, hdot⟩ := of_lastSegment? hlast
            obtain ⟨component, hcomponent⟩ := exists_ofSegment? hne hdot
            simp [hcomponent]
      · rw [if_neg hc]
        apply ih
        simp [hsegment, Ne.symm hc]

/-- The walk from the end of a text stops at the component of the text's last segment. -/
theorem walkBack_reverse (text : List Char) :
    walkBack [] text.reverse = (lastSegment? text).bind Component.ofSegment? := by
  rw [walkBack_eq _ _ List.not_mem_nil, List.reverse_reverse, List.append_nil]

/-- What a path starts with is no name, and the segments that name something come after it. -/
theorem of_start? {start : Component} (hstart : start? text = some start) :
    start.name? = none ∧ lastSegment? (text.drop 1) = lastSegment? text := by
  unfold start? at hstart
  split at hstart
  · next body =>
      obtain rfl := Option.some.inj hstart
      exact ⟨rfl, (lastSegment?_separator body).symm⟩
  · obtain rfl := Option.some.inj hstart
    exact ⟨rfl, rfl⟩
  · next body =>
      obtain rfl := Option.some.inj hstart
      have hhere : lastSegment? ('.' :: '/' :: body) = (lastSegment? body).or none :=
        lastSegment?_append ['.'] body
      rw [Option.or_none] at hhere
      exact ⟨rfl, (lastSegment?_separator body).trans hhere.symm⟩
  · exact nomatch hstart

/-- The component that a segment stands for is a name unless the segment is `..`. -/
theorem name?_ofSegment? (hne : segment ≠ []) (hdot : segment ≠ ['.']) :
    (Component.ofSegment? segment).bind Component.name? =
      if segment = ['.', '.'] then none else some segment := by
  unfold Component.ofSegment?
  split
  · exact absurd rfl hne
  · exact absurd rfl hdot
  · rfl
  · next hup =>
      rw [if_neg hup]
      rfl

/-! ## The name -/

/-- A path has a name exactly if that is its last component. -/
theorem fileName?_eq_some_iff_walked :
    fileName? text = some segment ↔ lastComponent? text = some (.name segment) := by
  unfold fileName?
  rw [Option.bind_eq_some_iff]
  constructor
  · rintro ⟨component, hlast, hname⟩
    cases component with
    | name last =>
        obtain rfl : last = segment := Option.some.inj hname
        exact hlast
    | root => exact nomatch hname
    | here => exact nomatch hname
    | up => exact nomatch hname
  · intro hlast
    exact ⟨.name segment, hlast, rfl⟩

/-- The name that a walk over the components finds comes from the last segment alone. -/
theorem fileName?_eq_bind (text : List Char) :
    fileName? text = (lastSegment? text).bind fun segment =>
      (Component.ofSegment? segment).bind Component.name? := by
  unfold fileName? lastComponent?
  cases hstart : start? text with
  | none =>
      simp only
      rw [walkBack_reverse, Option.bind_assoc]
  | some start =>
      obtain ⟨hname, hsame⟩ := of_start? hstart
      simp only
      rw [walkBack_reverse, hsame, ← Option.bind_assoc]
      cases (lastSegment? text).bind Component.ofSegment? with
      | none => exact hname
      | some component => rfl

/-- The name of a path is its last segment, unless that is `..`. -/
theorem fileName?_eq (text : List Char) :
    fileName? text =
      (lastSegment? text).bind fun segment =>
        if segment = ['.', '.'] then none else some segment := by
  rw [fileName?_eq_bind]
  cases hlast : lastSegment? text with
  | none => rfl
  | some segment =>
      obtain ⟨-, hne, hdot⟩ := of_lastSegment? hlast
      rw [Option.bind_some, Option.bind_some, name?_ofSegment? hne hdot]

/-- A path has no name exactly if it has no last segment or that is `..`. -/
theorem fileName?_eq_none_iff :
    fileName? text = none ↔ lastSegment? text = none ∨ lastSegment? text = some ['.', '.'] := by
  rw [fileName?_eq]
  cases lastSegment? text with
  | none => simp
  | some segment => simp

/-- A path has a name exactly if it is the last segment, and not `..`. -/
theorem fileName?_eq_some_iff :
    fileName? text = some segment ↔ lastSegment? text = some segment ∧ segment ≠ ['.', '.'] := by
  rw [fileName?_eq]
  cases lastSegment? text with
  | none => simp
  | some last =>
      rw [Option.bind_some, Option.ite_none_left_eq_some, Option.some.injEq]
      constructor
      · rintro ⟨hup, rfl⟩
        exact ⟨rfl, hup⟩
      · rintro ⟨rfl, hup⟩
        exact ⟨hup, rfl⟩

/-- The name of what a path leads to has no separator in it, is not empty, and is neither of the two
names that name no entry. -/
theorem of_fileName? (hname : fileName? text = some segment) :
    '/' ∉ segment ∧ segment ≠ [] ∧ segment ≠ ['.'] ∧ segment ≠ ['.', '.'] := by
  obtain ⟨hlast, hup⟩ := fileName?_eq_some_iff.mp hname
  obtain ⟨hslash, hne, hdot⟩ := of_lastSegment? hlast
  exact ⟨hslash, hne, hdot, hup⟩

/-- The name of what a path leads to has no characters but those of the path. -/
theorem subset_of_fileName? (hname : fileName? text = some segment) : segment ⊆ text := by
  obtain ⟨hlast, -⟩ := fileName?_eq_some_iff.mp hname
  exact subset_of_mem_cut (mem_of_lastSegment? hlast).1

end SerialLock.Path
