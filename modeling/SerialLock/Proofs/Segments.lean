import SerialLock.FileTree.Resolve

/-!
# The segments of paths

Cutting at a separator yields pieces without it, and a list with a separator in it is cut into the
pieces of its two parts (`cut_append`).  So joining a name to a directory adds one segment to those
of the directory (`names_join`).
-/

set_option autoImplicit false

namespace SerialLock.Path

/-! ## Pieces -/

/-- There is always a first piece. -/
theorem cut_ne_nil {α : Type} [BEq α] (separator : α) (list : List α) :
    cut separator list ≠ [] := by
  cases list with
  | nil => simp [cut]
  | cons a rest =>
      unfold cut
      split
      · simp
      · split
        · simp
        · simp

section Pieces

variable {α : Type} [BEq α] [LawfulBEq α] {separator a : α} {piece rest : List α}

/-- A separator at the start has an empty piece before it. -/
theorem cut_separator (separator : α) (rest : List α) :
    cut separator (separator :: rest) = [] :: cut separator rest := by
  simp [cut]

/-- Anything but a separator at the start belongs to the first piece. -/
theorem cut_other (ha : a ≠ separator) (rest : List α) :
    ∃ first others, cut separator rest = first :: others ∧
      cut separator (a :: rest) = (a :: first) :: others := by
  cases hrest : cut separator rest with
  | nil => exact absurd hrest (cut_ne_nil separator rest)
  | cons first others =>
      refine ⟨first, others, rfl, ?_⟩
      simp [cut, hrest, ha]

/-- A list with a separator in it is cut into the pieces of its two parts. -/
theorem cut_append (separator : α) (front back : List α) :
    cut separator (front ++ separator :: back) = cut separator front ++ cut separator back := by
  induction front with
  | nil => exact cut_separator separator back
  | cons a front ih =>
      rw [List.cons_append]
      by_cases ha : a = separator
      · subst ha
        rw [cut_separator, cut_separator, ih, List.cons_append]
      · obtain ⟨first, others, hfront, hcut⟩ := cut_other ha front
        obtain ⟨first', others', hwhole, hcut'⟩ := cut_other ha (front ++ separator :: back)
        rw [ih, hfront, List.cons_append] at hwhole
        obtain ⟨rfl, rfl⟩ : first = first' ∧ others ++ cut separator back = others' := by
          simpa using hwhole
        rw [hcut, hcut', List.cons_append]

/-- A list without separators is a single piece. -/
theorem cut_of_not_mem {list : List α} (hlist : separator ∉ list) :
    cut separator list = [list] := by
  induction list with
  | nil => rfl
  | cons a list ih =>
      obtain ⟨hne, hrest⟩ : separator ≠ a ∧ separator ∉ list := by simpa using hlist
      obtain ⟨first, others, hfirst, hcut⟩ := cut_other (Ne.symm hne) list
      rw [ih hrest] at hfirst
      cases hfirst
      exact hcut

/-- There is no separator in a piece. -/
theorem not_mem_of_mem_cut {list : List α} (hpiece : piece ∈ cut separator list) :
    separator ∉ piece := by
  induction list generalizing piece with
  | nil =>
      rw [List.mem_singleton.mp hpiece]
      exact List.not_mem_nil
  | cons a list ih =>
      by_cases ha : a = separator
      · subst ha
        rw [cut_separator, List.mem_cons] at hpiece
        rcases hpiece with rfl | hpiece
        · exact List.not_mem_nil
        · exact ih hpiece
      · obtain ⟨first, others, hlist, hcut⟩ := cut_other ha list
        rw [hcut, List.mem_cons] at hpiece
        rcases hpiece with rfl | hpiece
        · have hfirst : separator ∉ first := ih (by simp [hlist])
          simp [hfirst, Ne.symm ha]
        · exact ih (by simp [hlist, hpiece])

/-- A piece has nothing in it but what is in the list. -/
theorem subset_of_mem_cut {list : List α} (hpiece : piece ∈ cut separator list) :
    piece ⊆ list := by
  induction list generalizing piece with
  | nil =>
      rw [List.mem_singleton.mp hpiece]
      exact List.Subset.refl []
  | cons a list ih =>
      by_cases ha : a = separator
      · subst ha
        rw [cut_separator, List.mem_cons] at hpiece
        rcases hpiece with rfl | hpiece
        · exact List.nil_subset _
        · exact List.subset_cons_of_subset a (ih hpiece)
      · obtain ⟨first, others, hlist, hcut⟩ := cut_other ha list
        rw [hcut, List.mem_cons] at hpiece
        rcases hpiece with rfl | hpiece
        · exact List.cons_subset_cons a (ih (by simp [hlist]))
        · exact List.subset_cons_of_subset a (ih (by simp [hlist, hpiece]))

end Pieces

/-! ## Names to follow -/

/-- The segments of a path that are not empty. -/
def segments (path : Path) : List (List UInt8) :=
  (cut slash path).filter fun segment => !segment.isEmpty

/-- The names to follow are the segments, with a `.` for a separator at the end. -/
theorem names_eq (path : Path) :
    path.names = segments path ∨ path.names = segments path ++ [[dot]] := by
  unfold names segments
  simp only
  split
  · exact .inr rfl
  · exact .inl rfl

/-- Without a separator at the end the names to follow are the segments. -/
theorem names_of_getLast {path : Path} (hlast : path.getLast? ≠ some slash) :
    path.names = segments path := by
  unfold names segments
  simp [hlast]

variable {directory name : Path}

/-- A name without a separator that is joined to a directory comes after it and one separator. -/
theorem join_eq (hdirectory : directory ≠ []) (hslash : slash ∉ name) :
    join directory name =
      directory ++ (if directory.getLast? = some slash then [] else [slash]) ++ name := by
  have habsolute : isAbsolute name = false := by
    cases name with
    | nil => rfl
    | cons b rest =>
        have hne : slash ≠ b := fun h => hslash (h ▸ List.mem_cons_self)
        simp [isAbsolute, Ne.symm hne]
  unfold join
  by_cases hlast : directory.getLast? = some slash
  · simp [habsolute, hlast]
  · simp [habsolute, hlast, hdirectory]

/-- Joining a name to a directory adds one segment. -/
theorem segments_join (hdirectory : directory ≠ []) (hslash : slash ∉ name) (hname : name ≠ []) :
    segments (join directory name) = segments directory ++ [name] := by
  have hpiece : (cut slash name).filter (fun segment => !segment.isEmpty) = [name] := by
    rw [cut_of_not_mem hslash]
    simp [hname]
  rw [join_eq hdirectory hslash]
  unfold segments
  by_cases hlast : directory.getLast? = some slash
  · -- the separator at the end of the directory is the one before the name
    obtain ⟨front, rfl⟩ := List.getLast?_eq_some_iff.mp hlast
    have hnothing : cut slash (front ++ [slash]) = cut slash front ++ [[]] := cut_append _ _ _
    rw [if_pos hlast, List.append_nil, List.append_assoc, List.singleton_append, cut_append,
      hnothing, List.filter_append, List.filter_append, hpiece]
    simp
  · rw [if_neg hlast, List.append_assoc, List.singleton_append, cut_append, List.filter_append,
      hpiece]

/-- The names to follow of a joined path are the segments of the directory and the name. -/
theorem names_join (hdirectory : directory ≠ []) (hslash : slash ∉ name) (hname : name ≠ []) :
    (join directory name).names = segments directory ++ [name] := by
  rw [names_of_getLast, segments_join hdirectory hslash hname]
  intro hlast
  rw [join_eq hdirectory hslash, List.getLast?_append,
    List.getLast?_eq_some_getLast hname, Option.some_or] at hlast
  exact hslash (List.mem_of_getLast? ((List.getLast?_eq_some_getLast hname).trans hlast))

/-- A path that a name is joined to starts where the joined path starts. -/
theorem isAbsolute_join (hdirectory : directory ≠ []) (hslash : slash ∉ name) :
    isAbsolute (join directory name) = isAbsolute directory := by
  rw [join_eq hdirectory hslash]
  cases directory with
  | nil => exact absurd rfl hdirectory
  | cons b rest => rfl

end SerialLock.Path
