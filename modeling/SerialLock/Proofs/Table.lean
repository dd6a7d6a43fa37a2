import SerialLock.Process

/-!
# Tables by key

The entries of a tree and the processes of a system are lists of pairs, looked up by their first
part.  Entries that were filtered out by key are gone, and no other is.

A view of the process table shows the truth about the process that was looked up last
(`ProcessTable.shows_refresh`).
-/

set_option autoImplicit false

namespace SerialLock

/-- Looking up another key does not see the entries that were filtered out. -/
theorem lookup_filter_ne {α β : Type} [BEq α] [LawfulBEq α] (key other : α) (l : List (α × β)) :
    (l.filter fun e => e.1 != key).lookup other =
      if other == key then none else l.lookup other := by
  induction l with
  | nil => simp
  | cons e l ih =>
      obtain ⟨key', value⟩ := e
      by_cases hkey : key' == key
      · obtain rfl := eq_of_beq hkey
        simp only [bne_self_eq_false, Bool.false_eq_true, not_false_eq_true,
          List.filter_cons_of_neg, ih, List.lookup_cons]
        by_cases hother : other == key' <;> simp [hother]
      · have hne : (key' != key) = true := by simpa using hkey
        rw [List.filter_cons_of_pos (by simpa using hne), List.lookup_cons, List.lookup_cons, ih]
        by_cases hother : other == key'
        · obtain rfl := eq_of_beq hother
          simp [hkey]
        · simp [hother]

namespace ProcessTable

/-- After one process was looked up, the view has of it what the table has. -/
theorem lookup_refresh (view table : ProcessTable) (number : Nat) :
    (view.refresh table number).lookup number = table.lookup number := by
  unfold refresh
  cases htable : table.lookup number with
  | some state => simp [put]
  | none =>
      unfold drop
      rw [lookup_filter_ne]
      simp

/-- A process just looked up is shown as running exactly if the table has it running. -/
theorem shows_refresh (view table : ProcessTable) (number : Nat) :
    (view.refresh table number).shows number = table.shows number := by
  unfold shows
  rw [lookup_refresh]

end ProcessTable

end SerialLock
