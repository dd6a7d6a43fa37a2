import SerialLock.FileTree.Resolve

/-!
# Laws of following paths

Names are followed leg by leg, where a leg ends at the first link to be replaced.  A list of names
splits at any point (`leg_append`, `Leads.split`): what stands in front of the last part has to lead
to a directory.  The number of links that may be replaced does not change where names lead, only
whether the walk gets there (`walk_eq_ok_iff`, `Leads.unique`).

A path names an entry and leads to a goal.  The two differ only where the entry is a link, and then
the link's target leads from the link's directory to the goal (`Leads.literal`, `Leads.followed`).
-/

set_option autoImplicit false

namespace SerialLock.FileTree

variable {tree : FileTree} {followLast : Bool}

/-! ## Legs -/

/-- No name is followed from anything but a directory. -/
theorem leg_of_not_directory {here : Place} {names : List Name} (hnames : names ≠ [])
    (hhere : tree.entry? here ≠ some .directory) :
    tree.leg followLast here names = .failed .notDirectory := by
  cases names with
  | nil => exact absurd rfl hnames
  | cons name rest => simp [leg]

/-- The name `.` leads nowhere else. -/
theorem leg_dot {here : Place} {name : Name} {rest : List Name}
    (hhere : tree.entry? here = some .directory) (hdot : (name == [Path.dot]) = true) :
    tree.leg followLast here (name :: rest) = tree.leg followLast here rest := by
  simp only [leg, hhere, hdot, if_true]

/-- The name `..` leads to the directory above. -/
theorem leg_up {here : Place} {name : Name} {rest : List Name}
    (hhere : tree.entry? here = some .directory) (hdot : ¬(name == [Path.dot]) = true)
    (hup : (name == [Path.dot, Path.dot]) = true) :
    tree.leg followLast here (name :: rest) = tree.leg followLast here.dropLast rest := by
  simp only [leg, hhere, hdot, hup, if_true, if_false, Bool.false_eq_true]

/-- A name of more than 255 bytes is followed nowhere. -/
theorem leg_long {here : Place} {name : Name} {rest : List Name}
    (hhere : tree.entry? here = some .directory) (hdot : ¬(name == [Path.dot]) = true)
    (hup : ¬(name == [Path.dot, Path.dot]) = true) (hlong : 255 < name.length) :
    tree.leg followLast here (name :: rest) = .failed .nameTooLong := by
  simp only [leg, hhere, hdot, hup, hlong, if_true, if_false, Bool.false_eq_true]

/-- Any other name leads to the entry of that name, and a link there ends the leg if it is to be
replaced. -/
theorem leg_name {here : Place} {name : Name} {rest : List Name}
    (hhere : tree.entry? here = some .directory) (hdot : ¬(name == [Path.dot]) = true)
    (hup : ¬(name == [Path.dot, Path.dot]) = true) (hlong : ¬255 < name.length) :
    tree.leg followLast here (name :: rest) =
      match tree.entry? (here ++ [name]) with
      | none => if rest.isEmpty then .done (.vacant here name) else .failed .missing
      | some (.link target) =>
        if rest.isEmpty && !followLast then .done (.at (here ++ [name]))
        else .through (start here target) (target.names ++ rest)
      | some _ => tree.leg followLast (here ++ [name]) rest := by
  rw [leg, hhere]
  exact (if_neg hdot).trans ((if_neg hup).trans (if_neg hlong))

/-- A leg over two lists of names is the leg over the first, which replaces all its links, and then
the one over the second. -/
theorem leg_append {here : Place} {names rest : List Name} (hrest : rest ≠ []) :
    tree.leg followLast here (names ++ rest) =
      match tree.leg true here names with
      | .done (.at directory) => tree.leg followLast directory rest
      | .done (.vacant ..) => .failed .missing
      | .failed fault => .failed fault
      | .through directory names => .through directory (names ++ rest) := by
  have hmore (names : List Name) : (names ++ rest).isEmpty = false := by simp [hrest]
  induction here, names using leg.induct tree true with
  | case1 here => simp only [List.nil_append, leg]
  | case2 here name names hhere hdot ih =>
      rw [List.cons_append, leg_dot hhere hdot, leg_dot hhere hdot, ih]
  | case3 here name names hhere hdot hup ih =>
      rw [List.cons_append, leg_up hhere hdot hup, leg_up hhere hdot hup, ih]
  | case4 here name names hhere hdot hup hlong =>
      rw [List.cons_append, leg_long hhere hdot hup hlong, leg_long hhere hdot hup hlong]
  | case5 here name names hhere hdot hup hlong there hthere hlast =>
      rw [List.cons_append, leg_name hhere hdot hup hlong, leg_name hhere hdot hup hlong, hthere]
      simp [hmore, hlast]
  | case6 here name names hhere hdot hup hlong there hthere hlast =>
      rw [List.cons_append, leg_name hhere hdot hup hlong, leg_name hhere hdot hup hlong, hthere]
      simp [hmore, hlast]
  | case7 here name names hhere hdot hup hlong there target hthere hstop =>
      simp at hstop
  | case8 here name names hhere hdot hup hlong there target hthere hgo =>
      rw [List.cons_append, leg_name hhere hdot hup hlong, leg_name hhere hdot hup hlong, hthere]
      simp [hmore]
  | case9 here name names hhere hdot hup hlong there entry hlink hthere ih =>
      rw [List.cons_append, leg_name hhere hdot hup hlong, leg_name hhere hdot hup hlong, hthere]
      simpa only [hlink] using ih
  | case10 here name names hhere =>
      rw [List.cons_append, leg_of_not_directory (by simp) hhere,
        leg_of_not_directory (by simp) hhere]

/-- A leg that keeps a last link differs from one that replaces it only at that link. -/
theorem leg_literal (tree : FileTree) (here : Place) (names : List Name) :
    tree.leg true here names = tree.leg false here names ∨
      ∃ place target, tree.entry? place = some (.link target) ∧
        tree.leg false here names = .done (.at place) ∧
        tree.leg true here names = .through (start place.dropLast target) target.names := by
  induction here, names using leg.induct tree false with
  | case1 here => exact .inl rfl
  | case2 here name names hhere hdot ih =>
      simpa only [leg_dot hhere hdot] using ih
  | case3 here name names hhere hdot hup ih =>
      simpa only [leg_up hhere hdot hup] using ih
  | case4 here name names hhere hdot hup hlong =>
      simp only [leg_long hhere hdot hup hlong, true_or]
  | case5 here name names hhere hdot hup hlong there hthere hlast =>
      simp only [leg_name hhere hdot hup hlong, there, hthere, true_or]
  | case6 here name names hhere hdot hup hlong there hthere hmore =>
      simp only [leg_name hhere hdot hup hlong, there, hthere, true_or]
  | case7 here name names hhere hdot hup hlong there target hthere hstop =>
      -- the last name is a link, which one leg keeps and the other replaces
      obtain rfl : names = [] := by simpa using hstop
      refine .inr ⟨there, target, hthere, ?_, ?_⟩
      · simp [leg_name hhere hdot hup hlong, there, hthere]
      · simp [leg_name hhere hdot hup hlong, there, hthere]
  | case8 here name names hhere hdot hup hlong there target hthere hgo =>
      left
      rw [leg_name hhere hdot hup hlong, leg_name hhere hdot hup hlong, hthere]
      simpa using hgo
  | case9 here name names hhere hdot hup hlong there entry hlink hthere ih =>
      rw [leg_name hhere hdot hup hlong, leg_name hhere hdot hup hlong, hthere]
      simpa only [hlink] using ih
  | case10 here name names hhere =>
      left
      rw [leg_of_not_directory (by simp) hhere, leg_of_not_directory (by simp) hhere]

/-! ## Walks -/

/-- Names lead from a place to a goal, and exactly `links` links are replaced on the way. -/
inductive Leads (tree : FileTree) (followLast : Bool) : Nat → Place → List Name → Goal → Prop where
  | done {here : Place} {names : List Name} {goal : Goal}
      (hleg : tree.leg followLast here names = .done goal) :
      Leads tree followLast 0 here names goal
  | through {links : Nat} {here directory : Place} {names rest : List Name} {goal : Goal}
      (hleg : tree.leg followLast here names = .through directory rest)
      (hrest : Leads tree followLast links directory rest goal) :
      Leads tree followLast (links + 1) here names goal

/-- A walk that may replace `links` links ends where the names lead with at most so many links. -/
theorem walk_eq_ok_iff {links : Nat} {here : Place} {names : List Name} {goal : Goal} :
    tree.walk followLast links here names = .ok goal ↔
      ∃ used ≤ links, tree.Leads followLast used here names goal := by
  constructor
  · intro hwalk
    induction links generalizing here names with
    | zero =>
        rw [walk] at hwalk
        cases hleg : tree.leg followLast here names with
        | done end_ =>
            simp only [hleg, Except.ok.injEq] at hwalk
            exact ⟨0, Nat.le_refl _, .done (hwalk ▸ hleg)⟩
        | failed fault => simp [hleg] at hwalk
        | through directory rest => simp [hleg] at hwalk
    | succ links ih =>
        rw [walk] at hwalk
        cases hleg : tree.leg followLast here names with
        | done end_ =>
            simp only [hleg, Except.ok.injEq] at hwalk
            exact ⟨0, Nat.zero_le _, .done (hwalk ▸ hleg)⟩
        | failed fault => simp [hleg] at hwalk
        | through directory rest =>
            simp only [hleg] at hwalk
            obtain ⟨used, hused, hrest⟩ := ih hwalk
            exact ⟨used + 1, by omega, .through hleg hrest⟩
  · rintro ⟨used, hused, hleads⟩
    induction hleads generalizing links with
    | done hleg => rw [walk, hleg]
    | through hleg _ ih =>
        obtain ⟨left, rfl⟩ : ∃ left, links = left + 1 := ⟨links - 1, by omega⟩
        rw [walk, hleg]
        exact ih (by omega)

namespace Leads

variable {links : Nat} {here : Place} {names rest : List Name} {goal : Goal}

/-- Names that lead anywhere start in a directory. -/
theorem directory (hleads : tree.Leads followLast links here names goal) (hnames : names ≠ []) :
    tree.entry? here = some .directory := by
  by_cases hhere : tree.entry? here = some .directory
  · exact hhere
  · cases hleads with
    | done hleg => simp [leg_of_not_directory hnames hhere] at hleg
    | through hleg _ => simp [leg_of_not_directory hnames hhere] at hleg

/-- Names lead to one goal only. -/
theorem unique {links' : Nat} {goal' : Goal} (hleads : tree.Leads followLast links here names goal)
    (hleads' : tree.Leads followLast links' here names goal') : goal = goal' := by
  induction hleads generalizing links' with
  | done hleg =>
      cases hleads' with
      | done hleg' => simpa [hleg] using hleg'
      | through hleg' _ => simp [hleg] at hleg'
  | through hleg _ ih =>
      cases hleads' with
      | done hleg' => simp [hleg] at hleg'
      | through hleg' hrest' =>
          obtain ⟨rfl, rfl⟩ : _ ∧ _ := by simpa [hleg] using hleg'
          exact ih hrest'

/-- Names that lead anywhere go through what the first of them lead to. -/
theorem split (hleads : tree.Leads followLast links here (names ++ rest) goal) (hrest : rest ≠ []) :
    ∃ directory used left, used + left = links ∧
      tree.Leads true used here names (.at directory) ∧
      tree.Leads followLast left directory rest goal := by
  -- the first leg either passes all of the first names, or goes on at a link among them
  generalize hall : names ++ rest = all at hleads
  induction hleads generalizing names with
  | @done here all goal hleg =>
      rw [← hall, leg_append hrest] at hleg
      cases hfirst : tree.leg true here names with
      | done end_ =>
          cases end_ with
          | «at» directory =>
              simp only [hfirst] at hleg
              exact ⟨directory, 0, 0, rfl, .done hfirst, .done hleg⟩
          | vacant directory name => simp [hfirst] at hleg
      | failed fault => simp [hfirst] at hleg
      | through directory names => simp [hfirst] at hleg
  | @through links here directory all onward goal hleg hleads ih =>
      rw [← hall, leg_append hrest] at hleg
      cases hfirst : tree.leg true here names with
      | done end_ =>
          cases end_ with
          | «at» middle =>
              simp only [hfirst] at hleg
              exact ⟨middle, 0, links + 1, Nat.zero_add _, .done hfirst, .through hleg hleads⟩
          | vacant directory name => simp [hfirst] at hleg
      | failed fault => simp [hfirst] at hleg
      | through directory names =>
          simp only [hfirst, Leg.through.injEq] at hleg
          obtain ⟨rfl, hall⟩ := hleg
          obtain ⟨middle, used, left, hlinks, hfront, hback⟩ := ih hall
          exact ⟨middle, used + 1, left, by omega, .through hfirst hfront, hback⟩

/-- The entry at which names end is their goal, or a link whose target leads there. -/
theorem literal {goal : Place} (hleads : tree.Leads true links here names (.at goal)) :
    ∃ place used, used ≤ links ∧ tree.Leads false used here names (.at place) ∧
      (place = goal ∨ ∃ target left, tree.entry? place = some (.link target) ∧
        tree.Leads true left (start place.dropLast target) target.names (.at goal)) := by
  generalize hend : Goal.at goal = end_ at hleads
  induction hleads with
  | @done here names end_ hleg =>
      rcases leg_literal tree here names with hsame | ⟨place, target, _, _, hthrough⟩
      · exact ⟨goal, 0, Nat.le_refl _, .done (by rw [← hsame, hleg, hend]), .inl rfl⟩
      · simp [hthrough] at hleg
  | @through links here directory names rest end_ hleg hleads ih =>
      rcases leg_literal tree here names with
        hsame | ⟨place, target, hlink, hstop, hthrough⟩
      · obtain ⟨place, used, hused, hliteral, hplace⟩ := ih hend
        exact ⟨place, used + 1, by omega, .through (by rw [← hsame, hleg]) hliteral, hplace⟩
      · obtain ⟨rfl, rfl⟩ : _ ∧ _ := by simpa [hthrough] using hleg
        exact ⟨place, 0, Nat.zero_le _, .done hstop, .inr ⟨target, links, hlink, hend ▸ hleads⟩⟩

/-- Names that end at an entry that is no link lead to it. -/
theorem followed {goal : Place} (hleads : tree.Leads false links here names (.at goal))
    (hlink : ∀ target, tree.entry? goal ≠ some (.link target)) :
    tree.Leads true links here names (.at goal) := by
  generalize hend : Goal.at goal = end_ at hleads
  induction hleads with
  | @done here names end_ hleg =>
      subst hend
      rcases leg_literal tree here names with hsame | ⟨place, target, hplace, hstop, _⟩
      · exact .done (hsame.trans hleg)
      · obtain rfl : place = goal := by simpa [hstop] using hleg
        exact absurd hplace (hlink target)
  | @through links here directory names rest end_ hleg _ ih =>
      rcases leg_literal tree here names with hsame | ⟨_, _, _, hstop, _⟩
      · exact .through (hsame.trans hleg) (ih hend)
      · simp [hstop] at hleg

end Leads

end SerialLock.FileTree
