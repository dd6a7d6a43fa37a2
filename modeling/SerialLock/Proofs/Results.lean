/-!
# Results of what can fail

What comes of results that are used one after the other, and of a list of them: they are all there, or
the first that is not decides.
-/

set_option autoImplicit false

namespace SerialLock

variable {ε α β : Type} {f : α → Except ε β}

/-- What is left of a result without its reasons for failure is the value that it yields. -/
theorem toOption_eq_some_iff {result : Except ε α} {a : α} :
    result.toOption = some a ↔ result = .ok a := by
  cases result <;> simp [Except.toOption]

/-- Nothing is left of a result exactly where it yields no value. -/
theorem toOption_eq_none_iff {result : Except ε α} :
    result.toOption = none ↔ ∀ a, result ≠ .ok a := by
  simp only [Option.eq_none_iff_forall_ne_some, ne_eq, toOption_eq_some_iff]

/-- Results agree, apart from why there is none, if they are there as the same. -/
theorem toOption_eq_iff {result other : Except ε α} :
    result.toOption = other.toOption ↔ ∀ a, result = .ok a ↔ other = .ok a := by
  rw [Option.ext_iff]
  simp only [toOption_eq_some_iff]

/-- What follows a success goes on from its value. -/
theorem ok_bind (a : α) (go : α → Except ε β) : (.ok a >>= go) = go a := rfl

/-- Two results in sequence yield a value exactly if both do, the second from the first. -/
theorem bind_eq_ok_iff {result : Except ε α} {go : α → Except ε β} {b : β} :
    (result >>= go) = .ok b ↔ ∃ a, result = .ok a ∧ go a = .ok b := by
  cases result with
  | error failure =>
      constructor
      · intro hok
        cases hok
      · rintro ⟨a, ha, -⟩
        cases ha
  | ok a =>
      constructor
      · intro hok
        exact ⟨a, rfl, hok⟩
      · rintro ⟨a', ha, hok⟩
        cases ha
        exact hok

/-- A result that is mapped yields the images of what it yields. -/
theorem map_eq_ok_iff {result : Except ε α} {g : α → β} {b : β} :
    result.map g = .ok b ↔ ∃ a, result = .ok a ∧ g a = b := by
  cases result <;> simp [Except.map]

/-! ## Lists of results -/

/-- The result for one element, or any where there is none. -/
def resultOr [Inhabited β] (f : α → Except ε β) (a : α) : β :=
  match f a with
  | .ok b => b
  | .error _ => default

/-- The value of a function that succeeds is its result there. -/
theorem resultOr_eq [Inhabited β] {a : α} {b : β} (hok : f a = .ok b) : resultOr f a = b := by
  unfold resultOr
  rw [hok]

/-- A list of results is there if every element has one. -/
theorem mapM_eq_ok_map {g : α → β} {l : List α} (hok : ∀ a ∈ l, f a = .ok (g a)) :
    l.mapM f = .ok (l.map g) := by
  induction l with
  | nil => rfl
  | cons a l ih =>
      have hhead := hok a (by simp)
      have htail := ih fun b hb => hok b (by simp [hb])
      rw [List.mapM_cons, hhead, htail]
      rfl

/-- If a list of results is there, every element has one. -/
theorem exists_of_mapM_eq_ok {l : List α} {results : List β} (hmap : l.mapM f = .ok results)
    {a : α} (ha : a ∈ l) : ∃ b, f a = .ok b := by
  induction l generalizing results with
  | nil => simp at ha
  | cons head l ih =>
      rw [List.mapM_cons] at hmap
      obtain ⟨b, hhead, hlater⟩ := bind_eq_ok_iff.mp hmap
      obtain ⟨rest, htail, -⟩ := bind_eq_ok_iff.mp hlater
      rcases List.mem_cons.mp ha with rfl | hmem
      · exact ⟨b, hhead⟩
      · exact ih htail hmem

/-- A list of results is there exactly where every element has one. -/
theorem mapM_eq_ok_iff [Inhabited β] {l : List α} {results : List β} :
    l.mapM f = .ok results ↔
      (∀ a ∈ l, f a = .ok (resultOr f a)) ∧ results = l.map (resultOr f) := by
  constructor
  · intro hmap
    have hok : ∀ a ∈ l, f a = .ok (resultOr f a) := by
      intro a ha
      obtain ⟨b, hb⟩ := exists_of_mapM_eq_ok hmap ha
      rw [hb, resultOr_eq hb]
    rw [mapM_eq_ok_map hok] at hmap
    exact ⟨hok, (Except.ok.inj hmap).symm⟩
  · rintro ⟨hok, rfl⟩
    exact mapM_eq_ok_map hok

/-- If a list of results is not there, the first element that has none is the cause. -/
theorem mapM_eq_error_iff {l : List α} {failure : ε} :
    l.mapM f = .error failure ↔ ∃ front a back, l = front ++ a :: back ∧
      (∀ b ∈ front, ∃ result, f b = .ok result) ∧ f a = .error failure := by
  constructor
  · intro hmap
    induction l with
    | nil => cases hmap
    | cons head l ih =>
        rw [List.mapM_cons] at hmap
        cases hhead : f head with
        | error failure' =>
            rw [hhead] at hmap
            cases hmap
            exact ⟨[], head, l, rfl, by simp, hhead⟩
        | ok b =>
            cases htail : l.mapM f with
            | ok rest => rw [hhead, htail] at hmap; cases hmap
            | error failure' =>
                rw [hhead, htail] at hmap
                cases hmap
                obtain ⟨front, a, back, rfl, hfront, hfa⟩ := ih htail
                refine ⟨head :: front, a, back, rfl, ?_, hfa⟩
                intro b' hmem
                rcases List.mem_cons.mp hmem with rfl | hmem
                · exact ⟨b, hhead⟩
                · exact hfront b' hmem
  · rintro ⟨front, a, back, rfl, hfront, hfa⟩
    induction front with
    | nil =>
        rw [List.nil_append, List.mapM_cons, hfa]
        rfl
    | cons head front ih =>
        obtain ⟨result, hhead⟩ := hfront head (by simp)
        have htail := ih fun b hmem => hfront b (by simp [hmem])
        rw [List.cons_append, List.mapM_cons, hhead, htail]
        rfl

end SerialLock
