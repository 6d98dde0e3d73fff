import WhereClause.Text.Quoted

namespace WhereClause.Text.Quoted

theorem extent_single {cs : List Char} (h : cs.head? ≠ some '\'') : extent ('\'' :: cs) = some 1 := by
  rw [extent.eq_3 _ _ (by rintro rest - rfl; exact h rfl), if_pos rfl]

theorem extent_cons {c : Char} (other : c ≠ '\'') (cs : List Char) :
    extent (c :: cs) = (extent cs).map (· + 1) := by
  rw [extent.eq_3 _ _ (fun _ same => absurd same other), if_neg other]

theorem extent_double {rest : List Char} (apart : rest.head? ≠ some '\'') (inner : List Char) :
    extent (double inner ++ '\'' :: rest) = some ((double inner).length + 1) := by
  induction inner with
  | nil => exact extent_single apart
  | cons c inner ih =>
    by_cases quote : c = '\''
    · rw [double, if_pos quote, List.cons_append, List.cons_append, extent, ih]
      rfl
    · rw [double, if_neg quote, List.cons_append, extent_cons quote, ih]
      rfl

theorem extent_eq_some_iff {cs : List Char} {n : Nat} :
    extent cs = some n ↔ ∃ inner rest, cs = double inner ++ '\'' :: rest ∧ rest.head? ≠ some '\'' ∧
      n = (double inner).length + 1 := by
  constructor
  · intro h
    induction cs using extent.induct generalizing n with
    | case1 => cases h
    | case2 cs ih =>
      rw [extent] at h
      obtain ⟨m, found, rfl⟩ := Option.map_eq_some_iff.1 h
      obtain ⟨inner, rest, rfl, apart, rfl⟩ := ih found
      exact ⟨'\'' :: inner, rest, by simp [double], apart, by simp [double]⟩
    | case3 cs single =>
      have apart : cs.head? ≠ some '\'' := by
        cases cs with
        | nil => exact (Option.some_ne_none _).symm
        | cons d cs =>
          rintro ⟨⟩
          exact single cs rfl rfl
      rw [extent_single apart] at h
      cases h
      exact ⟨[], cs, rfl, apart, rfl⟩
    | case4 c cs _ other ih =>
      rw [extent_cons other] at h
      obtain ⟨m, found, rfl⟩ := Option.map_eq_some_iff.1 h
      obtain ⟨inner, rest, rfl, apart, rfl⟩ := ih found
      exact ⟨c :: inner, rest, by simp [double, other], apart, by simp [double, other]⟩
  · rintro ⟨inner, rest, rfl, apart, rfl⟩
    exact extent_double apart inner

/-- No quote among the characters closes a string that is open before them: each one that follows an inside
    with doubled quotes is doubled itself. -/
def Unclosed (cs : List Char) : Prop :=
  ∀ inner rest, cs = double inner ++ '\'' :: rest → rest.head? = some '\''

theorem extent_eq_none_iff {cs : List Char} : extent cs = none ↔ Unclosed cs := by
  constructor
  · rintro none inner rest rfl
    refine Decidable.byContradiction fun apart => ?_
    rw [extent_double apart] at none
    cases none
  · intro unclosed
    cases found : extent cs with
    | none => rfl
    | some n =>
      obtain ⟨inner, rest, whole, apart, -⟩ := extent_eq_some_iff.1 found
      exact absurd (unclosed inner rest whole) apart

end WhereClause.Text.Quoted
