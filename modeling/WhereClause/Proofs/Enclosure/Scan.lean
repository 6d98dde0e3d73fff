import WhereClause.Proofs.RoundTrip.Scan

namespace WhereClause

namespace Text.Quoted

theorem extent_append {cs rest : List Char} {n : Nat} (h : extent cs = some n)
    (apart : rest.head? ≠ some '\'') : extent (cs ++ rest) = some n ∧ n ≤ cs.length := by
  obtain ⟨inner, more, rfl, alone, rfl⟩ := extent_eq_some_iff.1 h
  have further : (more ++ rest).head? ≠ some '\'' := by
    cases more with
    | nil => exact apart
    | cons d more => exact alone
  refine ⟨extent_eq_some_iff.2 ⟨inner, more ++ rest, by simp, further, rfl⟩, ?_⟩
  simp only [List.length_append, List.length_cons]
  omega

end Text.Quoted

namespace Token

open Text

def Marked (rest : List Char) : Prop := ∀ c ∈ rest.head?, c ∈ Options.filter.symbols

theorem marked_cons {c : Char} (h : c ∈ Options.filter.symbols) (rest : List Char) : Marked (c :: rest) := by
  rintro _ ⟨⟩
  exact h

theorem Marked.ends {rest : List Char} (h : Marked rest) : Ends rest := fun c first => Or.inr (h c first)

theorem Marked.head?_ne {rest : List Char} (h : Marked rest) {c : Char} (other : c ∉ Options.filter.symbols) :
    rest.head? ≠ some c := fun first => other (h c first)

namespace Options

theorem blankExtent_append {rest : List Char} (h : Marked rest) (cs : List Char) :
    blankExtent (cs ++ rest) = blankExtent cs := by
  have stop (c : Char) (first : c ∈ rest.head?) : (isBlank c && c ≠ '\r' && c ≠ '\n') = false := by
    have symbol := h c first
    simp only [filter, plain, List.mem_cons, List.not_mem_nil, or_false] at symbol
    rcases symbol with rfl | rfl | rfl <;> decide
  rw [blankExtent, takeWhile_append_of_head stop, blankExtent]

/-- Before a symbol the first token of a text is the same as before its end. -/
theorem token?_append_of_marked {c : Char} {cs rest : List Char} {kind : Kind} {n : Nat}
    (h : filter.token? c cs = some (kind, n)) (marked : Marked rest) :
    filter.token? c (cs ++ rest) = some (kind, n) ∧ n ≤ cs.length := by
  have other {d : Char} (h : d ∉ filter.symbols) : rest.head? ≠ some d := marked.head?_ne h
  have feed : (cs ++ rest).head? = some '\n' ↔ cs.head? = some '\n' := by
    cases cs with
    | nil => simp [other (d := '\n') (by decide)]
    | cons d cs => rfl
  unfold token? at h ⊢
  by_cases quote : c = '\''
  · rw [if_pos quote] at h ⊢
    obtain ⟨m, found, same⟩ := Option.map_eq_some_iff.1 h
    cases same
    obtain ⟨also, within⟩ := Quoted.extent_append found (other (by decide))
    rw [also]
    exact ⟨rfl, within⟩
  · rw [if_neg quote] at h ⊢
    rw [blankExtent_append marked, numberExtent_append marked.ends.stops,
      wordExtent_append marked.ends.stops]
    simp only [feed]
    refine ⟨h, ?_⟩
    split at h
    · cases h
      split
      · next first =>
        cases cs with
        | nil => cases first
        | cons d cs => exact Nat.succ_le_succ (Nat.zero_le _)
      · exact Nat.zero_le _
    split at h
    · cases h
      exact Nat.zero_le _
    split at h
    · cases h
      exact (List.takeWhile_sublist _).length_le
    split at h
    · cases h
      exact Nat.zero_le _
    split at h
    · have bound := numberExtent_le cs filter
      rwa [Option.some.inj h] at bound
    split at h
    · cases h
      exact wordExtent_le cs filter
    · cases h
      exact Nat.zero_le _

end Options

theorem said?_append {cs rest : List Char} {ts : List Token} (h : said? cs = some ts) (marked : Marked rest) :
    said? (cs ++ rest) = (said? rest).map (ts ++ ·) := by
  induction size : cs.length using Nat.strongRecOn generalizing cs ts with
  | ind size ih =>
    subst size
    cases cs with
    | nil =>
      rw [said?_nil] at h
      cases h
      exact (Option.map_id' ..).symm
    | cons c cs =>
      obtain ⟨kind, n, us, found, later, -⟩ := said?_cases h
      obtain ⟨also, within⟩ := Options.token?_append_of_marked found marked
      have shorter : (cs.drop n).length < (c :: cs).length := by
        simp only [List.length_drop, List.length_cons]
        omega
      rw [said?_cons found, later] at h
      cases h
      rw [List.cons_append, said?_cons also, List.drop_append_of_le_length within,
        List.take_append_of_le_length within, ih _ shorter later rfl, Option.map_map]
      congr 1
      funext more
      dsimp only [Function.comp]
      split <;> rfl

def opening : Token := ⟨.symbol, "(", .start⟩

def closing : Token := ⟨.symbol, ")", .start⟩

theorem said?_enclosed {cs : List Char} {ts : List Token} (h : said? cs = some ts) (rest : List Char) :
    said? ('(' :: (cs ++ ')' :: rest)) = (said? rest).map fun us => opening :: (ts ++ closing :: us) := by
  have opens : '(' ∈ Options.filter.symbols := by decide
  have closes : ')' ∈ Options.filter.symbols := by decide
  rw [said?_symbol opens, said?_append h (marked_cons closes rest), said?_symbol closes, Option.map_map,
    Option.map_map]
  rfl

end Token

end WhereClause
