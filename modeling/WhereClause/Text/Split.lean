namespace WhereClause.Text

def parts (separator : Char) : List Char → List (List Char)
  | [] => [[]]
  | c :: cs =>
    if c = separator then [] :: parts separator cs
    else
      match parts separator cs with
      | [] => [[c]]
      | first :: rest => (c :: first) :: rest

def cut? (separator : Char) : List Char → Option (List Char × List Char)
  | [] => none
  | c :: cs => if c = separator then some ([], cs) else (cut? separator cs).map fun p => (c :: p.1, p.2)

def cutLast? (separator : Char) (cs : List Char) : Option (List Char × List Char) :=
  (cut? separator cs.reverse).map fun p => (p.2.reverse, p.1.reverse)

def firstLine (cs : List Char) : List Char :=
  match cut? '\n' cs with
  | some (line, _) => if line.getLast? = some '\r' then line.dropLast else line
  | none => cs

theorem eq_append_of_cut? {separator : Char} {cs before after : List Char}
    (h : cut? separator cs = some (before, after)) : cs = before ++ separator :: after := by
  induction cs generalizing before after with
  | nil => simp [cut?] at h
  | cons c cs ih =>
    simp only [cut?] at h
    split at h
    · obtain ⟨rfl, rfl⟩ := Prod.mk.inj (Option.some.inj h)
      simp_all
    · obtain ⟨⟨first, second⟩, found, same⟩ := Option.map_eq_some_iff.1 h
      obtain ⟨rfl, rfl⟩ := Prod.mk.inj same
      simp [ih found]

theorem eq_append_of_cutLast? {separator : Char} {cs before after : List Char}
    (h : cutLast? separator cs = some (before, after)) : cs = before ++ separator :: after := by
  obtain ⟨⟨first, second⟩, found, same⟩ := Option.map_eq_some_iff.1 h
  obtain ⟨rfl, rfl⟩ := Prod.mk.inj same
  have whole := congrArg List.reverse (eq_append_of_cut? found)
  simpa using whole

end WhereClause.Text
