import WhereClause.Proofs.Outline.NestMap

namespace WhereClause

namespace Nest

variable {α : Type}

def depth : Nest α → Nat
  | .nil => 0
  | .leaf _ rest => rest.depth
  | .joint _ _ rest => rest.depth
  | .pair inner rest => max (inner.depth + 1) rest.depth

theorem depth_map {β : Type} (φ : α → β) (ψ : Token → Token) (n : Nest α) : (n.map φ ψ).depth = n.depth := by
  induction n <;> simp_all [map, depth]

end Nest

namespace Balance

theorem checkFrom_event (opened : List Token) (t : Token) (ts : List Token) :
    checkFrom opened (t :: ts) =
      match Event.ofToken t with
      | .enter =>
        if opened.length = limit then .error (.atToken (.tooDeep limit) t) else checkFrom (t :: opened) ts
      | .leave =>
        match opened with
        | [] => .error (.atToken .unmatchedClose t)
        | _ :: outer => checkFrom outer ts
      | _ => checkFrom opened ts := by
  rw [checkFrom.eq_def, Event.ofToken]
  dsimp only
  split
  · rfl
  · split
    · rfl
    · cases t.junction? <;> rfl

theorem checkFrom_nest {n : Nest Token} {ts us opened : List Token} (events : n.events = ts.map Event.ofToken)
    (room : opened.length ≤ limit) : checkFrom opened (ts ++ us) = .ok () ↔
      opened.length + n.depth ≤ limit ∧ checkFrom opened us = .ok () := by
  induction n generalizing ts us opened with
  | nil =>
    obtain rfl := List.map_eq_nil_iff.1 events.symm
    exact (and_iff_right room).symm
  | leaf item rest ih =>
    obtain ⟨t, ts, rfl, event, later⟩ := List.map_eq_cons_iff.1 events.symm
    rw [List.cons_append, checkFrom_event, event]
    exact ih later.symm room
  | joint j word rest ih =>
    obtain ⟨t, ts, rfl, event, later⟩ := List.map_eq_cons_iff.1 events.symm
    rw [List.cons_append, checkFrom_event, event]
    exact ih later.symm room
  | pair inner rest inside after =>
    obtain ⟨t, ts, rfl, entered, held⟩ := List.map_eq_cons_iff.1 events.symm
    obtain ⟨own, further, rfl, within, left⟩ := List.map_eq_append_iff.1 held
    obtain ⟨u, later, rfl, closed, outside⟩ := List.map_eq_cons_iff.1 left
    rw [List.cons_append, checkFrom_event, entered, List.append_assoc, Nest.depth]
    dsimp only
    split
    · next full =>
      simp only [reduceCtorEq, false_iff, not_and]
      omega
    · next free =>
      have deeper : (t :: opened).length ≤ limit := by
        simp only [List.length_cons]
        omega
      rw [inside within.symm deeper, List.cons_append, checkFrom_event, closed]
      dsimp only
      rw [after outside.symm room, List.length_cons, ← and_assoc]
      exact and_congr_left' (by omega)

/-- The tokens that pass the check are those of a nest that is not too deep. -/
theorem check_iff {ts : List Token} :
    check ts = .ok () ↔ ∃ n : Nest Token, n.events = ts.map Event.ofToken ∧ n.depth ≤ limit := by
  have passes {n : Nest Token} (events : n.events = ts.map Event.ofToken) :
      check ts = .ok () ↔ n.depth ≤ limit := by
    have outermost : checkFrom [] (ts ++ []) = .ok () ↔
        ([] : List Token).length + n.depth ≤ limit ∧ checkFrom [] [] = .ok () :=
      checkFrom_nest events (Nat.zero_le limit)
    rw [List.append_nil, List.length_nil, Nat.zero_add] at outermost
    exact outermost.trans (and_iff_left rfl)
  constructor
  · intro h
    obtain ⟨n, events⟩ := Nest.exists_of_check h
    exact ⟨n, events, (passes events).1 h⟩
  · rintro ⟨n, events, shallow⟩
    exact (passes events).2 shallow

end Balance

end WhereClause
