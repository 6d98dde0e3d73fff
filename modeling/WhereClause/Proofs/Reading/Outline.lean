import WhereClause.Condition
import WhereClause.Proofs.Outline.Every
import WhereClause.Proofs.Reading.Basic

namespace WhereClause

theorem Condition.reading_of_isEmpty {c : Condition} (h : c.isEmpty = true) : c.reading = [] := by
  cases c with
  | empty => rfl
  | test e => cases h
  | all parts => simp_all [isEmpty, reading]
  | any parts => simp_all [isEmpty, reading]

theorem Condition.reading_join (j : Junction) (cs : List Condition) :
    (join j cs).reading = cs.flatMap reading := by
  have kept : (withoutEmpty cs).flatMap reading = cs.flatMap reading := by
    induction cs with
    | nil => rfl
    | cons c cs ih =>
      unfold withoutEmpty at ih ⊢
      cases h : c.isEmpty with
      | true => simp [h, ih, reading_of_isEmpty h]
      | false => simp [h, ih]
  cases j
  · simpa [join, reading] using kept
  · simpa [join, reading] using kept

namespace Node

def Reads (ns : List (Node Lexeme)) (atoms : List Atom) : Prop :=
  atoms = (leavesOf ns).flatMap fun x => x.atom.reading

theorem reading_keeps : Keeps
    (fun n c => Reads [n] c.reading)
    (fun ns cs => Reads ns (cs.flatMap Condition.reading))
    (fun ns as => Reads ns (as.flatMap Atom.reading)) where
  bare n h := by simp [Reads, leavesOf, leaves_of_isBare h, Condition.reading]
  inner n c h := by simpa [Reads, leavesOf, leaves] using h
  redundant n c _ h := by simpa [Reads, leavesOf, leaves] using h
  run items ns as e h formed _ := by
    have whole := (Expr.formed_of_ofAtoms formed).reading
    rw [List.flatMap_append, h] at whole
    simp [Reads, leavesOf, leaves, Condition.reading, whole, List.flatMap_map]
  group ns as e h formed _ := by
    have whole := (Expr.formed_of_ofAtoms formed).reading
    rw [h] at whole
    simp [Reads, leavesOf, leaves, Condition.reading, whole]
  call name ns as e h formed _ := by
    have whole := (Expr.formed_of_ofAtoms formed).reading
    rw [List.flatMap_cons, h] at whole
    simp [Reads, leavesOf, leaves, Condition.reading, whole]
  joined ns cs h := by
    rw [Condition.reading_join, h]
    simp [Reads, leavesOf, leaves]
  noParts := rfl
  marker j word ns cs h := by simpa [Reads, leavesOf, leaves] using h
  part n ns c cs _ first rest := by
    rw [List.flatMap_cons, first, rest]
    simp [Reads, leavesOf]
  noAtoms := rfl
  items items ns rest as bs own later := by
    rw [List.flatMap_append, List.flatMap_append, own, later]
    simp [Reads, leavesOf, leaves, List.flatMap_map]
  called name ns rest as e bs own formed later := by
    have whole := (Expr.formed_of_ofAtoms formed).reading
    rw [List.flatMap_cons, own] at whole
    rw [List.flatMap_cons, later]
    simp [Reads, leavesOf, leaves, Atom.reading, whole]
  grouped ns rest as e bs own formed later := by
    have whole := (Expr.formed_of_ofAtoms formed).reading
    rw [own] at whole
    rw [List.flatMap_cons, later]
    simp [Reads, leavesOf, leaves, Atom.reading, Expr.reading, whole]
  nested ns rest cs bs own later := by
    rw [List.flatMap_cons, later]
    simp only [Atom.reading, Expr.reading]
    rw [Condition.reading_join, own]
    simp [Reads, leavesOf, leaves]

theorem reading_of_compile {n : Node Lexeme} {c : Condition} (h : n.compile.result = .ok c) :
    c.reading = n.leaves.flatMap fun x => x.atom.reading := by
  have whole := reading_keeps.compile h
  simpa [Reads, leavesOf] using whole

-- Of atoms among others it is only known that they mean something once they are part of an expression.
theorem known_keeps : Keeps (fun n _ => Every (·.unknown? = none) [n])
    (fun ns _ => Every (·.unknown? = none) ns)
    (fun ns as => (∀ a ∈ as, a.unknown? = none) → Every (·.unknown? = none) ns) where
  bare n h := every_of_isBare h
  inner n _ h := every_run.2 ⟨nofun, h⟩
  redundant n _ _ h := every_group.2 h
  run items ns as e h formed _ := by
    obtain ⟨own, below⟩ := List.forall_mem_append.1 (Expr.formed_of_ofAtoms formed).known
    exact every_run.2 ⟨own, h below⟩
  group ns as e h formed _ := every_group.2 (h (Expr.formed_of_ofAtoms formed).known)
  call name ns as e h formed _ := by
    obtain ⟨own, below⟩ := List.forall_mem_cons.1 (Expr.formed_of_ofAtoms formed).known
    exact every_call.2 ⟨own, h below⟩
  joined ns _ h := every_boolGroup.2 h
  noParts := nofun
  marker j word ns _ h := every_cons.2 ⟨every_marker, h⟩
  part n ns _ _ _ first rest := every_cons.2 ⟨first, rest⟩
  noAtoms _ := nofun
  items items ns rest as bs own later known := by
    obtain ⟨here, further⟩ := List.forall_mem_append.1 known
    obtain ⟨item, below⟩ := List.forall_mem_append.1 here
    exact every_cons.2 ⟨every_run.2 ⟨item, own below⟩, later further⟩
  called name ns rest as e bs own formed later known := by
    obtain ⟨function, below⟩ := List.forall_mem_cons.1 (Expr.formed_of_ofAtoms formed).known
    exact every_cons.2 ⟨every_call.2 ⟨function, own below⟩, later (List.forall_mem_cons.1 known).2⟩
  grouped ns rest as e bs own formed later known := by
    have below := own (Expr.formed_of_ofAtoms formed).known
    exact every_cons.2 ⟨every_group.2 below, later (List.forall_mem_cons.1 known).2⟩
  nested ns rest cs bs own later known :=
    every_cons.2 ⟨every_boolGroup.2 own, later (List.forall_mem_cons.1 known).2⟩

theorem known_of_compile {n : Node Lexeme} {c : Condition} (h : n.compile.result = .ok c) :
    ∀ x ∈ n.leaves, x.atom.unknown? = none := by
  have known := known_keeps.compile h
  simpa [Every, leavesOf] using known

end Node

end WhereClause
