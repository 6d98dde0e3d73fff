import WhereClause.Proofs.Outline.Compiled
import WhereClause.Proofs.Outline.Leaves

namespace WhereClause

theorem Event.mem_leaves_resolve {v : Vocabulary} {stem : String} {events : List (Event Token)} {n : Nat}
    {x : Lexeme} (h : x ∈ leaves (resolve v stem n events)) : ∃ t m, x = Lexeme.read v stem m t := by
  induction events generalizing n with
  | nil => cases h
  | cons event events ih =>
    cases event with
    | enter => exact ih h
    | leave => exact ih h
    | joint j word => exact ih h
    | leaf t =>
      rcases List.mem_cons.1 h with rfl | further
      · exact ⟨t, n, rfl⟩
      · exact ih further

namespace Node

def Every (p : Atom → Prop) (ns : List (Node Lexeme)) : Prop := ∀ x ∈ leavesOf ns, p x.atom

variable {p : Atom → Prop}

theorem every_cons {n : Node Lexeme} {ns : List (Node Lexeme)} :
    Every p (n :: ns) ↔ Every p [n] ∧ Every p ns := by
  simp [Every, leavesOf, or_imp, forall_and]

theorem every_run {items : List Lexeme} {ns : List (Node Lexeme)} :
    Every p [.run items ns] ↔ (∀ a ∈ items.map Lexeme.atom, p a) ∧ Every p ns := by
  simp [Every, leavesOf, leaves, or_imp, forall_and]

theorem every_group {ns : List (Node Lexeme)} : Every p [.group ns] ↔ Every p ns := by
  simp [Every, leavesOf, leaves]

theorem every_boolGroup {ns : List (Node Lexeme)} : Every p [.boolGroup ns] ↔ Every p ns := by
  simp [Every, leavesOf, leaves]

theorem every_marker {j : Junction} {word : Token} : Every p [.marker j word] := by
  simp [Every, leavesOf, leaves]

theorem every_call {name : Lexeme} {ns : List (Node Lexeme)} :
    Every p [.call name ns] ↔ p name.atom ∧ Every p ns := by
  simp [Every, leavesOf, leaves]

theorem every_of_isBare {n : Node Lexeme} (h : n.isBare = true) : Every p [n] := by
  simp [Every, leavesOf, leaves_of_isBare h]

theorem keeps_of_formed (whole : Expr → Prop) {condition : Condition → Prop}
    (formed : ∀ as e, Expr.Formed as e → (∀ a ∈ as, p a) → whole e)
    (operand : ∀ e, whole e → p (.expr e)) (group : ∀ e, whole e → p (.expr (.group e)))
    (nested : ∀ j cs, condition (Condition.join j cs) → p (.expr (.nested (Condition.join j cs))))
    (empty : condition .empty) (test : ∀ e, whole e → condition (.test e))
    (join : ∀ j cs, (∀ c ∈ cs, condition c) → condition (Condition.join j cs)) :
    Keeps (fun n c => Every p [n] → condition c)
      (fun ns cs => Every p ns → ∀ c ∈ cs, condition c)
      (fun ns as => Every p ns → ∀ a ∈ as, p a) where
  bare n _ _ := empty
  inner n c h every := h (every_run.1 every).2
  redundant n c _ h every := h (every_group.1 every)
  run items ns as e h found _ every := by
    obtain ⟨own, below⟩ := every_run.1 every
    exact test e (formed _ e (Expr.formed_of_ofAtoms found) (List.forall_mem_append.2 ⟨own, h below⟩))
  group ns as e h found _ every :=
    test e (formed as e (Expr.formed_of_ofAtoms found) (h (every_group.1 every)))
  call name ns as e h found _ every := by
    obtain ⟨own, below⟩ := every_call.1 every
    exact test e (formed _ e (Expr.formed_of_ofAtoms found) (List.forall_mem_cons.2 ⟨own, h below⟩))
  joined ns cs h every := join _ cs (h (every_boolGroup.1 every))
  noParts _ := nofun
  marker j word ns cs h every := h (every_cons.1 every).2
  part n ns c cs _ first rest every := by
    obtain ⟨own, later⟩ := every_cons.1 every
    exact List.forall_mem_cons.2 ⟨first own, rest later⟩
  noAtoms _ := nofun
  items items ns rest as bs own later every := by
    obtain ⟨here, further⟩ := every_cons.1 every
    obtain ⟨item, below⟩ := every_run.1 here
    exact List.forall_mem_append.2 ⟨List.forall_mem_append.2 ⟨item, own below⟩, later further⟩
  called name ns rest as e bs own found later every := by
    obtain ⟨here, further⟩ := every_cons.1 every
    obtain ⟨function, below⟩ := every_call.1 here
    have inner := formed _ e (Expr.formed_of_ofAtoms found)
      (List.forall_mem_cons.2 ⟨function, own below⟩)
    exact List.forall_mem_cons.2 ⟨operand e inner, later further⟩
  grouped ns rest as e bs own found later every := by
    obtain ⟨here, further⟩ := every_cons.1 every
    have inner := formed as e (Expr.formed_of_ofAtoms found) (own (every_group.1 here))
    exact List.forall_mem_cons.2 ⟨group e inner, later further⟩
  nested ns rest cs bs own later every := by
    obtain ⟨here, further⟩ := every_cons.1 every
    exact List.forall_mem_cons.2
      ⟨nested _ cs (join _ cs (own (every_boolGroup.1 here))), later further⟩

theorem exists_read_of_mem_leaves {s : Settings} {v : Vocabulary} {filter : String}
    {outline : Node Lexeme} (h : ofFilter s v filter = .ok outline) {x : Lexeme}
    (member : x ∈ outline.leaves) : ∃ t n, x = Lexeme.read v s.stem n t := by
  obtain ⟨tokens, -, -, built⟩ := ofFilter_eq_ok h
  rw [leaves_ofEvents? built] at member
  exact Event.mem_leaves_resolve member

theorem every_ofFilter {s : Settings} {v : Vocabulary} {filter : String} {outline : Node Lexeme}
    (h : ofFilter s v filter = .ok outline) (token : ∀ name t, p (Atom.ofToken v name t)) :
    Every p [outline] := by
  intro x member
  simp only [leavesOf, List.append_nil] at member
  obtain ⟨t, n, rfl⟩ := exists_read_of_mem_leaves h member
  exact token _ t

end Node

end WhereClause
