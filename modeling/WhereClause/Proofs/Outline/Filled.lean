import WhereClause.Proofs.Expr.Filled
import WhereClause.Proofs.Outline.Every

namespace WhereClause

theorem Operator.mem_implemented_of_find? {word : String} {op : Operator} (h : find? word = some op) :
    op ∈ implemented := List.mem_filter.2 (mem_table_of_find? h)

theorem Atom.filled_ofToken (v : Vocabulary) (name : String) (t : Token) : (ofToken v name t).Filled := by
  unfold ofToken
  split
  · next op found =>
    unfold Token.operator? at found
    split at found
    · exact Operator.mem_implemented_of_find? found
    · cases found
  · split
    · trivial
    · split
      · trivial
      · split
        · trivial
        · split <;> trivial

namespace Node

theorem filled_keeps : Keeps (fun n c => Every Atom.Filled [n] → c.Filled)
    (fun ns cs => Every Atom.Filled ns → ∀ c ∈ cs, c.Filled)
    (fun ns as => Every Atom.Filled ns → ∀ a ∈ as, a.Filled) :=
  keeps_of_formed Expr.Filled (fun _ _ formed => formed.filled) (fun _ h => h)
    (fun _ h => h) (fun _ _ h => h) trivial (fun _ h => h) fun _ _ => Condition.filled_join

end Node

theorem Condition.filled_of_compile {s : Settings} {v : Vocabulary} {filter : String} {c : Condition}
    (h : (compile s v filter).result = .ok c) : c.Filled := by
  obtain ⟨outline, found, compiled⟩ := compile_eq_ok.1 h
  exact Node.filled_keeps.compile compiled (Node.every_ofFilter found (Atom.filled_ofToken v))

end WhereClause
