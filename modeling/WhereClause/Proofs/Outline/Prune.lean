import WhereClause.Outline.Build

namespace WhereClause.Node

variable {α : Type}

theorem pruneAll_cons (n : Node α) (ns : List (Node α)) :
    pruneAll (n :: ns) = pruneAll [n] ++ pruneAll ns := by
  simp only [pruneAll]
  split <;> rfl

theorem pruneAll_run (items : List α) (cs : List (Node α)) :
    pruneAll [.run items cs] =
      if items = [] ∧ pruneAll cs = [] then [] else [.run items (pruneAll cs)] := by
  cases items <;> cases below : pruneAll cs <;> simp [pruneAll, prune, below, isBare]

theorem pruneAll_group (cs : List (Node α)) :
    pruneAll [.group cs] = if pruneAll cs = [] then [] else [.group (pruneAll cs)] := by
  cases below : pruneAll cs <;> simp [pruneAll, prune, below, isBare]

theorem pruneAll_boolGroup (cs : List (Node α)) :
    pruneAll [.boolGroup cs] = if pruneAll cs = [] then [] else [.boolGroup (pruneAll cs)] := by
  cases below : pruneAll cs <;> simp [pruneAll, prune, below, isBare]

theorem pruneAll_call (name : α) (cs : List (Node α)) :
    pruneAll [.call name cs] = [.call name (pruneAll cs)] := by
  simp [pruneAll, prune, isBare]

theorem pruneAll_marker (j : Junction) (word : Token) :
    pruneAll [(.marker j word : Node α)] = [.marker j word] := by
  simp [pruneAll, prune, isBare]

end WhereClause.Node
