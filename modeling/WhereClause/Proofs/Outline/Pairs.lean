import WhereClause.Proofs.Outline.Leaves
import WhereClause.Proofs.Outline.Nest

namespace WhereClause

namespace Node

variable {α : Type}

mutual

def nodes : Node α → List (Node α)
  | .run items cs => .run items cs :: nodesOf cs
  | .marker j word => [.marker j word]
  | .group cs => .group cs :: nodesOf cs
  | .boolGroup cs => .boolGroup cs :: nodesOf cs
  | .call name cs => .call name cs :: nodesOf cs

def nodesOf : List (Node α) → List (Node α)
  | [] => []
  | n :: ns => n.nodes ++ nodesOf ns

end

theorem nodes_eq (n : Node α) : n.nodes = n :: nodesOf n.children := by
  cases n <;> rfl

theorem nodesOf_eq (ns : List (Node α)) : nodesOf ns = ns.flatMap nodes := by
  induction ns with
  | nil => rfl
  | cons n ns ih => simp [nodesOf, ih]

def own : Node α → List α
  | .run items _ => items
  | .call name _ => [name]
  | _ => []

mutual

theorem leaves_eq_own : (n : Node α) → n.leaves = n.nodes.flatMap own
  | .run items cs => by simp [leaves, nodes, own, leavesOf_eq_own cs]
  | .marker .. => rfl
  | .group cs => by simp [leaves, nodes, own, leavesOf_eq_own cs]
  | .boolGroup cs => by simp [leaves, nodes, own, leavesOf_eq_own cs]
  | .call name cs => by simp [leaves, nodes, own, leavesOf_eq_own cs]

theorem leavesOf_eq_own : (ns : List (Node α)) → leavesOf ns = (nodesOf ns).flatMap own
  | [] => rfl
  | n :: ns => by simp [leavesOf, nodesOf, leaves_eq_own n, leavesOf_eq_own ns]

end

def scopesOf (ns : List (Node α)) : List (Node α) := (nodesOf ns).filter isScope

theorem scopesOf_append (ns ms : List (Node α)) : scopesOf (ns ++ ms) = scopesOf ns ++ scopesOf ms := by
  simp [scopesOf, nodesOf_eq]

theorem scopesOf_singleton (n : Node α) :
    scopesOf [n] = (if n.isScope then [n] else []) ++ scopesOf n.children := by
  rw [scopesOf, nodesOf, nodesOf, List.append_nil, nodes_eq, List.filter_cons]
  split <;> rfl

theorem scopesOf_pruneAll_cons (n : Node α) (ns : List (Node α)) :
    scopesOf (pruneAll (n :: ns)) = scopesOf (pruneAll [n]) ++ scopesOf (pruneAll ns) := by
  rw [pruneAll_cons, scopesOf_append]

theorem scopesOf_pruneAll_run (items : List α) (cs : List (Node α)) :
    scopesOf (pruneAll [.run items cs]) = scopesOf (pruneAll cs) := by
  rw [pruneAll_run]
  split
  · next bare => rw [bare.2]
  · exact scopesOf_singleton _

theorem scopesOf_pruneAll_scope {n : Node α} (scope : n.isScope = true) :
    scopesOf (pruneAll [n]) = pruneAll [n] ++ scopesOf (pruneAll n.children) := by
  cases n with
  | run items cs => cases scope
  | marker j word => cases scope
  | group cs =>
    rw [pruneAll_group, children]
    split
    · next bare => rw [bare, List.nil_append]
    · exact scopesOf_singleton _
  | boolGroup cs =>
    rw [pruneAll_boolGroup, children]
    split
    · next bare => rw [bare, List.nil_append]
    · exact scopesOf_singleton _
  | call name cs =>
    rw [pruneAll_call, children]
    exact scopesOf_singleton _

mutual

theorem not_isBare_of_mem_prune {m : Node α} : (n : Node α) → m ∈ nodesOf n.prune.children →
    m.isBare = false
  | .run _ cs, h => not_isBare_of_mem_pruneAll cs h
  | .marker .., h => by cases h
  | .group cs, h => not_isBare_of_mem_pruneAll cs h
  | .boolGroup cs, h => not_isBare_of_mem_pruneAll cs h
  | .call _ cs, h => not_isBare_of_mem_pruneAll cs h

theorem not_isBare_of_mem_pruneAll {m : Node α} : (ns : List (Node α)) → m ∈ nodesOf (pruneAll ns) →
    m.isBare = false
  | [], h => by cases h
  | n :: ns, h => by
    unfold pruneAll at h
    split at h
    · exact not_isBare_of_mem_pruneAll ns h
    · next bare =>
      rw [nodesOf, nodes_eq, List.cons_append, List.mem_cons, List.mem_append] at h
      rcases h with rfl | below | later
      · simpa using bare
      · exact not_isBare_of_mem_prune n below
      · exact not_isBare_of_mem_pruneAll ns later

end

end Node

namespace Nest

variable {α : Type}

def junctions : Nest α → List Junction
  | .nil => []
  | .leaf _ rest => rest.junctions
  | .joint j _ rest => j :: rest.junctions
  | .pair _ rest => rest.junctions

/-- The pairs inside, each before those in it, with the name of the function if a pair is a call; `last` is
    the token right before. -/
def pairs (calls : α → Bool) : Option α → Nest α → List (Option α × Nest α)
  | _, .nil => []
  | _, .leaf item rest => pairs calls (some item) rest
  | _, .joint _ _ rest => pairs calls none rest
  | last, .pair inner rest =>
    (last.filter calls, inner) :: (pairs calls none inner ++ pairs calls none rest)

def allPairs (calls : α → Bool) (n : Nest α) : List (Option α × Nest α) :=
  (none, n) :: n.pairs calls none

theorem calls_of_mem_pairs {calls : α → Bool} {n : Nest α} {last : Option α} {p : Option α × Nest α}
    (h : p ∈ n.pairs calls last) : ∀ name ∈ p.1, calls name = true := by
  induction n generalizing last with
  | nil => cases h
  | leaf item rest ih => exact ih h
  | joint j word rest ih => exact ih h
  | pair inner rest inside after =>
    rcases List.mem_cons.1 h with rfl | further
    · intro name named
      exact (Option.filter_eq_some_iff.1 named).2
    · rcases List.mem_append.1 further with held | later
      · exact inside held
      · exact after later

theorem hasJoint_iff {n : Nest α} : n.hasJoint = true ↔ n.junctions ≠ [] := by
  induction n <;> simp_all [hasJoint, junctions]

variable (calls : α → Bool)

theorem allPairs_enclosed (n : Nest α) :
    n.allPairs calls = n.enclosed.allPairs calls ∨
      n.hasJoint = false ∧ n.allPairs calls = (none, n) :: n.enclosed.allPairs calls := by
  cases n with
  | pair inner rest =>
    cases rest with
    | nil => exact Or.inr ⟨rfl, by simp [allPairs, enclosed, pairs]⟩
    | _ => exact Or.inl rfl
  | _ => exact Or.inl rfl

def pairNode (p : Option α × Nest α) : Node α :=
  match p.1 with
  | some name => .call name (p.2.children calls)
  | none => p.2.node calls

theorem mem_pruneAll_pairNode {p : Option α × Nest α} {k : Node α}
    (h : k ∈ Node.pruneAll [pairNode calls p]) :
    (∃ name, p.1 = some name ∧ k = .call name (Node.pruneAll (p.2.children calls))) ∨
      k = .boolGroup (Node.pruneAll (p.2.children calls)) ∨
      k = .group (Node.pruneAll (p.2.children calls)) := by
  unfold pairNode node at h
  split at h
  · next name named =>
    rw [Node.pruneAll_call] at h
    exact Or.inl ⟨name, named, List.mem_singleton.1 h⟩
  · split at h
    · rw [Node.pruneAll_boolGroup] at h
      split at h
      · cases h
      · exact Or.inr (Or.inl (List.mem_singleton.1 h))
    · rw [Node.pruneAll_group] at h
      split at h
      · cases h
      · exact Or.inr (Or.inr (List.mem_singleton.1 h))

theorem pairNode_isScope (p : Option α × Nest α) :
    (pairNode calls p).isScope = true ∧ (pairNode calls p).children = p.2.children calls := by
  unfold pairNode node
  split
  · exact ⟨rfl, rfl⟩
  · split <;> exact ⟨rfl, rfl⟩

theorem paired_snd (items : List α) (n : Nest α) : (paired calls items n.hasJoint (n.children calls)).2 =
    pairNode calls (items.getLast?.filter calls, n) := by
  unfold paired pairNode
  cases items.getLast?.filter calls <;> rfl

theorem scopesOf_outline (n : Nest α) (items : List α) :
    Node.scopesOf (Node.pruneAll ((outline calls items n).1 :: (outline calls items n).2)) =
      (n.pairs calls items.getLast?).flatMap fun p => Node.pruneAll [pairNode calls p] := by
  induction n generalizing items with
  | nil =>
    rw [outline, Node.scopesOf_pruneAll_run]
    rfl
  | leaf item rest ih => rw [outline, ih, pairs, List.getLast?_concat]
  | joint j word rest ih =>
    rw [outline, Node.scopesOf_pruneAll_cons, Node.scopesOf_pruneAll_cons (.marker j word),
      Node.scopesOf_pruneAll_run, ih]
    rfl
  | pair inner rest inside after =>
    have held : Node.scopesOf (Node.pruneAll (inner.children calls)) = _ := inside []
    have later := after []
    rw [Node.scopesOf_pruneAll_cons] at later
    rw [outline, Node.scopesOf_pruneAll_cons, Node.scopesOf_pruneAll_run, Node.scopesOf_pruneAll_cons,
      List.append_assoc, later]
    change Node.scopesOf (Node.pruneAll [(paired calls items inner.hasJoint (inner.children calls)).2]) ++
      _ = _
    have scope := pairNode_isScope calls (items.getLast?.filter calls, inner)
    rw [paired_snd, Node.scopesOf_pruneAll_scope scope.1, scope.2, held, pairs, List.flatMap_cons,
      List.flatMap_append, List.append_assoc]
    rfl

theorem scopesOf_node (n : Nest α) : Node.scopesOf (Node.pruneAll [n.node calls]) =
    (n.allPairs calls).flatMap fun p => Node.pruneAll [pairNode calls p] := by
  have scope := pairNode_isScope calls (none, n)
  have below : Node.scopesOf (Node.pruneAll (n.children calls)) = _ := scopesOf_outline calls n []
  have own : pairNode calls (none, n) = n.node calls := rfl
  rw [own] at scope
  rw [Node.scopesOf_pruneAll_scope scope.1, scope.2, below, allPairs, List.flatMap_cons, own]
  rfl

theorem exists_run_outline (n : Nest α) (items : List α) :
    ∃ own cs, (outline calls items n).1 = .run own cs := by
  induction n generalizing items with
  | leaf item rest ih => exact ih (items ++ [item])
  | _ => exact ⟨_, _, rfl⟩

theorem markers_run (items : List α) (cs : List (Node α)) :
    (Node.pruneAll [.run items cs]).filterMap Node.junction? = [] ∧
      ((Node.pruneAll [.run items cs]).filter fun m => !m.isMarker).length ≤ 1 := by
  rw [Node.pruneAll_run]
  split
  · simp
  · exact ⟨rfl, Nat.le_refl 1⟩

theorem markers_rest (n : Nest α) (items : List α) :
    (Node.pruneAll (outline calls items n).2).filterMap Node.junction? = n.junctions ∧
      ((Node.pruneAll (outline calls items n).2).filter fun m => !m.isMarker).length ≤
        n.junctions.length := by
  induction n generalizing items with
  | nil => exact ⟨rfl, Nat.le_refl 0⟩
  | leaf item rest ih => exact ih (items ++ [item])
  | joint j word rest ih =>
    obtain ⟨words, between⟩ := ih []
    obtain ⟨own, cs, run⟩ := exists_run_outline calls rest []
    obtain ⟨none, one⟩ := markers_run own cs
    have marker : ([(.marker j word : Node α)].filter fun m => !m.isMarker).length = 0 := rfl
    rw [outline, Node.pruneAll_cons, Node.pruneAll_cons (outline calls [] rest).1, run,
      Node.pruneAll_marker, junctions]
    constructor
    · rw [List.filterMap_append, List.filterMap_append, none, words]
      rfl
    · simp only [List.filter_append, List.length_append, List.length_cons, marker]
      omega
  | pair inner rest inside after => exact after []

theorem markers_children (n : Nest α) :
    (Node.pruneAll (n.children calls)).filterMap Node.junction? = n.junctions ∧
      ((Node.pruneAll (n.children calls)).filter fun m => !m.isMarker).length ≤
        n.junctions.length + 1 := by
  obtain ⟨words, between⟩ := markers_rest calls n []
  obtain ⟨own, cs, run⟩ := exists_run_outline calls n []
  obtain ⟨none, one⟩ := markers_run own cs
  rw [children, Node.pruneAll_cons, run]
  constructor
  · rw [List.filterMap_append, none, words, List.nil_append]
  · simp only [List.filter_append, List.length_append]
    omega

end Nest

end WhereClause
