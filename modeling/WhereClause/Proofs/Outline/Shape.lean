import Mathlib.Data.List.Chain
import WhereClause.Proofs.Outline.Level
import WhereClause.Proofs.Outline.Pairs

namespace WhereClause

namespace Node

variable {α : Type}

mutual

theorem induction {motive : Node α → Prop} (node : ∀ n, (∀ m ∈ n.children, motive m) → motive n) :
    (n : Node α) → motive n
  | .run items cs => node (.run items cs) (inductionAll node cs)
  | .marker j word => node (.marker j word) nofun
  | .group cs => node (.group cs) (inductionAll node cs)
  | .boolGroup cs => node (.boolGroup cs) (inductionAll node cs)
  | .call name cs => node (.call name cs) (inductionAll node cs)

theorem inductionAll {motive : Node α → Prop} (node : ∀ n, (∀ m ∈ n.children, motive m) → motive n) :
    (ns : List (Node α)) → ∀ n ∈ ns, motive n
  | [] => nofun
  | n :: ns => List.forall_mem_cons.2 ⟨induction node n, inductionAll node ns⟩

end

def Parted (ns : List (Node α)) : Prop := ns.IsChain fun n m => n.isMarker = true ∨ m.isMarker = true

/-- What stands directly in a pair. -/
structure Enclosed (ns : List (Node α)) : Prop where
  runs : ∀ n ∈ ns, n.isScope = false
  parted : Parted ns

inductive Shaped : Node α → Prop where
  | run {items : List α} {cs : List (Node α)} (pairs : ∀ n ∈ cs, n.isMarker = false) : Shaped (.run items cs)
  | marker {j : Junction} {word : Token} : Shaped (.marker j word)
  | group {n : Node α} (run : n.kind = .run) : Shaped (.group [n])
  | boolGroup {cs : List (Node α)} (joined : cs.any isMarker = true) (enclosed : Enclosed cs) : Shaped (.boolGroup cs)
  | call {name : α} {cs : List (Node α)} (enclosed : Enclosed cs) : Shaped (.call name cs)

def AllShaped (ns : List (Node α)) : Prop := ∀ n ∈ nodesOf ns, Shaped n

theorem Shaped.enclosed {n : Node α} (h : n.Shaped) (scope : n.isScope = true) : Enclosed n.children := by
  cases h with
  | run pairs => cases scope
  | marker => cases scope
  | @group n run =>
    have beside : n.isScope = false := by
      cases n with
      | run items cs => rfl
      | _ => cases run
    exact ⟨List.forall_mem_singleton.2 beside, List.isChain_singleton n⟩
  | boolGroup joined enclosed => exact enclosed
  | call enclosed => exact enclosed

theorem mem_nodesOf_children {n m k : Node α} (h : m ∈ n.nodes) (child : k ∈ m.children) : k ∈ nodesOf n.children := by
  induction n using Node.induction with
  | node n ih =>
    rw [nodesOf_eq, List.mem_flatMap]
    rw [nodes_eq, nodesOf_eq, List.mem_cons, List.mem_flatMap] at h
    rcases h with rfl | ⟨c, among, within⟩
    · exact ⟨k, child, nodes_eq k ▸ List.mem_cons_self⟩
    · exact ⟨c, among, nodes_eq c ▸ List.mem_cons_of_mem c (ih c among within)⟩

theorem Shaped.parted {n : Node α} (h : n.Shaped) (joined : n.children.any isMarker = true) : Parted n.children := by
  cases scope : n.isScope with
  | true => exact (h.enclosed scope).parted
  | false =>
    cases h with
    | run pairs =>
      obtain ⟨k, among, marked⟩ := List.any_eq_true.1 joined
      rw [pairs k among] at marked
      cases marked
    | marker => cases joined
    | _ => cases scope

theorem allShaped_append {ns ms : List (Node α)} : AllShaped (ns ++ ms) ↔ AllShaped ns ∧ AllShaped ms := by
  simp only [AllShaped, nodesOf_eq, List.flatMap_append, List.forall_mem_append]

theorem allShaped_pruneAll_cons {n : Node α} {ns : List (Node α)} :
    AllShaped (pruneAll (n :: ns)) ↔ AllShaped (pruneAll [n]) ∧ AllShaped (pruneAll ns) := by
  rw [pruneAll_cons, allShaped_append]

theorem children_prune (n : Node α) : n.prune.children = pruneAll n.children := by cases n <;> rfl

theorem pruneAll_singleton (n : Node α) : pruneAll [n] = if n.prune.isBare then [] else [n.prune] := rfl

theorem isScope_prune (n : Node α) : n.prune.isScope = n.isScope := by cases n <;> rfl

theorem isMarker_prune (n : Node α) : n.prune.isMarker = n.isMarker := by cases n <;> rfl

theorem isMarker_of_isScope {n : Node α} (h : n.isScope = true) : n.isMarker = false := by
  cases n with
  | marker j word => cases h
  | _ => rfl

theorem exists_of_mem_pruneAll {k : Node α} {ns : List (Node α)} (h : k ∈ pruneAll ns) : ∃ n ∈ ns, n.prune = k := by
  rw [pruneAll_eq] at h
  exact List.mem_map.1 (List.mem_filter.1 h).1

theorem children_of_isBare {n : Node α} (h : n.isBare = true) : n.children = [] := by
  unfold isBare at h
  split at h
  · rfl
  · rfl
  · rfl
  · cases h

theorem nodesOf_pruneAll_singleton (n : Node α) :
    nodesOf (pruneAll [n]) = pruneAll [n] ++ nodesOf (pruneAll n.children) := by
  rw [pruneAll_singleton, ← children_prune]
  split
  · next bare =>
    rw [children_of_isBare bare]
    rfl
  · rw [nodesOf, nodesOf, List.append_nil, nodes_eq]
    rfl

theorem allShaped_pruneAll_singleton {n : Node α} :
    AllShaped (pruneAll [n]) ↔ (∀ k ∈ pruneAll [n], Shaped k) ∧ AllShaped (pruneAll n.children) := by
  rw [AllShaped, nodesOf_pruneAll_singleton, List.forall_mem_append]
  rfl

theorem allShaped_pruneAll_run {items : List α} {cs : List (Node α)} (pairs : ∀ n ∈ cs, n.isMarker = false)
    (below : AllShaped (pruneAll cs)) : AllShaped (pruneAll [.run items cs]) := by
  refine allShaped_pruneAll_singleton.2 ⟨fun k member => ?_, below⟩
  obtain ⟨n, only, rfl⟩ := exists_of_mem_pruneAll member
  cases List.mem_singleton.1 only
  refine .run fun k kept => ?_
  obtain ⟨n, among, rfl⟩ := exists_of_mem_pruneAll kept
  rw [isMarker_prune, pairs n among]

end Node

namespace Nest

open Node

variable {α : Type} (calls : α → Bool)

theorem parted_cons_outline (n : Nest α) (items : List α) (k : Node α) :
    Parted (k :: pruneAll (outline calls items n).2) := by
  induction n generalizing items k with
  | nil => exact List.isChain_singleton k
  | leaf item rest ih => exact ih (items ++ [item]) k
  | joint j word rest ih =>
    have marked : Parted (.marker j word :: pruneAll (children calls rest)) := by
      rw [children, pruneAll_cons, pruneAll_singleton]
      split
      · exact ih [] (.marker j word)
      · exact List.isChain_cons_cons.2 ⟨Or.inl rfl, ih [] _⟩
    rw [outline, pruneAll_cons, pruneAll_marker]
    exact List.isChain_cons_cons.2 ⟨Or.inr rfl, marked⟩
  | pair inner rest inside after => exact after [] k

theorem runs_outline (n : Nest α) (items : List α) :
    ∀ k ∈ (outline calls items n).1 :: (outline calls items n).2, k.isScope = false := by
  induction n generalizing items with
  | nil => exact List.forall_mem_singleton.2 rfl
  | leaf item rest ih => exact ih (items ++ [item])
  | joint j word rest ih => exact List.forall_mem_cons.2 ⟨rfl, List.forall_mem_cons.2 ⟨rfl, ih []⟩⟩
  | pair inner rest inside after => exact List.forall_mem_cons.2 ⟨rfl, (List.forall_mem_cons.1 (after [])).2⟩

theorem enclosed_children (n : Nest α) : Enclosed (pruneAll (n.children calls)) where
  runs k kept := by
    obtain ⟨m, among, rfl⟩ := exists_of_mem_pruneAll kept
    rw [isScope_prune, runs_outline calls n [] m among]
  parted := by
    rw [children, pruneAll_cons, pruneAll_singleton]
    split
    · exact (parted_cons_outline calls n [] (.run [] [])).tail
    · exact parted_cons_outline calls n [] _

theorem outline_of_not_hasJoint {n : Nest α} (h : n.hasJoint = false) (items : List α) :
    (outline calls items n).2 = [] := by
  induction n generalizing items with
  | nil => rfl
  | leaf item rest ih => exact ih h (items ++ [item])
  | joint j word rest ih => cases h
  | pair inner rest inside after => exact after h []

theorem any_isMarker {ns : List (Node α)} (h : ns.filterMap junction? ≠ []) : ns.any isMarker = true := by
  obtain ⟨j, among⟩ := List.exists_mem_of_ne_nil _ h
  obtain ⟨n, member, found⟩ := List.mem_filterMap.1 among
  refine List.any_eq_true.2 ⟨n, member, ?_⟩
  cases n with
  | marker j word => rfl
  | _ => cases found

theorem shaped_pairNode {p : Option α × Nest α} {k : Node α} (kept : k ∈ pruneAll [pairNode calls p]) : Shaped k := by
  obtain ⟨name, n⟩ := p
  cases name with
  | some name =>
    rw [pairNode, pruneAll_call, List.mem_singleton] at kept
    rw [kept]
    exact .call (enclosed_children calls n)
  | none =>
    rw [pairNode, node] at kept
    cases joined : n.hasJoint with
    | false =>
      obtain ⟨items, cs, run⟩ := exists_run_outline calls n []
      rw [joined, if_neg Bool.false_ne_true, pruneAll_group, children, outline_of_not_hasJoint calls joined, run,
        pruneAll_run] at kept
      by_cases bare : items = [] ∧ pruneAll cs = []
      · rw [if_pos bare, if_pos rfl] at kept
        cases kept
      · rw [if_neg bare, if_neg (List.cons_ne_nil _ _), List.mem_singleton] at kept
        rw [kept]
        exact .group rfl
    | true =>
      rw [joined, if_pos rfl, pruneAll_boolGroup] at kept
      split at kept
      · cases kept
      · have words := (markers_children calls n).1
        rw [List.mem_singleton.1 kept]
        exact .boolGroup (any_isMarker (words ▸ hasJoint_iff.1 joined)) (enclosed_children calls n)

theorem allShaped_outline (n : Nest α) (items : List α) :
    AllShaped (pruneAll ((outline calls items n).1 :: (outline calls items n).2)) := by
  induction n generalizing items with
  | nil => exact allShaped_pruneAll_run nofun nofun
  | leaf item rest ih => exact ih (items ++ [item])
  | joint j word rest ih =>
    have marker : AllShaped (pruneAll [(.marker j word : Node α)]) := List.forall_mem_singleton.2 .marker
    exact allShaped_pruneAll_cons.2 ⟨allShaped_pruneAll_run nofun nofun, allShaped_pruneAll_cons.2 ⟨marker, ih []⟩⟩
  | pair inner rest inside after =>
    obtain ⟨first, later⟩ := allShaped_pruneAll_cons.1 (after [])
    obtain ⟨scope, held⟩ := pairNode_isScope calls (items.getLast?.filter calls, inner)
    have pair : AllShaped (pruneAll [pairNode calls (items.getLast?.filter calls, inner)]) :=
      allShaped_pruneAll_singleton.2 ⟨fun k => shaped_pairNode calls, held.symm ▸ inside []⟩
    have unmarked : ∀ n ∈ [pairNode calls (items.getLast?.filter calls, inner), (outline calls [] rest).1],
        n.isMarker = false := by
      obtain ⟨own, cs, run⟩ := exists_run_outline calls rest []
      rw [run]
      exact List.forall_mem_cons.2 ⟨isMarker_of_isScope scope, List.forall_mem_singleton.2 rfl⟩
    rw [← paired_snd] at pair unmarked
    exact allShaped_pruneAll_cons.2 ⟨allShaped_pruneAll_run unmarked (allShaped_pruneAll_cons.2 ⟨pair, first⟩), later⟩

theorem allShaped_node (n : Nest α) : AllShaped (pruneAll [n.node calls]) := by
  obtain ⟨-, held⟩ := pairNode_isScope calls (none, n)
  exact allShaped_pruneAll_singleton.2
    ⟨fun k => shaped_pairNode calls (p := (none, n)), held.symm ▸ allShaped_outline calls n []⟩

end Nest

namespace Node

/-- The outline of tokens is a run, all of whose nodes are shaped, and which has none without tokens and children. -/
theorem shaped_ofTokens {ts : List Token} {root : Node Token} (h : ofTokens ts = .ok root) :
    root.kind = .run ∧ (∀ n ∈ root.nodes, n.Shaped) ∧ ∀ n ∈ nodesOf root.children, n.isBare = false := by
  obtain ⟨n, -, -, rfl⟩ := ofTokens_eq_ok.1 h
  have outer : Shaped (.run [] (pruneAll [n.enclosed.node Token.namesFunction])) := by
    refine .run fun k kept => ?_
    obtain ⟨pair, only, rfl⟩ := exists_of_mem_pruneAll kept
    rw [List.mem_singleton.1 only, isMarker_prune]
    exact isMarker_of_isScope (Nest.pairNode_isScope Token.namesFunction (none, n.enclosed)).1
  rw [nodes_eq]
  exact ⟨rfl, List.forall_mem_cons.2 ⟨outer, Nest.allShaped_node Token.namesFunction n.enclosed⟩,
    fun k => not_isBare_of_mem_pruneAll [n.enclosed.node Token.namesFunction]⟩

end Node

end WhereClause
