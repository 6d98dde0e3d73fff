import WhereClause.Proofs.Junction.Basic
import WhereClause.Proofs.Outline.Every
import WhereClause.Proofs.Outline.NestMap
import WhereClause.Proofs.Reading.Filter

namespace WhereClause

theorem Atom.ofToken_ne_expr (v : Vocabulary) (name : String) (t : Token) (e : Expr) :
    ofToken v name t ≠ .expr e := by
  intro same
  cases comma : t.isComma with
  | true =>
    rw [ofToken_of_isComma v name comma] at same
    cases same
  | false =>
    have simple := isSimple_ofToken v name comma
    rw [same] at simple
    cases simple

theorem Token.exists_operator_of_namesFunction {t : Token} (h : t.namesFunction = true) :
    ∃ op, t.operator? = some op := by
  obtain ⟨word, function⟩ := Bool.and_eq_true_iff.1 h
  obtain ⟨op, found, -⟩ := (Option.any_eq_true ..).1 function
  refine ⟨op, ?_⟩
  have kind : t.kind = .word := of_decide_eq_true word
  rw [operator?, if_pos kind]
  exact found

theorem Lexeme.isOperator_of_namesFunction {v : Vocabulary} {stem : String} {n : Nat} {t : Token}
    (h : (read v stem n t).namesFunction = true) : (read v stem n t).atom.isOperator = true := by
  obtain ⟨op, operator⟩ : ∃ op, t.operator? = some op := Token.exists_operator_of_namesFunction h
  rw [read, Atom.ofToken, operator]
  rfl

namespace Nest

/-- The joined condition that a pair of a filter gives: its word is the first one directly in the pair, and
    it has one part more than there are words. -/
def Joins {α : Type} (n : Nest α) (join : Junction × List Condition) : Prop :=
  n.junctions.head? = some join.1 ∧ join.2.length = n.junctions.length + 1 ∧ ∀ c ∈ join.2, c.Proper

def mixed {α : Type} (n : Nest α) : List Warning :=
  match n.junctions with
  | [] => []
  | j :: js => if js.any (· ≠ j) then [.mixed j] else []

/-- What the pairs of a filter give when it is compiled, each with the name of the function if it is a
    call. -/
structure Give {α : Type} (ps : List (Option α × Nest α)) (joins : List (Junction × List Condition))
    (ws : List Warning) : Prop where
  calls : ∀ p ∈ ps, p.1.isSome = true → p.2.hasJoint = false
  joins : List.Forall₂ (fun p join => p.2.Joins join) (ps.filter (·.2.hasJoint)) joins
  warnings : ws = (ps.filter (·.2.hasJoint)).flatMap (·.2.mixed)

variable {n : Nest Lexeme}

theorem mixed_children : Node.mixed (Node.pruneAll (n.children Lexeme.namesFunction)) = n.mixed := by
  have words := (markers_children Lexeme.namesFunction n).1
  have first : Node.firstJunction (Node.pruneAll (n.children Lexeme.namesFunction)) =
      n.junctions.head?.getD .all := by
    rw [Node.firstJunction, ← List.head?_filterMap, words]
  rw [Node.mixed, words, first, mixed]
  cases n.junctions with
  | nil => rfl
  | cons j js =>
    simp only [List.head?_cons, Option.getD_some, List.any_cons, ne_eq, not_true_eq_false,
      decide_false, Bool.false_or]
    rfl

theorem joins_of_joinedFrom {join : Junction × List Condition} (joined : n.hasJoint = true)
    (h : Node.JoinedFrom join (Node.pruneAll (n.children Lexeme.namesFunction))) : n.Joins join := by
  obtain ⟨first, count, proper⟩ := h
  have words := (markers_children Lexeme.namesFunction n).1
  rw [Node.firstJunction, ← List.head?_filterMap, words] at first
  rw [words] at count
  refine ⟨?_, count, proper⟩
  cases found : n.junctions with
  | nil => exact absurd found (hasJoint_iff.1 joined)
  | cons j js => simp [first, found]

theorem parted_pairNode (p : Option Lexeme × Nest Lexeme) :
    (Node.pruneAll [pairNode Lexeme.namesFunction p]).filterMap Node.parted? =
      if p.1 = none ∧ p.2.hasJoint = true then
        [Node.pruneAll (p.2.children Lexeme.namesFunction)] else [] := by
  obtain ⟨name, inner⟩ := p
  cases name with
  | some name => simp [pairNode, Node.pruneAll_call, Node.parted?]
  | none =>
    cases joined : inner.hasJoint with
    | false =>
      simp only [pairNode, node, joined, Bool.false_eq_true, if_false, and_false]
      rw [Node.pruneAll_group]
      split <;> rfl
    | true =>
      have full : Node.pruneAll (inner.children Lexeme.namesFunction) ≠ [] := by
        intro bare
        have words := (markers_children Lexeme.namesFunction inner).1
        rw [bare] at words
        exact hasJoint_iff.1 joined words.symm
      simp only [pairNode, node, joined, if_true, and_self]
      rw [Node.pruneAll_boolGroup, if_neg full]
      rfl

theorem unjoined_call {ws : List Warning} {joins : List (Junction × List Condition)}
    (h : Node.Compiled (Node.pruneAll [n.node Lexeme.namesFunction]) ws joins) :
    ∀ p ∈ n.allPairs Lexeme.namesFunction, p.1.isSome = true → p.2.hasJoint = false := by
  rintro ⟨name, inner⟩ member named
  obtain ⟨name, rfl⟩ := Option.isSome_iff_exists.1 named
  have scope : Node.call name (Node.pruneAll (inner.children Lexeme.namesFunction)) ∈
      Node.scopesOf (Node.pruneAll [n.node Lexeme.namesFunction]) := by
    rw [scopesOf_node]
    refine List.mem_flatMap.2 ⟨_, member, ?_⟩
    rw [pairNode, Node.pruneAll_call]
    exact List.mem_singleton.2 rfl
  have unmarked := h.calls _ _ (List.mem_filter.1 scope).1
  have none : inner.junctions = [] := by
    rw [← (markers_children Lexeme.namesFunction inner).1, List.filterMap_eq_nil_iff]
    intro m inside
    cases m with
    | marker j word => cases unmarked _ inside
    | _ => rfl
  simpa [none] using (hasJoint_iff (n := inner)).not

theorem parted_node (calls : ∀ p ∈ n.allPairs Lexeme.namesFunction, p.1.isSome = true →
      p.2.hasJoint = false) :
    (Node.nodesOf (Node.pruneAll [n.node Lexeme.namesFunction])).filterMap Node.parted? =
      ((n.allPairs Lexeme.namesFunction).filter (·.2.hasJoint)).map fun p =>
        Node.pruneAll (p.2.children Lexeme.namesFunction) := by
  have scopes (ns : List (Node Lexeme)) :
      (Node.nodesOf ns).filterMap Node.parted? = (Node.scopesOf ns).filterMap Node.parted? := by
    rw [Node.scopesOf, List.filterMap_filter]
    congr 1
    funext m
    cases m <;> rfl
  rw [scopes, scopesOf_node, List.filterMap_flatMap]
  simp only [parted_pairNode]
  generalize n.allPairs Lexeme.namesFunction = ps at calls ⊢
  induction ps with
  | nil => rfl
  | cons p ps ih =>
    obtain ⟨own, rest⟩ := List.forall_mem_cons.1 calls
    rw [List.flatMap_cons, ih rest]
    cases name : p.1 with
    | none => cases joined : p.2.hasJoint <;> simp [joined]
    | some name => simp [own (by simp [name])]

theorem joins_of_compiled {ws : List Warning} {joins : List (Junction × List Condition)}
    (h : Node.Compiled (Node.pruneAll [n.node Lexeme.namesFunction]) ws joins) :
    Give (n.allPairs Lexeme.namesFunction) joins ws := by
  have calls := unjoined_call h
  have parted := parted_node calls
  refine ⟨calls, ?_, ?_⟩
  · have joined := h.joins
    rw [parted, List.forall₂_map_right_iff] at joined
    have inside : ∀ p ∈ (n.allPairs Lexeme.namesFunction).filter (·.2.hasJoint), p.2.hasJoint = true :=
      fun p member => (List.mem_filter.1 member).2
    refine ((List.forall₂_and_left ..).2 ⟨inside, joined.flip⟩).imp ?_
    rintro p join ⟨here, from_⟩
    exact joins_of_joinedFrom here from_
  · rw [h.warnings, parted, List.flatMap_map]
    simp only [mixed_children]

theorem Give.ofEnclosed {ws : List Warning} {joins : List (Junction × List Condition)}
    (h : Give (n.enclosed.allPairs Lexeme.namesFunction) joins ws) :
    Give (n.allPairs Lexeme.namesFunction) joins ws := by
  rcases allPairs_enclosed Lexeme.namesFunction n with same | ⟨none, same⟩
  · rwa [same]
  · have dropped : ((n.allPairs Lexeme.namesFunction).filter (·.2.hasJoint)) =
        (n.enclosed.allPairs Lexeme.namesFunction).filter (·.2.hasJoint) := by
      rw [same, List.filter_cons_of_neg (by simp [none])]
    refine ⟨?_, dropped ▸ h.joins, dropped ▸ h.warnings⟩
    rw [same]
    exact List.forall_mem_cons.2 ⟨fun _ => none, h.calls⟩

theorem Give.map {α β : Type} {φ : α → β} {ψ : Token → Token} {ps : List (Option α × Nest α)}
    {ws : List Warning} {joins : List (Junction × List Condition)} (h : Give ps joins ws) :
    Give (ps.map fun p => (p.1.map φ, p.2.map φ ψ)) joins ws := by
  have kept : (ps.map fun p => (p.1.map φ, p.2.map φ ψ)).filter (·.2.hasJoint) =
      (ps.filter (·.2.hasJoint)).map fun p => (p.1.map φ, p.2.map φ ψ) := by
    simp [List.filter_map, Function.comp_def, hasJoint_map]
  constructor
  · refine List.forall_mem_map.2 fun p member named => ?_
    rw [hasJoint_map]
    exact h.calls p member (by simpa using named)
  · rw [kept, List.forall₂_map_left_iff]
    simpa [Joins, junctions_map] using h.joins
  · rw [kept, List.flatMap_map, h.warnings]
    simp [mixed, junctions_map]

end Nest

namespace Node

theorem allSound_ofFilter {s : Settings} {v : Vocabulary} {filter : String} {m : Nest Lexeme}
    (h : ofFilter s v filter = .ok (.run [] (pruneAll [m.node Lexeme.namesFunction]))) :
    AllSound (pruneAll [m.node Lexeme.namesFunction]) := by
  intro k member
  have own : ∀ x ∈ k.own, ∃ t n, x = Lexeme.read v s.stem n t := by
    intro x inside
    refine exists_read_of_mem_leaves h ?_
    rw [leaves, List.nil_append, leavesOf_eq_own]
    exact List.mem_flatMap.2 ⟨k, member, inside⟩
  have pair (scope : k.isScope = true) : ∃ p ∈ m.allPairs Lexeme.namesFunction,
      k ∈ pruneAll [Nest.pairNode Lexeme.namesFunction p] := by
    have scopes : k ∈ scopesOf (pruneAll [m.node Lexeme.namesFunction]) :=
      List.mem_filter.2 ⟨member, scope⟩
    rw [Nest.scopesOf_node] at scopes
    exact List.mem_flatMap.1 scopes
  refine ⟨not_isBare_of_mem_pruneAll _ member, ?_⟩
  cases k with
  | run items cs =>
    intro x inside
    obtain ⟨t, n, rfl⟩ := own x inside
    exact Atom.ofToken_ne_expr v _ t
  | marker j word => trivial
  | group cs => trivial
  | boolGroup cs =>
    obtain ⟨p, -, inside⟩ := pair rfl
    rcases Nest.mem_pruneAll_pairNode _ inside with ⟨name, -, same⟩ | same | same <;> cases same
    obtain ⟨words, between⟩ := Nest.markers_children Lexeme.namesFunction p.2
    show _ ≤ _
    rwa [words]
  | call name cs =>
    obtain ⟨p, listed, inside⟩ := pair rfl
    rcases Nest.mem_pruneAll_pairNode _ inside with ⟨other, named, same⟩ | same | same <;> cases same
    obtain ⟨t, n, rfl⟩ := own name List.mem_cons_self
    rcases List.mem_cons.1 listed with rfl | listed
    · cases named
    · exact Lexeme.isOperator_of_namesFunction (Nest.calls_of_mem_pairs listed _ named)

theorem compiled_root {ns : List (Node Lexeme)} {ws : List Warning} {c : Condition}
    (sound : AllSound ns) (one : ns.length ≤ 1) (h : compile (.run [] ns) = ⟨ws, .ok c⟩) :
    Compiled ns ws c.joins ∧ (c = .empty ∨ c.Proper) := by
  cases ns with
  | nil =>
    cases h
    exact ⟨.nil, Or.inl rfl⟩
  | cons n ns =>
    obtain rfl := List.length_eq_zero_iff.1 (Nat.le_zero.1 (Nat.le_of_succ_le_succ one))
    rw [compile] at h
    obtain ⟨compiled, proper⟩ := compiled_traces.compile h sound
    exact ⟨compiled, Or.inr proper⟩

end Node

/-- The joined conditions of a compiled filter are the pairs of its text with joining words directly inside,
    in their order and each with as many parts as its words separate; there is one warning for each pair
    with words of both kinds, and no such word stands directly in a call. -/
theorem Condition.joins_compile {s : Settings} {v : Vocabulary} {filter : String} {ws : List Warning}
    {c : Condition} (h : compile s v filter = ⟨ws, .ok c⟩) :
    ∃ (tokens : List Token) (n : Nest Token),
      (Token.scan s.tokens filter).complete = .ok tokens ∧
      n.events = (Token.significant tokens).map Event.ofToken ∧
      Nest.Give (n.allPairs Token.namesFunction) c.joins ws := by
  obtain ⟨outline, found, compiled⟩ := compile_eq_mk h
  obtain ⟨tokens, m, scanned, whole, -, rfl⟩ := Nest.exists_of_ofFilter found
  have one : (Node.pruneAll [m.enclosed.node Lexeme.namesFunction]).length ≤ 1 := by
    rw [Node.pruneAll_eq]
    exact List.length_filter_le ..
  obtain ⟨below, -⟩ := Node.compiled_root (Node.allSound_ofFilter found) one compiled
  have mapped : (m.map Lexeme.token id).allPairs Token.namesFunction =
      (m.allPairs Lexeme.namesFunction).map fun p => (p.1.map Lexeme.token, p.2.map Lexeme.token id) := by
    have same (x : Lexeme) : Token.namesFunction x.token = x.namesFunction := rfl
    have inside := Nest.pairs_map Lexeme.token id same m none
    rw [Option.map_none] at inside
    rw [Nest.allPairs, inside]
    rfl
  refine ⟨tokens, _, scanned, whole, ?_⟩
  rw [mapped]
  exact (Nest.joins_of_compiled below).ofEnclosed.map

theorem Condition.joins_compile_mixed :
    ∃ c, compile .default (.ofLists [("a", ⟨⟨none, "a"⟩, .unknown⟩), ("b", ⟨⟨none, "b"⟩, .unknown⟩)] [])
        "a eq 1 And ((b gt 2 or length(a) lt 3 and not (a eq 4)))" = ⟨[.mixed .any], .ok c⟩ ∧
      ∃ (tokens : List Token) (n : Nest Token),
        (Token.scan Settings.default.tokens
          "a eq 1 And ((b gt 2 or length(a) lt 3 and not (a eq 4)))").complete = .ok tokens ∧
        n.events = (Token.significant tokens).map Event.ofToken ∧
        Nest.Give (n.allPairs Token.namesFunction) c.joins [.mixed .any] := by
  let v : Vocabulary :=
    .ofLists [("a", ⟨⟨none, "a"⟩, .unknown⟩), ("b", ⟨⟨none, "b"⟩, .unknown⟩)] []
  let filter := "a eq 1 And ((b gt 2 or length(a) lt 3 and not (a eq 4)))"
  have warned : (compile .default v filter).warnings = [.mixed .any] := by decide +kernel
  obtain ⟨c, compiled, -⟩ := exists_of_any (show (compile .default v filter).result.toOption.any
    (fun _ => true) = true by decide +kernel)
  have whole : compile .default v filter = ⟨[.mixed .any], .ok c⟩ :=
    warned ▸ Outcome.eq_of_result_ok compiled
  exact ⟨c, whole, joins_compile whole⟩

theorem Condition.joins_of_compile {s : Settings} {v : Vocabulary} {filter : String} {c : Condition}
    (h : (compile s v filter).result = .ok c) : (c = .empty ∨ c.Proper) ∧
    ∀ join ∈ c.joins, 2 ≤ join.2.length ∧ ∀ part ∈ join.2, part.Proper := by
  obtain ⟨outline, found, compiled⟩ := compile_eq_mk (Outcome.eq_of_result_ok h)
  obtain ⟨tokens, m, -, -, -, rfl⟩ := Nest.exists_of_ofFilter found
  have one : (Node.pruneAll [m.enclosed.node Lexeme.namesFunction]).length ≤ 1 := by
    rw [Node.pruneAll_eq]
    exact List.length_filter_le ..
  obtain ⟨below, proper⟩ := Node.compiled_root (Node.allSound_ofFilter found) one compiled
  refine ⟨proper, forall_of_forall₂ ((Nest.joins_of_compiled below).joins.imp ?_)⟩
  rintro p join ⟨first, count, parts⟩
  have words : p.2.junctions ≠ [] := by
    intro none
    rw [none] at first
    cases first
  have several := List.length_pos_iff.2 words
  exact ⟨by omega, parts⟩

end WhereClause
