import WhereClause.Proofs.Junction.Basic

namespace WhereClause

namespace Nest

variable {α : Type}

def append : Nest α → Nest α → Nest α
  | .nil, n => n
  | .leaf item rest, n => .leaf item (rest.append n)
  | .joint j word rest, n => .joint j word (rest.append n)
  | .pair inner rest, n => .pair inner (rest.append n)

instance : Append (Nest α) := ⟨append⟩

@[simp] theorem nil_append (n : Nest α) : .nil ++ n = n := rfl

@[simp] theorem leaf_append (item : α) (rest n : Nest α) :
    .leaf item rest ++ n = .leaf item (rest ++ n) := rfl

@[simp] theorem joint_append (j : Junction) (word : Token) (rest n : Nest α) :
    .joint j word rest ++ n = .joint j word (rest ++ n) := rfl

@[simp] theorem pair_append (inner rest n : Nest α) : .pair inner rest ++ n = .pair inner (rest ++ n) := rfl

@[simp] theorem append_nil (n : Nest α) : n ++ .nil = n := by
  induction n <;> simp_all

theorem append_assoc (m n k : Nest α) : m ++ n ++ k = m ++ (n ++ k) := by
  induction m <;> simp_all

theorem events_append (m n : Nest α) : (m ++ n).events = m.events ++ n.events := by
  induction m <;> simp_all [events]

theorem hasJoint_append (m n : Nest α) : (m ++ n).hasJoint = (m.hasJoint || n.hasJoint) := by
  induction m <;> simp_all [hasJoint]

def join (separator : Nest α) : List (Nest α) → Nest α
  | [] => .nil
  | [n] => n
  | n :: m :: rest => n ++ (separator ++ join separator (m :: rest))

end Nest

theorem Expr.ne_nil_of_ofAtoms {as : List Atom} {e : Expr} (h : ofAtoms as = .ok e) : as ≠ [] := by
  rintro rfl
  rw [ofAtoms_alone rfl] at h
  cases h

namespace Node

theorem atomsOf_cons {n : Node Lexeme} {ns : List (Node Lexeme)} {as : List Atom} :
    (atomsOf (n :: ns)).result = .ok as ↔ ∃ own here rest, n.atoms.result = .ok own ∧
      (asOperand n own).result = .ok here ∧ (atomsOf ns).result = .ok rest ∧ as = here ++ rest := by
  rw [atomsOf]
  simp only [Outcome.bind_eq, Outcome.pure_eq, Outcome.andThen_result_ok]
  constructor
  · rintro ⟨own, found, here, operand, rest, later, same⟩
    cases same
    exact ⟨own, here, rest, found, operand, later, rfl⟩
  · rintro ⟨own, here, rest, found, operand, later, rfl⟩
    exact ⟨own, found, here, operand, rest, later, rfl⟩

theorem atomsOf_append {ns ms : List (Node Lexeme)} {as bs : List Atom}
    (first : (atomsOf ns).result = .ok as) (second : (atomsOf ms).result = .ok bs) :
    (atomsOf (ns ++ ms)).result = .ok (as ++ bs) := by
  induction ns generalizing as with
  | nil =>
    cases first
    exact second
  | cons n ns ih =>
    obtain ⟨own, here, rest, found, operand, later, rfl⟩ := atomsOf_cons.1 first
    exact atomsOf_cons.2 ⟨own, here, rest ++ bs, found, operand, ih later, List.append_assoc ..⟩

theorem atomsOf_run {items : List Lexeme} {cs : List (Node Lexeme)} {as : List Atom} :
    (atomsOf [.run items cs]).result = .ok as ↔
      ∃ below, (atomsOf cs).result = .ok below ∧ as = items.map Lexeme.atom ++ below := by
  rw [atomsOf_cons]
  simp only [atoms, Outcome.bind_eq, Outcome.pure_eq, Outcome.andThen_result_ok]
  constructor
  · rintro ⟨_, _, _, ⟨below, found, ⟨⟩⟩, ⟨⟩, ⟨⟩, rfl⟩
    exact ⟨below, found, List.append_nil _⟩
  · rintro ⟨below, found, rfl⟩
    exact ⟨_, _, [], ⟨below, found, rfl⟩, rfl, rfl, (List.append_nil _).symm⟩

theorem atomsOf_call {name : Lexeme} {cs : List (Node Lexeme)} {as : List Atom} :
    (atomsOf [.call name cs]).result = .ok as ↔ ∃ below e, (atomsOf cs).result = .ok below ∧
      Expr.ofAtoms (name.atom :: below) = .ok e ∧ as = [.expr e] := by
  rw [atomsOf_cons]
  simp only [atoms, Outcome.bind_eq, Outcome.pure_eq, Outcome.andThen_result_ok]
  constructor
  · rintro ⟨_, _, _, ⟨below, found, ⟨⟩⟩, operand, ⟨⟩, rfl⟩
    obtain ⟨e, built, ⟨⟩⟩ := Outcome.andThen_result_ok.1 operand
    exact ⟨below, e, found, Outcome.ofExcept_eq_ok.1 built, rfl⟩
  · rintro ⟨below, e, found, built, rfl⟩
    refine ⟨_, [.expr e], [], ⟨below, found, rfl⟩, ?_, rfl, rfl⟩
    exact Outcome.andThen_result_ok.2 ⟨e, Outcome.ofExcept_eq_ok.2 built, rfl⟩

theorem atomsOf_group {cs : List (Node Lexeme)} {as : List Atom} :
    (atomsOf [.group cs]).result = .ok as ↔ ∃ below e, (atomsOf cs).result = .ok below ∧
      Expr.ofAtoms below = .ok e ∧ as = [.expr (.group e)] := by
  rw [atomsOf_cons]
  simp only [atoms, Outcome.bind_eq, Outcome.pure_eq, Outcome.andThen_result_ok]
  constructor
  · rintro ⟨_, _, _, ⟨below, found, e, built, ⟨⟩⟩, ⟨⟩, ⟨⟩, rfl⟩
    exact ⟨below, e, found, Outcome.ofExcept_eq_ok.1 built, rfl⟩
  · rintro ⟨below, e, found, built, rfl⟩
    exact ⟨_, _, [], ⟨below, found, e, Outcome.ofExcept_eq_ok.2 built, rfl⟩, rfl, rfl, rfl⟩

theorem atomsOf_boolGroup {cs : List (Node Lexeme)} {as : List Atom} :
    (atomsOf [.boolGroup cs]).result = .ok as ↔
      ∃ c, (joined cs (partsOf none true cs)).result = .ok c ∧ as = [.expr (.nested c)] := by
  rw [atomsOf_cons]
  simp only [atoms, Outcome.bind_eq, Outcome.pure_eq, Outcome.andThen_result_ok]
  constructor
  · rintro ⟨_, _, _, ⟨c, found, ⟨⟩⟩, ⟨⟩, ⟨⟩, rfl⟩
    exact ⟨c, found, rfl⟩
  · rintro ⟨c, found, rfl⟩
    exact ⟨_, _, [], ⟨c, found, rfl⟩, rfl, rfl, rfl⟩

theorem atomsOf_pruned_run {items : List Lexeme} {cs : List (Node Lexeme)} (below : List Atom)
    (h : (atomsOf (pruneAll cs)).result = .ok below) :
    (atomsOf (pruneAll [.run items cs])).result = .ok (items.map Lexeme.atom ++ below) := by
  rw [pruneAll_run]
  split
  · next bare =>
    rw [bare.2] at h
    cases h
    rw [bare.1]
    rfl
  · exact atomsOf_run.2 ⟨below, h, rfl⟩

theorem test_result {n : Node Lexeme} {atoms : Outcome (List Atom)} {as : List Atom} {e : Expr}
    (h : atoms.result = .ok as) (built : Expr.ofAtoms as = .ok e) (operator : e.hasOperator = true) :
    (test n atoms).result = .ok (.test e) := by
  refine Outcome.andThen_result_ok.2 ⟨as, h, Outcome.andThen_result_ok.2 ⟨e,
    Outcome.ofExcept_eq_ok.2 built, ?_⟩⟩
  rw [if_pos operator]
  rfl

theorem hasOperator_of_applied {e : Expr} (h : e.IsApplied) : e.hasOperator = true := by
  cases e <;> first | rfl | cases h

theorem compile_of_applied {n : Node Lexeme} {as : List Atom} {e : Expr}
    (h : (atomsOf [n]).result = .ok as) (built : Expr.ofAtoms as = .ok e) (applied : e.IsApplied) :
    n.compile.result = .ok (.test e) := by
  have operator := hasOperator_of_applied applied
  -- A run of nothing but one node compiles as this node does.
  induction n using Node.elided.induct with
  | case1 n ih =>
    obtain ⟨below, found, rfl⟩ := atomsOf_run.1 h
    rw [compile]
    exact ih (by simpa using found)
  | case2 n single =>
    cases n with
    | run items cs =>
      obtain ⟨below, found, rfl⟩ := atomsOf_run.1 h
      have bare : items = [] → cs = [] → False := by
        rintro rfl rfl
        cases found
        exact Expr.ne_nil_of_ofAtoms built rfl
      rw [compile.eq_3 items cs bare (by rintro m rfl rfl; exact single m rfl)]
      exact test_result (Outcome.andThen_result_ok.2 ⟨below, found, rfl⟩) built operator
    | marker j word =>
      obtain ⟨own, -, -, found, -⟩ := atomsOf_cons.1 h
      cases found
    | group cs =>
      obtain ⟨below, f, -, -, rfl⟩ := atomsOf_group.1 h
      rw [Expr.ofAtoms_alone rfl] at built
      cases built
      cases applied
    | boolGroup cs =>
      obtain ⟨c, -, rfl⟩ := atomsOf_boolGroup.1 h
      rw [Expr.ofAtoms_alone rfl] at built
      cases built
      cases applied
    | call name cs =>
      obtain ⟨below, f, found, formed, rfl⟩ := atomsOf_call.1 h
      rw [Expr.ofAtoms_alone rfl] at built
      cases built
      rw [compile]
      exact test_result (Outcome.andThen_result_ok.2 ⟨below, found, rfl⟩) formed operator

theorem partsOf_unmarked {n : Node Lexeme} (h : n.isMarker = false) (last : Option Token) (expected : Bool)
    (ns : List (Node Lexeme)) {cs : List Condition} :
    (partsOf last expected (n :: ns)).result = .ok cs ↔ ∃ c rest, n.compile.result = .ok c ∧
      (partsOf last false ns).result = .ok rest ∧ cs = c :: rest := by
  have own : partsOf last expected (n :: ns) = (do
      let c ← n.compile
      let cs ← partsOf last false ns
      return c :: cs) := by
    cases n <;> first | rfl | cases h
  rw [own]
  simp only [Outcome.bind_eq, Outcome.pure_eq, Outcome.andThen_result_ok]
  constructor
  · rintro ⟨c, compiled, rest, later, same⟩
    cases same
    exact ⟨c, rest, compiled, later, rfl⟩
  · rintro ⟨c, rest, compiled, later, rfl⟩
    exact ⟨c, compiled, rest, later, rfl⟩

theorem joined_result {ns : List (Node Lexeme)} {parts : Outcome (List Condition)} {cs : List Condition}
    (h : parts.result = .ok cs) : (joined ns parts).result = .ok (Condition.join (firstJunction ns) cs) :=
  congrArg Outcome.result (joined_eq_mk.2 ⟨_, cs, Outcome.eq_of_result_ok h, rfl, rfl⟩)

end Node

namespace Nest

def Settled (items : List Lexeme) : Prop := ∀ x ∈ items.getLast?, x.namesFunction = false

/-- Up to its first joining word the nest gives these atoms; from there on it gives the nodes `tail`. -/
def Opens (n : Nest Lexeme) (as : List Atom) (tail : List (Node Lexeme)) : Prop :=
  ∀ items, Settled items → (outline Lexeme.namesFunction items n).2 = tail ∧
    (Node.atomsOf (Node.pruneAll [(outline Lexeme.namesFunction items n).1])).result =
      .ok (items.map Lexeme.atom ++ as)

/-- Whatever follows, the nest gives these atoms. -/
def Yields (n : Nest Lexeme) (as : List Atom) : Prop :=
  ∀ rest bs tail, Opens rest bs tail → Opens (n ++ rest) (as ++ bs) tail

def Joined (n : Nest Lexeme) (c : Condition) : Prop :=
  n.hasJoint = true ∧ Node.pruneAll (n.children Lexeme.namesFunction) ≠ [] ∧
    (Node.joined (Node.pruneAll (n.children Lexeme.namesFunction)) (Node.partsOf none true
      (Node.pruneAll (n.children Lexeme.namesFunction)))).result = .ok c

theorem settled_nil : Settled [] := nofun

theorem opens_nil : Opens .nil [] [] :=
  fun _ _ => ⟨rfl, Node.atomsOf_pruned_run [] rfl⟩

theorem Yields.opens {n : Nest Lexeme} {as : List Atom} (h : n.Yields as) : n.Opens as [] := by
  have whole := h .nil [] [] opens_nil
  rwa [append_nil, List.append_nil] at whole

theorem Yields.atomsOf_children {n : Nest Lexeme} {as : List Atom} (h : n.Yields as) :
    (Node.atomsOf (Node.pruneAll (n.children Lexeme.namesFunction))).result = .ok as := by
  obtain ⟨none, found⟩ := h.opens [] settled_nil
  rw [children, none]
  exact found

theorem Yields.children_ne_nil {n : Nest Lexeme} {as : List Atom} {e : Expr} (h : n.Yields as)
    (built : Expr.ofAtoms as = .ok e) : Node.pruneAll (n.children Lexeme.namesFunction) ≠ [] := by
  intro bare
  have below := h.atomsOf_children
  rw [bare] at below
  cases below
  exact Expr.ne_nil_of_ofAtoms built rfl

theorem yields_nil : Yields .nil [] := fun _ _ _ h => h

theorem Yields.append {m n : Nest Lexeme} {as bs : List Atom} (first : m.Yields as) (second : n.Yields bs) :
    (m ++ n).Yields (as ++ bs) := by
  intro rest cs tail h
  rw [append_assoc, List.append_assoc]
  exact first _ _ _ (second _ _ _ h)

theorem yields_leaf {x : Lexeme} (h : x.namesFunction = false) : Yields (.leaf x .nil) [x.atom] := by
  intro rest bs tail opens items _
  have settled : Settled (items ++ [x]) := by
    rintro y last
    rw [List.getLast?_concat] at last
    cases last
    exact h
  obtain ⟨later, found⟩ := opens (items ++ [x]) settled
  refine ⟨later, ?_⟩
  rw [List.map_append, List.append_assoc] at found
  exact found

theorem outline_pair {items : List Lexeme} (settled : Settled items) (inner rest : Nest Lexeme) :
    outline Lexeme.namesFunction items (.pair inner rest) =
      (.run items [inner.node Lexeme.namesFunction, (outline Lexeme.namesFunction [] rest).1],
        (outline Lexeme.namesFunction [] rest).2) := by
  have own : ∀ joined children, paired Lexeme.namesFunction items joined children =
      (items, if joined then .boolGroup children else .group children) := by
    rcases paired_cases Lexeme.namesFunction items with ⟨before, name, rfl, named, -⟩ | ⟨-, own⟩
    · rw [settled name List.getLast?_concat] at named
      cases named
    · exact own
  rw [outline, own]
  rfl

theorem outline_call {name : Lexeme} (named : name.namesFunction = true) (items : List Lexeme)
    (inner rest : Nest Lexeme) : outline Lexeme.namesFunction items (.leaf name (.pair inner rest)) =
      (.run items [.call name (inner.children Lexeme.namesFunction),
        (outline Lexeme.namesFunction [] rest).1], (outline Lexeme.namesFunction [] rest).2) := by
  have last : (items ++ [name]).getLast?.filter Lexeme.namesFunction = some name := by
    rw [List.getLast?_concat, Option.filter_some, if_pos named]
  have own (joined : Bool) (children : List (Node Lexeme)) :
      paired Lexeme.namesFunction (items ++ [name]) joined children = (items, .call name children) := by
    simp only [paired, last, List.dropLast_concat]
  rw [outline, outline, own]
  rfl

theorem opens_pair {inner rest : Nest Lexeme} {a : Atom} {bs : List Atom} {tail : List (Node Lexeme)}
    (pair : (Node.atomsOf (Node.pruneAll [inner.node Lexeme.namesFunction])).result = .ok [a])
    (h : Opens rest bs tail) : Opens (.pair inner rest) (a :: bs) tail := by
  intro items settled
  obtain ⟨later, found⟩ := h [] settled_nil
  rw [outline_pair settled]
  refine ⟨later, Node.atomsOf_pruned_run _ ?_⟩
  rw [Node.pruneAll_cons]
  exact Node.atomsOf_append pair found

theorem yields_group {inner : Nest Lexeme} {as : List Atom} {e : Expr} (h : inner.Yields as)
    (unjoined : inner.hasJoint = false) (built : Expr.ofAtoms as = .ok e) :
    Yields (.pair inner .nil) [.expr (.group e)] := by
  refine fun rest bs tail opens => opens_pair ?_ opens
  rw [node, unjoined, if_neg (by simp), Node.pruneAll_group, if_neg (h.children_ne_nil built)]
  exact Node.atomsOf_group.2 ⟨as, e, h.atomsOf_children, built, rfl⟩

theorem Joined.pruneAll_node {inner : Nest Lexeme} {c : Condition} (h : inner.Joined c) :
    Node.pruneAll [inner.node Lexeme.namesFunction] =
      [.boolGroup (Node.pruneAll (inner.children Lexeme.namesFunction))] := by
  obtain ⟨joint, full, -⟩ := h
  rw [node, joint, if_pos rfl, Node.pruneAll_boolGroup, if_neg full]

theorem Joined.compile {inner : Nest Lexeme} {c : Condition} (h : inner.Joined c) :
    (Node.compile (.boolGroup (Node.pruneAll (inner.children Lexeme.namesFunction)))).result = .ok c := by
  rw [Node.compile.eq_8 _ h.2.1]
  exact h.2.2

theorem Joined.yields {inner : Nest Lexeme} {c : Condition} (h : inner.Joined c) :
    Yields (.pair inner .nil) [.expr (.nested c)] := by
  refine fun rest bs tail opens => opens_pair ?_ opens
  rw [h.pruneAll_node]
  exact Node.atomsOf_boolGroup.2 ⟨c, h.2.2, rfl⟩

theorem yields_call {name : Lexeme} {inner : Nest Lexeme} {as : List Atom} {e : Expr}
    (named : name.namesFunction = true) (h : inner.Yields as)
    (built : Expr.ofAtoms (name.atom :: as) = .ok e) :
    Yields (.leaf name (.pair inner .nil)) [.expr e] := by
  intro rest bs tail opens items _
  obtain ⟨later, found⟩ := opens [] settled_nil
  rw [leaf_append, pair_append, nil_append, outline_call named]
  refine ⟨later, Node.atomsOf_pruned_run _ ?_⟩
  rw [Node.pruneAll_cons, Node.pruneAll_call]
  exact Node.atomsOf_append (Node.atomsOf_call.2 ⟨as, e, h.atomsOf_children, built, rfl⟩) found

def Closes (rest : Nest Lexeme) (tail : List (Node Lexeme)) : Prop :=
  ∀ items, outline Lexeme.namesFunction items rest = (.run items [], tail)

/-- Between joining words, the nest is one node that compiles to the condition. -/
def Stands (n : Nest Lexeme) (c : Condition) : Prop :=
  ∀ rest tail, Closes rest tail → ∃ m, m.isMarker = false ∧ m.compile.result = .ok c ∧
    Node.pruneAll [(outline Lexeme.namesFunction [] (n ++ rest)).1] = [m] ∧
    (outline Lexeme.namesFunction [] (n ++ rest)).2 = tail

theorem closes_nil : Closes .nil [] := fun _ => rfl

theorem closes_joint (j : Junction) (word : Token) (rest : Nest Lexeme) :
    Closes (.joint j word rest) (.marker j word :: rest.children Lexeme.namesFunction) := fun _ => rfl

theorem Closes.opens {rest : Nest Lexeme} {tail : List (Node Lexeme)} (h : Closes rest tail) :
    Opens rest [] tail := by
  intro items _
  rw [h]
  exact ⟨rfl, Node.atomsOf_pruned_run [] rfl⟩

theorem Yields.stands {n : Nest Lexeme} {as : List Atom} {e : Expr} (h : n.Yields as)
    (built : Expr.ofAtoms as = .ok e) (applied : e.IsApplied) : n.Stands (.test e) := by
  intro rest tail closes
  obtain ⟨later, found⟩ := h rest [] tail closes.opens [] settled_nil
  obtain ⟨own, cs, run⟩ := exists_run_outline Lexeme.namesFunction (n ++ rest) []
  rw [List.append_nil, List.map_nil, List.nil_append] at found
  rw [run, Node.pruneAll_run] at found
  split at found
  · cases found
    exact absurd rfl (Expr.ne_nil_of_ofAtoms built)
  · next full =>
    refine ⟨_, rfl, Node.compile_of_applied found built applied, ?_, later⟩
    rw [run, Node.pruneAll_run, if_neg full]

theorem stands_pair {inner : Nest Lexeme} {m : Node Lexeme} {c : Condition}
    (one : Node.pruneAll [inner.node Lexeme.namesFunction] = [m]) (compiled : m.compile.result = .ok c) :
    Stands (.pair inner .nil) c := by
  intro rest tail closes
  refine ⟨.run [] [m], rfl, ?_, ?_, ?_⟩
  · rwa [Node.compile]
  · rw [pair_append, nil_append, outline_pair settled_nil, closes, Node.pruneAll_run, Node.pruneAll_cons, one]
    simp [Node.pruneAll, Node.prune, Node.isBare]
  · rw [pair_append, nil_append, outline_pair settled_nil, closes]

theorem Joined.stands {inner : Nest Lexeme} {c : Condition} (h : inner.Joined c) :
    Stands (.pair inner .nil) c := stands_pair h.pruneAll_node h.compile

theorem Stands.children {n rest : Nest Lexeme} {c : Condition} {tail : List (Node Lexeme)} (h : n.Stands c)
    (closes : Closes rest tail) : ∃ m, m.isMarker = false ∧ m.compile.result = .ok c ∧
      Node.pruneAll ((n ++ rest).children Lexeme.namesFunction) = m :: Node.pruneAll tail := by
  obtain ⟨m, unmarked, compiled, own, later⟩ := h rest tail closes
  refine ⟨m, unmarked, compiled, ?_⟩
  rw [Nest.children, later, Node.pruneAll_cons, own]
  rfl

theorem parts_of_stands {n : Nest Lexeme} {ns : List (Nest Lexeme)} {c : Condition} {cs : List Condition}
    (own : n.Stands c) (later : List.Forall₂ Stands ns cs) (j : Junction) (word : Token)
    (last : Option Token) :
    (Node.partsOf last true (Node.pruneAll ((join (.joint j word .nil) (n :: ns)).children
      Lexeme.namesFunction))).result = .ok (c :: cs) := by
  induction later generalizing n c last with
  | nil =>
    obtain ⟨m, unmarked, compiled, nodes⟩ := own.children closes_nil
    rw [join, ← append_nil n, nodes]
    refine (Node.partsOf_unmarked unmarked _ _ _).2 ⟨c, [], compiled, ?_, rfl⟩
    rw [Node.pruneAll, Node.partsOf]
    · rfl
    · simp
  | @cons n' c' ns cs next later ih =>
    obtain ⟨m, unmarked, compiled, nodes⟩ := own.children (closes_joint j word _)
    rw [join, joint_append, nil_append, nodes, Node.pruneAll_cons, Node.pruneAll_marker]
    exact (Node.partsOf_unmarked unmarked _ _ _).2 ⟨c, c' :: cs, compiled, ih next (some word), rfl⟩

theorem firstJunction_of_stands {n m : Nest Lexeme} {ns : List (Nest Lexeme)} {c : Condition}
    (own : n.Stands c) (j : Junction) (word : Token) :
    Node.firstJunction (Node.pruneAll ((join (.joint j word .nil) (n :: m :: ns)).children
      Lexeme.namesFunction)) = j := by
  obtain ⟨first, unmarked, -, nodes⟩ := own.children (closes_joint j word _)
  rw [join, joint_append, nil_append, nodes, Node.pruneAll_cons, Node.pruneAll_marker]
  cases first <;> first | rfl | cases unmarked

theorem joined_of_stands {ns : List (Nest Lexeme)} {cs : List Condition} (h : List.Forall₂ Stands ns cs)
    (several : 2 ≤ ns.length) (j : Junction) (word : Token) :
    (join (.joint j word .nil) ns).Joined (Condition.join j cs) := by
  obtain _ | @⟨n, c, ns, cs, own, later⟩ := h
  · cases several
  obtain _ | @⟨m, d, ns, cs, next, later⟩ := later
  · cases several with | step several => cases several
  have parts := parts_of_stands own (.cons next later) j word none
  refine ⟨?_, ?_, ?_⟩
  · simp [join, hasJoint_append, hasJoint]
  · intro bare
    rw [bare, Node.partsOf] at parts
    · cases parts
    · simp
  · refine (Node.joined_result parts).trans ?_
    rw [firstJunction_of_stands own]

end Nest

end WhereClause
