import WhereClause.Compile
import WhereClause.Proofs.Expr.Mirror
import WhereClause.Proofs.Outline.Map

namespace WhereClause

theorem hasOperator_change (χ : Change) : Induction
    (fun e => (e.change χ).hasOperator = e.hasOperator) (fun _ => True)
    (fun a => (a.change χ).hasOperator = a.hasOperator)
    (fun as => Atom.anyHasOperator (Atom.changeAll χ as) = Atom.anyHasOperator as)
    (fun _ => True) (fun _ => True) where
  apply _ _ _ _ _ _ _ := rfl
  group e h := h
  run as h := h
  nested _ _ := rfl
  absent := trivial
  present _ _ := trivial
  operator _ := rfl
  parameter _ := rfl
  column _ := rfl
  comma := rfl
  unknown _ := rfl
  inner e h := h
  noAtoms := rfl
  moreAtoms a as first rest := by
    rw [Atom.changeAll, Atom.anyHasOperator, first, rest, Atom.anyHasOperator]
  empty := trivial
  test _ _ := trivial
  all _ _ := trivial
  any _ _ := trivial
  noParts := trivial
  moreParts _ _ _ _ := trivial

theorem Condition.isEmpty_change (χ : Change) (c : Condition) : (c.change χ).isEmpty = c.isEmpty := by
  cases c <;> simp [change, isEmpty]

theorem Condition.join_change (χ : Change) (j : Junction) (cs : List Condition) :
    join j (cs.map (change χ)) = (join j cs).change χ := by
  have kept : withoutEmpty (cs.map (change χ)) = (withoutEmpty cs).map (change χ) := by
    simp [withoutEmpty, List.filter_map, Function.comp_def, isEmpty_change]
  cases j <;> simp [join, change, kept]

def Lexeme.change (χ : Change) (ψ : Token → Token) (x : Lexeme) : Lexeme :=
  ⟨ψ x.token, x.atom.change χ⟩

namespace Node

structure Unseen {κ : Type} (look : Fault → κ) (χ : Change) (ψ : Token → Token) : Prop extends
    χ.Unseen look where
  missingOperator (first : Option Token) :
    look (.missingOperator (first.map Token.text) (first.map Token.position)) =
      look (.missingOperator ((first.map ψ).map Token.text) ((first.map ψ).map Token.position))
  atToken (cause : String → Fault.Structural) (t : Token) :
    look (.atToken (cause t.text) t) = look (.atToken (cause (ψ t).text) (ψ t))

variable (χ : Change) (ψ : Token → Token)

theorem unseen_kind : Unseen Fault.kind χ ψ where
  toUnseen := χ.unseen_kind
  missingOperator _ := rfl
  atToken _ _ := rfl

def change (n : Node Lexeme) : Node Lexeme := n.map (Lexeme.change χ ψ) ψ

theorem change_run (items : List Lexeme) (ns : List (Node Lexeme)) :
    change χ ψ (.run items ns) = .run (items.map (Lexeme.change χ ψ)) (ns.map (change χ ψ)) := by
  rw [change, map, mapAll_eq]
  rfl

theorem change_group (ns : List (Node Lexeme)) :
    change χ ψ (.group ns) = .group (ns.map (change χ ψ)) := by
  rw [change, map, mapAll_eq]
  rfl

theorem change_boolGroup (ns : List (Node Lexeme)) :
    change χ ψ (.boolGroup ns) = .boolGroup (ns.map (change χ ψ)) := by
  rw [change, map, mapAll_eq]
  rfl

theorem change_call (name : Lexeme) (ns : List (Node Lexeme)) :
    change χ ψ (.call name ns) = .call (name.change χ ψ) (ns.map (change χ ψ)) := by
  rw [change, map, mapAll_eq]
  rfl

theorem elided_change (n : Node Lexeme) : (n.change χ ψ).elided = n.elided.change χ ψ := by
  induction n using Node.elided.induct with
  | case1 n ih => simpa [change, map, elided] using ih
  | case2 n single =>
    cases n with
    | run items cs =>
      rcases items with _ | ⟨item, items⟩
      · rcases cs with _ | ⟨m, _ | ⟨k, rest⟩⟩
        · rfl
        · exact absurd rfl (single m)
        · rfl
      · rfl
    | _ => rfl

theorem firstJunction_change (ns : List (Node Lexeme)) :
    firstJunction (ns.map (change χ ψ)) = firstJunction ns := by
  unfold firstJunction
  rw [List.findSome?_map]
  simp [Function.comp_def, change]

mutual

theorem firstToken?_change : (n : Node Lexeme) →
    (n.change χ ψ).firstToken? Lexeme.token = (n.firstToken? Lexeme.token).map ψ
  | .run [] cs => by
    rw [change_run, List.map_nil, firstToken?, firstToken?]
    exact firstTokenOf?_change cs
  | .run (x :: items) cs => by
    rw [change_run]
    rfl
  | .marker j word => rfl
  | .group cs => by
    rw [change_group, firstToken?, firstToken?]
    exact firstTokenOf?_change cs
  | .boolGroup cs => by
    rw [change_boolGroup, firstToken?, firstToken?]
    exact firstTokenOf?_change cs
  | .call name cs => by
    rw [change_call]
    rfl

theorem firstTokenOf?_change : (ns : List (Node Lexeme)) →
    firstTokenOf? Lexeme.token (ns.map (change χ ψ)) = (firstTokenOf? Lexeme.token ns).map ψ
  | [] => rfl
  | n :: ns => by
    rw [List.map_cons, firstTokenOf?, firstTokenOf?, firstToken?_change n, firstTokenOf?_change ns,
      Option.map_or]

end

variable {κ : Type} {look : Fault → κ}

theorem joined_change (ns : List (Node Lexeme)) {parts others : Outcome (List Condition)}
    (h : Outcome.MirrorsBy look (List.map (Condition.change χ)) parts others) :
    Outcome.MirrorsBy look (Condition.change χ) (joined ns parts) (joined (ns.map (change χ ψ)) others) := by
  have junctions : (ns.map (change χ ψ)).filterMap junction? = ns.filterMap junction? := by
    rw [List.filterMap_map]
    simp [Function.comp_def, change]
  have joins : Outcome.MirrorsBy look (Condition.change χ)
      (parts.andThen fun cs => .ok (Condition.join (firstJunction ns) cs))
      (others.andThen fun cs => .ok (Condition.join (firstJunction ns) cs)) := by
    refine h.andThen fun cs => ?_
    rw [Condition.join_change]
    exact .ok _
  unfold joined
  simp only [firstJunction_change, junctions]
  split
  · exact (Outcome.MirrorsBy.warn _).andThen fun _ => joins
  · exact joins

theorem atoms_change (items : List Lexeme) {atoms others : Outcome (List Atom)}
    (h : Outcome.MirrorsBy look (List.map (Atom.change χ)) atoms others) :
    Outcome.MirrorsBy look (List.map (Atom.change χ))
      (atoms.andThen fun as => .ok (items.map Lexeme.atom ++ as))
      (others.andThen fun as => .ok ((items.map (Lexeme.change χ ψ)).map Lexeme.atom ++ as)) := by
  refine h.andThen fun as => ?_
  have whole : (items.map (Lexeme.change χ ψ)).map Lexeme.atom ++ as.map (Atom.change χ) =
      (items.map Lexeme.atom ++ as).map (Atom.change χ) := by simp [Lexeme.change]
  rw [whole]
  exact .ok _

variable {χ ψ} (unseen : Unseen look χ ψ)

include unseen

theorem asOperand_change (n : Node Lexeme) (atoms : List Atom) :
    Outcome.MirrorsBy look (List.map (Atom.change χ)) (asOperand n atoms)
      (asOperand (n.change χ ψ) (atoms.map (Atom.change χ))) := by
  unfold asOperand
  rw [change, isCall_map]
  split
  · exact (Outcome.MirrorsBy.ofExcept (Expr.ofAtoms_change unseen.toUnseen atoms)).andThen fun e => .ok [Atom.expr e]
  · exact .ok atoms

theorem test_change {n m : Node Lexeme} (same : n.change χ ψ = m) {atoms others : Outcome (List Atom)}
    (h : Outcome.MirrorsBy look (List.map (Atom.change χ)) atoms others) :
    Outcome.MirrorsBy look (Condition.change χ) (test n atoms) (test m others) := by
  subst same
  refine h.andThen fun as => (Outcome.MirrorsBy.ofExcept (Expr.ofAtoms_change unseen.toUnseen as)).andThen fun e => ?_
  rw [(hasOperator_change χ).ofExpr e]
  split
  · exact .ok (Condition.test e)
  · rw [firstToken?_change]
    exact .fail (unseen.missingOperator _)

theorem compile_mirrors_all :
    (∀ n, Outcome.MirrorsBy look (Condition.change χ) (compile n) (compile (n.change χ ψ))) ∧
      (∀ last expected ns, Outcome.MirrorsBy look (List.map (Condition.change χ)) (partsOf last expected ns)
        (partsOf (last.map ψ) expected (ns.map (change χ ψ)))) ∧
      (∀ ns, Outcome.MirrorsBy look (List.map (Atom.change χ)) (atomsOf ns) (atomsOf (ns.map (change χ ψ)))) ∧
      ∀ n, Outcome.MirrorsBy look (List.map (Atom.change χ)) (atoms n) (atoms (n.change χ ψ)) := by
  refine Node.compile.mutual_induct
    (fun n => Outcome.MirrorsBy look (Condition.change χ) (compile n) (compile (n.change χ ψ)))
    (fun last expected ns => Outcome.MirrorsBy look (List.map (Condition.change χ)) (partsOf last expected ns)
      (partsOf (last.map ψ) expected (ns.map (change χ ψ))))
    (fun ns => Outcome.MirrorsBy look (List.map (Atom.change χ)) (atomsOf ns) (atomsOf (ns.map (change χ ψ))))
    (fun n => Outcome.MirrorsBy look (List.map (Atom.change χ)) (atoms n) (atoms (n.change χ ψ)))
    ?bareRun ?innerRun ?run ?bareGroup ?innerGroup ?singleGroup ?group ?bareBool ?bool ?call ?marker
    ?items ?called ?grouped ?nested ?lone ?missing ?noParts ?early ?next ?part ?noAtoms ?atoms
  case bareRun => exact .ok Condition.empty
  case innerRun =>
    intro n ih
    exact ih
  case run =>
    intro items ns bare single ih
    have alsoBare : items.map (Lexeme.change χ ψ) = [] → ns.map (change χ ψ) = [] → False := by
      simpa using bare
    have alsoSingle : ∀ m, items.map (Lexeme.change χ ψ) = [] → ns.map (change χ ψ) = [m] → False := by
      intro m none one
      obtain ⟨n, only, -⟩ := List.map_eq_singleton_iff.1 one
      exact single n (List.map_eq_nil_iff.1 none) only
    rw [change_run, compile.eq_3 items ns bare single, compile.eq_3 _ _ alsoBare alsoSingle]
    exact test_change unseen (change_run χ ψ items ns) (atoms_change χ ψ items ih)
  case bareGroup => exact .ok Condition.empty
  case innerGroup =>
    intro n grouping ih
    have also : (n.change χ ψ).elided.isGrouping = true := by
      rw [elided_change, change, isGrouping_map, grouping]
    rw [change_group, compile, if_pos grouping, List.map_singleton, compile, if_pos also]
    exact ih
  case singleGroup =>
    intro n grouping ih
    have also : ¬(n.change χ ψ).elided.isGrouping = true := by
      rw [elided_change, change, isGrouping_map]
      exact grouping
    rw [change_group, compile, if_neg grouping, List.map_singleton, compile, if_neg also]
    exact test_change unseen (change_group χ ψ [n]) ih
  case group =>
    intro ns bare single ih
    have alsoBare : ns.map (change χ ψ) = [] → False := by simpa using bare
    have alsoSingle : ∀ m, ns.map (change χ ψ) = [m] → False := by
      intro m one
      obtain ⟨n, only, -⟩ := List.map_eq_singleton_iff.1 one
      exact single n only
    rw [change_group, compile.eq_6 ns bare single, compile.eq_6 _ alsoBare alsoSingle]
    exact test_change unseen (change_group χ ψ ns) ih
  case bareBool => exact .ok Condition.empty
  case bool =>
    intro ns bare ih
    have alsoBare : ns.map (change χ ψ) = [] → False := by simpa using bare
    rw [change_boolGroup, compile.eq_8 ns bare, compile.eq_8 _ alsoBare]
    exact joined_change χ ψ ns ih
  case call =>
    intro name ns ih
    rw [change_call, compile, compile]
    exact test_change unseen (change_call χ ψ name ns) (atoms_change χ ψ [name] ih)
  case marker =>
    intro j word
    exact .fail (unseen.atToken .junctionInCall word)
  case items =>
    intro items ns ih
    rw [change_run, atoms, atoms]
    exact atoms_change χ ψ items ih
  case called =>
    intro name ns ih
    rw [change_call, atoms, atoms]
    exact atoms_change χ ψ [name] ih
  case grouped =>
    intro ns ih
    rw [change_group, atoms, atoms]
    refine ih.andThen fun as => ?_
    exact (Outcome.MirrorsBy.ofExcept (Expr.ofAtoms_change unseen.toUnseen as)).andThen fun e =>
      .ok [Atom.expr (.group e)]
  case nested =>
    intro ns ih
    rw [change_boolGroup, atoms, atoms]
    exact (joined_change χ ψ ns ih).andThen fun c => .ok [Atom.expr (.nested c)]
  case lone =>
    intro j word
    exact .fail (unseen.atToken .junctionInCall word)
  case missing =>
    intro word
    exact .fail (unseen.atToken .missingCondition word)
  case noParts =>
    intro last expected present
    have also : ∀ word, expected = true → last.map ψ = some word → False := by
      intro word needed found
      obtain ⟨first, same, -⟩ := Option.map_eq_some_iff.1 found
      exact present first needed same
    rw [partsOf.eq_2 last expected present, List.map_nil, partsOf.eq_2 _ expected also]
    exact .ok []
  case early =>
    intro last j word ns
    exact .fail (unseen.atToken .missingCondition word)
  case next =>
    intro last expected j word ns late ih
    have image : (Node.marker j word :: ns).map (change χ ψ) =
        .marker j (ψ word) :: ns.map (change χ ψ) := rfl
    rw [image, partsOf, if_neg late, partsOf, if_neg late]
    exact ih
  case part =>
    intro last expected n ns unmarked first ih
    have also : ∀ j word, n.change χ ψ = .marker j word → False := by
      intro j word same
      cases n with
      | marker k other => exact unmarked k other rfl
      | _ => cases same
    rw [List.map_cons, partsOf.eq_4 last expected n ns unmarked, partsOf.eq_4 _ _ _ _ also]
    refine first.andThen fun c => ih.andThen fun cs => ?_
    exact .ok (c :: cs)
  case noAtoms => exact .ok []
  case atoms =>
    intro n ns first ih
    rw [List.map_cons, atomsOf, atomsOf]
    refine first.andThen fun own => (asOperand_change unseen n own).andThen fun here => ?_
    refine ih.andThen fun rest => ?_
    rw [← List.map_append]
    exact .ok _

theorem compile_mirrors (n : Node Lexeme) :
    Outcome.MirrorsBy look (Condition.change χ) n.compile (n.change χ ψ).compile :=
  (compile_mirrors_all unseen).1 n

omit unseen

theorem compile_change (χ : Change) (ψ : Token → Token) (n : Node Lexeme) :
    Outcome.Mirrors (Condition.change χ) n.compile (n.change χ ψ).compile :=
  compile_mirrors (unseen_kind χ ψ) n

end Node

end WhereClause
