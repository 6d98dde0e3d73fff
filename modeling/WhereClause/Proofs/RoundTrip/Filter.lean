import WhereClause.Proofs.Outline.Places
import WhereClause.Proofs.Outline.Resolve
import WhereClause.Proofs.RoundTrip.Nesting
import WhereClause.Proofs.RoundTrip.Retold

namespace WhereClause

theorem Event.ofToken_token {v : Vocabulary} {e : Event Lexeme} (h : e.IsRead v) :
    ofToken e.token = e.map Lexeme.token id := by
  cases e with
  | enter => rfl
  | leave => rfl
  | joint j word =>
    have same : word = Token.word j.word := h
    subst same
    cases j <;> rfl
  | leaf x => exact h.event

theorem Lexeme.Leaf.isSimple {v : Vocabulary} {x : Lexeme} (h : x.Leaf v) :
    ∀ e, x.atom ≠ .expr e := by
  intro e same
  have read := h.reads "" fun p other => by rw [same] at other; cases other
  exact Atom.ofToken_ne_expr v "" x.token e (read.trans same)

theorem Event.resolve_tokens {v : Vocabulary} {stem : String} {es : List (Event Lexeme)} {n : Nat}
    (read : ∀ e ∈ es, e.IsRead v)
    (numbered : ∀ i p, ((leaves es).flatMap (·.atom.parameters))[i]? = some p →
      p.name = Parameter.numbered stem (n + i)) :
    resolve v stem n (es.map (map Lexeme.token id)) = es := by
  induction es generalizing n with
  | nil => rfl
  | cons event es ih =>
    obtain ⟨own, later⟩ := List.forall_mem_cons.1 read
    cases event with
    | enter => exact congrArg (Event.enter :: ·) (ih later numbered)
    | leave => exact congrArg (Event.leave :: ·) (ih later numbered)
    | joint j word => exact congrArg (Event.joint j word :: ·) (ih later numbered)
    | leaf x =>
      have leaf : Lexeme.Leaf v x := own
      have listed : leaves (Event.leaf x :: es) = x :: leaves es := rfl
      rw [listed, List.flatMap_cons] at numbered
      have atom : Atom.ofToken v (Parameter.numbered stem n) x.token = x.atom :=
        leaf.reads _ fun p same => numbered 0 p (by simp [same, Atom.parameters])
      have read : Lexeme.read v stem n x.token = x := by rw [Lexeme.read, atom]
      have rest : resolve v stem (x.next n) (es.map (map Lexeme.token id)) = es := by
        refine ih later fun i p found => ?_
        cases kind : x.atom with
        | parameter q =>
          have next : x.next n = n + 1 := by simp [Lexeme.next, kind, Atom.isParameter]
          have place := numbered (i + 1) p (by simpa [kind, Atom.parameters] using found)
          rw [next, place, Nat.add_assoc, Nat.add_comm 1 i]
        | expr e => exact absurd kind (leaf.isSimple e)
        | _ =>
          have next : x.next n = n := by simp [Lexeme.next, kind, Atom.isParameter]
          rw [next]
          exact numbered i p (by simpa [kind, Atom.parameters] using found)
      simp only [List.map_cons, map, resolve, read, rest]

theorem Nest.Tells.balanced {v : Vocabulary} {n : Nest Lexeme} {text : String} {ps : List Parameter}
    (tells : n.Tells v text ps) (shallow : Text.nesting 0 text.toList ≤ Balance.limit) :
    Balance.check n.tokens = .ok () := by
  have within : Text.nesting 0 (n.parentheses ++ []) ≤ Balance.limit := by
    rwa [List.append_nil, ← parentheses_tokens tells.read, ← tells.spells.parentheses, Text.nesting_filter]
  have whole := @checkFrom_tokens v n tells.read [] [] [] within
  rwa [List.append_nil] at whole

theorem Nest.Tells.resolve {v : Vocabulary} {n : Nest Lexeme} {text : String} {ps : List Parameter}
    (tells : n.Tells v text ps) {stem : String}
    (numbered : ∀ i p, ps[i]? = some p → p.name = Parameter.numbered stem i) :
    Event.resolve v stem 0 (n.tokens.map Event.ofToken) = n.events := by
  have words : n.tokens.map Event.ofToken = n.events.map (Event.map Lexeme.token id) := by
    rw [Nest.tokens, List.map_map]
    exact List.map_congr_left fun e member => Event.ofToken_token (tells.read e member)
  rw [words]
  refine Event.resolve_tokens tells.read fun i p found => ?_
  rw [tells.parameters] at found
  rw [numbered i p found, Nat.zero_add]

theorem Node.compile_group_of_applied {ns : List (Node Lexeme)} {as : List Atom} {e : Expr}
    (h : (atomsOf ns).result = .ok as) (built : Expr.ofAtoms as = .ok e) (applied : e.IsApplied) :
    (Node.group ns).compile.result = .ok (.test e) := by
  have operator := hasOperator_of_applied applied
  have tested : (test (.group ns) (atomsOf ns)).result = .ok (.test e) := test_result h built operator
  match ns with
  | [] =>
    cases h
    exact absurd rfl (Expr.ne_nil_of_ofAtoms built)
  | [n] =>
    rw [compile]
    split
    · exact compile_of_applied h built applied
    · exact tested
  | n :: m :: ns =>
    rw [compile]
    · exact tested
    · simp
    · simp

namespace Condition

variable {v : Vocabulary} {c : Condition}

theorem Written.exists_nest_of_isJoined (h : c.Written v) (joined : c.IsJoined) :
    ∃ (n : Nest Lexeme) (d : Condition), n.Tells v (c.render .filter) c.parameters ∧
      n.compile.result = .ok d ∧
      (∀ dialect, d.render dialect = c.render dialect) ∧ d.parameters = c.parameters := by
  obtain ⟨n, d, told, own⟩ := (retold v).ofCondition c h (h.proper joined)
  obtain ⟨inner, rfl, compiled⟩ := own joined
  refine ⟨.pair inner .nil, d, told.tells, ?_, told.render, told.parameters⟩
  rw [Nest.compile, Nest.enclosed, compiled.pruneAll_node, Node.compile]
  exact compiled.compile

theorem Written.exists_nest (h : c.Written v) (proper : c = .empty ∨ c.Proper) :
    ∃ (n : Nest Lexeme) (d : Condition), n.Tells v (c.render .filter) c.parameters ∧
      n.compile.result = .ok d ∧
      (∀ dialect, d.render dialect = c.render dialect) ∧ d.parameters = c.parameters := by
  cases c with
  | empty => exact ⟨.pair .nil .nil, .empty, Nest.Tells.nil.pair, rfl, fun _ => rfl, rfl⟩
  | test e =>
    have isApplied : e.IsApplied := by
      rcases proper with empty | proper
      · cases empty
      · exact proper.2 e rfl
    obtain ⟨n, as, told⟩ := (retold v).ofExpr e h
    obtain ⟨f, built, texts, values⟩ := told.restated.exists_formed
    obtain ⟨applied, alone⟩ := told.applied isApplied
    refine ⟨n, .test f, told.tells, ?_, texts, values⟩
    rw [Nest.compile, alone, Nest.node, told.unjoined, if_neg (by simp), Node.pruneAll_group,
      if_neg (told.yields.children_ne_nil built), Node.compile]
    exact Node.compile_group_of_applied told.yields.atomsOf_children built (applied f built)
  | all cs => exact h.exists_nest_of_isJoined trivial
  | any cs => exact h.exists_nest_of_isJoined trivial

theorem compile_of_tells {n : Nest Lexeme} {d : Condition} {text : String} {ps : List Parameter}
    (tells : n.Tells v text ps)
    (numbered : ∀ i p, ps[i]? = some p → p.name = Parameter.numbered Settings.default.stem i)
    (shallow : Text.nesting 0 text.toList ≤ Balance.limit)
    (compiled : n.compile.result = .ok d) : (compile .default v text).result = .ok d := by
  have said : Token.said? text.toList = some n.tokens := by
    have whole := tells.spells.said [] Token.ends_nil
    rwa [List.append_nil, Token.said?_nil, Option.map_some, List.append_nil] at whole
  have own : Token.significant n.tokens = n.tokens := Token.significant_of_said said
  have whole : ofTokens v Settings.default.stem n.tokens = n.compile :=
    ofTokens_of_resolve (own.symm ▸ tells.balanced shallow) (own.symm ▸ tells.resolve numbered)
  rw [compile_eq_of_said said (whole.trans (Outcome.eq_of_result_ok compiled))]

/-- A compiled filter without operands of several atoms, written in the filter language and not nested too deep,
    compiles with every vocabulary that reads its columns and parameters back, to a condition that is written in
    the same way in all dialects and has the same parameters. -/
theorem compile_render {w : Vocabulary} {filter : String} (h : (compile .default w filter).result = .ok c)
    (lone : c.Lone) (shallow : Text.nesting 0 (c.render .filter).toList ≤ Balance.limit)
    (columns : ∀ column, .column column ∈ c.reading → v.ReadsColumn column)
    (parameters : ∀ p ∈ c.parameters, v.ReadsParameter p) :
    ∃ d : Condition, (compile .default v (c.render .filter)).result = .ok d ∧
      (∀ dialect, d.render dialect = c.render dialect) ∧ d.parameters = c.parameters := by
  have written := written_of_compile h lone columns parameters
  obtain ⟨n, d, tells, compiled, texts, values⟩ := written.exists_nest (joins_of_compile h).1
  exact ⟨d, compile_of_tells tells (numbered_of_compile h) shallow compiled, texts, values⟩

def columns (c : Condition) : List Column := c.reading.filterMap fun | .column column => some column | _ => none

theorem compile_render_nested :
    ∃ c, (compile .default (.ofLists [("a", ⟨⟨none, "a"⟩, .unknown⟩), ("o.b", ⟨⟨some "o", "b"⟩, .unknown⟩)] [])
        "not (a eq 'x') and (ex (o.b gt 2 or a eq o.b add 1) or contains(a, concat('y', a)))").result = .ok c ∧
      ∃ d : Condition, (compile .default
          (.ofLists [("a", ⟨⟨none, "a"⟩, .unknown⟩), ("o.b", ⟨⟨some "o", "b"⟩, .unknown⟩)]
            [("@Filter0", .string "x"), ("@Filter1", .int 2), ("@Filter2", .int 1), ("@Filter3", .string "y")])
          (c.render .filter)).result = .ok d ∧
        (∀ dialect, d.render dialect = c.render dialect) ∧ d.parameters = c.parameters := by
  obtain ⟨c, compiled, facts⟩ := exists_of_any (show (compile .default
    (.ofLists [("a", ⟨⟨none, "a"⟩, .unknown⟩), ("o.b", ⟨⟨some "o", "b"⟩, .unknown⟩)] [])
    "not (a eq 'x') and (ex (o.b gt 2 or a eq o.b add 1) or contains(a, concat('y', a)))").result.toOption.any
      (fun c => c.runs.all Atom.isSingle && decide (Text.nesting 0 (c.render .filter).toList ≤ Balance.limit) &&
        c.columns.all (fun column => column = ⟨none, "a"⟩ || column = ⟨some "o", "b"⟩) &&
        decide (c.parameters = [⟨"Filter0", .string "x"⟩, ⟨"Filter1", .int 2⟩, ⟨"Filter2", .int 1⟩,
          ⟨"Filter3", .string "y"⟩])) = true by decide +kernel)
  simp only [Bool.and_eq_true, decide_eq_true_eq] at facts
  obtain ⟨⟨⟨lone, shallow⟩, columns⟩, parameters⟩ := facts
  refine ⟨c, compiled, compile_render compiled (List.all_eq_true.1 lone) shallow ?_ ?_⟩
  · intro column member
    have own := List.all_eq_true.1 columns column (List.mem_filterMap.2 ⟨_, member, rfl⟩)
    simp only [Bool.or_eq_true, decide_eq_true_eq] at own
    rcases own with rfl | rfl
    · exact ⟨⟨⟨1, 2⟩, by decide +kernel⟩, by decide +kernel, by decide +kernel, by decide +kernel,
        ⟨_, rfl, rfl⟩⟩
    · exact ⟨⟨⟨1, 4⟩, by decide +kernel⟩, by decide +kernel, by decide +kernel, by decide +kernel,
        ⟨_, rfl, rfl⟩⟩
  · rw [parameters]
    simp only [List.forall_mem_cons, List.not_mem_nil, false_implies, implies_true, and_true]
    refine ⟨⟨?_, ?_⟩, ⟨?_, ?_⟩, ⟨?_, ?_⟩, ?_, ?_⟩ <;> rfl

end Condition

end WhereClause
