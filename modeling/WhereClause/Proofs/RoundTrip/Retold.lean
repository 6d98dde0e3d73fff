import WhereClause.Proofs.RoundTrip.Tells
import WhereClause.Proofs.RoundTrip.Written

namespace WhereClause

namespace Nest

theorem enclosed_eq {n : Nest Lexeme} (h : ∀ inner, n ≠ .pair inner .nil) : n.enclosed = n := by
  unfold enclosed
  split
  · exact absurd rfl (h _)
  · rfl

theorem enclosed_append (m n : Nest Lexeme) (x : Lexeme) : (m ++ .leaf x n).enclosed = m ++ .leaf x n := by
  refine enclosed_eq fun inner same => ?_
  cases m with
  | pair held rest =>
    rw [pair_append] at same
    cases rest <;> cases same
  | _ => cases same

theorem yields_infix {op : Operator} {s : Operator.Shape} (known : op ∈ Operator.implemented)
    (spoken : op.isSpoken = true) (shape : op.IsInfix s) :
    Yields (.leaf (Atom.operator op).lexeme .nil) [.operator op] := by
  refine yields_leaf ?_
  rw [Atom.namesFunction_operator known spoken, shape.function]

theorem yields_listed {ns : List (Nest Lexeme)} {ass : List (List Atom)} (h : List.Forall₂ Yields ns ass) :
    (join (.leaf Atom.comma.lexeme .nil) ns).Yields (Atom.listed ass) := by
  induction h with
  | nil => exact yields_nil
  | @cons n as ns ass own later ih =>
    cases later with
    | nil => exact own
    | cons =>
      have comma : Yields (.leaf Atom.comma.lexeme .nil) [Atom.comma] := yields_leaf rfl
      exact own.append (comma.append ih)

end Nest

namespace Expr

open Atom

theorem isApplied_of_ofAtoms {as : List Atom} {e : Expr} (several : 2 ≤ as.length) (h : ofAtoms as = .ok e) :
    e.IsApplied := by
  rcases (formed_of_ofAtoms h).applied_or with applied | ⟨a, rfl, -⟩
  · exact applied
  · cases several with | step several => cases several

theorem WrittenAs.between {op : Operator} {a b : Expr} {as bs : List Atom} (shape : op.IsInfix .between)
    (left : a.WrittenAs as) (right : b.WrittenAs bs) (first : as ≠ []) (second : bs ≠ []) :
    (Expr.apply op (some a) (some b) none).WrittenAs (as ++ .operator op :: bs) where
  render d := by
    rw [render_apply (shape.form d _), List.map_append, Text.join_append (by simpa using first) (by simp),
      List.map_cons, Text.join_cons (by simpa using second), ← left.render, ← right.render]
    simp [Operator.Shape.write, slotted, renderOperand, Atom.render, String.append_assoc]
  parameters := by
    simp [Expr.parameters, operandParameters, left.parameters, right.parameters, Atom.parameters]

theorem WrittenAs.before {op : Operator} {b : Expr} {bs : List Atom} (shape : op.IsInfix .before)
    (right : b.WrittenAs bs) (full : bs ≠ []) :
    (Expr.apply op none (some b) none).WrittenAs (.operator op :: bs) where
  render d := by
    rw [render_apply (shape.form d _), List.map_cons, Text.join_cons (by simpa using full), ← right.render]
    simp [Operator.Shape.write, slotted, renderOperand, Atom.render]
  parameters := by
    simp [Expr.parameters, operandParameters, right.parameters, Atom.parameters]

theorem WrittenAs.enclosing {op : Operator} {b f : Expr} {bs : List Atom} (shape : op.IsInfix .enclosing)
    (right : b.WrittenAs bs) (formed : f.WrittenAs bs) :
    (Expr.apply op none (some b) none).WrittenAs [.operator op, .expr (.group f)] where
  render d := by
    rw [render_apply (shape.form d _)]
    simp [Operator.Shape.write, slotted, renderOperand, Atom.render, Expr.render, Text.join, Text.blank_open,
      String.append_assoc, right.render, formed.render]
  parameters := by
    simp [Expr.parameters, operandParameters, right.parameters, formed.parameters, Atom.parameters]

theorem Restated.single {e f : Expr} {as : List Atom} (h : e.Restated as) (bare : e.isGrouped = false)
    (built : ofAtoms as = .ok f) : f.ungrouped = f := by
  refine ungrouped_eq fun inner same => ?_
  subst same
  -- A group is formed by no operator, so it would be the only atom.
  rcases (formed_of_ofAtoms built).applied_or with applied | ⟨a, rfl, -⟩
  · cases applied
  · cases h.clause with
    | operand operand =>
      cases a with
      | parameter p =>
        rw [ofAtoms_alone rfl] at built
        cases built
      | column c =>
        rw [ofAtoms_alone rfl] at built
        cases built
      | expr e =>
        rw [ofAtoms_alone rfl] at built
        cases built
        exact h.bare bare inner rfl
      | _ => cases operand
    | before shape clause => exact absurd rfl clause.ne_nil

theorem Restated.exists_formed {e : Expr} {as : List Atom} (h : e.Restated as) :
    ∃ f, ofAtoms as = .ok f ∧ (∀ d, f.render d = e.render d) ∧ f.parameters = e.parameters := by
  obtain ⟨f, built, written⟩ := h.clause.formed
  exact ⟨f, built, fun d => (written.render d).trans (h.written.render d).symm,
    written.parameters.trans h.written.parameters.symm⟩

/-- A nest of the words of an expression, and the atoms that it gives. -/
structure Retold (v : Vocabulary) (e : Expr) (n : Nest Lexeme) (as : List Atom) : Prop where
  tells : n.Tells v (e.render .filter) e.parameters
  yields : n.Yields as
  unjoined : n.hasJoint = false
  restated : e.Restated as
  applied : e.IsApplied → (∀ f, ofAtoms as = .ok f → f.IsApplied) ∧ n.enclosed = n

namespace Retold

variable {v : Vocabulary} {op : Operator} {a b : Expr} {m n : Nest Lexeme} {as bs : List Atom}

theorem between (known : op ∈ Operator.implemented) (spoken : op.isSpoken = true) (shape : op.IsInfix .between)
    (left : a.Retold v m as) (right : b.Retold v n bs) :
    (Expr.apply op (some a) (some b) none).Retold v (m ++ .leaf (Atom.operator op).lexeme .nil ++ n)
      (as ++ .operator op :: bs) where
  tells := by
    have whole := (left.tells.between (.leaf (Atom.leaf_operator known spoken))).between right.tells
    have text : (Expr.apply op (some a) (some b) none).render .filter =
        a.render .filter ++ " " ++ op.keyword ++ " " ++ b.render .filter := render_apply (shape.form .filter _)
    have values : (Expr.apply op (some a) (some b) none).parameters = a.parameters ++ [] ++ b.parameters := by
      simp [parameters, operandParameters]
    rw [text, values]
    exact whole
  yields := by
    have whole := (left.yields.append (Nest.yields_infix known spoken shape)).append right.yields
    rwa [List.append_assoc] at whole
  unjoined := by
    simp [Nest.hasJoint_append, left.unjoined, right.unjoined, Nest.hasJoint]
  restated := by
    have first := left.restated.clause.ne_nil
    have second := right.restated.clause.ne_nil
    refine ⟨left.restated.clause.append shape right.restated.clause,
      left.restated.written.between shape right.restated.written first second, fun _ g same => ?_⟩
    have one := congrArg List.length same
    have some := List.length_pos_iff.2 second
    simp only [List.length_append, List.length_cons, List.length_nil] at one
    omega
  applied _ := by
    refine ⟨fun f built => isApplied_of_ofAtoms ?_ built, ?_⟩
    · have some := List.length_pos_iff.2 right.restated.clause.ne_nil
      simp only [List.length_append, List.length_cons]
      omega
    · rw [Nest.append_assoc]
      exact Nest.enclosed_append m n _

theorem before (known : op ∈ Operator.implemented) (spoken : op.isSpoken = true) (shape : op.IsInfix .before)
    (right : b.Retold v n bs) :
    (Expr.apply op none (some b) none).Retold v (.leaf (Atom.operator op).lexeme .nil ++ n)
      (.operator op :: bs) where
  tells := by
    have whole := (Nest.Tells.leaf (Atom.leaf_operator known spoken)).between right.tells
    have text : (Expr.apply op none (some b) none).render .filter = op.keyword ++ " " ++ b.render .filter :=
      render_apply (shape.form .filter _)
    have values : (Expr.apply op none (some b) none).parameters = [] ++ b.parameters := by
      simp [parameters, operandParameters]
    rw [text, values]
    exact whole
  yields := (Nest.yields_infix known spoken shape).append right.yields
  unjoined := right.unjoined
  restated := by
    have full := right.restated.clause.ne_nil
    exact ⟨.before shape right.restated.clause, right.restated.written.before shape full, by simp⟩
  applied _ := by
    refine ⟨fun f built => isApplied_of_ofAtoms ?_ built, rfl⟩
    exact Nat.succ_le_succ (List.length_pos_iff.2 right.restated.clause.ne_nil)

theorem pair (h : a.Retold v n as) : ∃ f, ofAtoms as = .ok f ∧ f.WrittenAs as ∧
    Nest.Yields (.pair n .nil) [.expr (.group f)] := by
  obtain ⟨f, built, written⟩ := h.restated.clause.formed
  exact ⟨f, built, written, Nest.yields_group h.yields h.unjoined built⟩

theorem enclosing (known : op ∈ Operator.implemented) (spoken : op.isSpoken = true)
    (shape : op.IsInfix .enclosing) (right : b.Retold v n bs) (bare : b.isGrouped = false) :
    ∃ f, (Expr.apply op none (some b) none).Retold v (.leaf (Atom.operator op).lexeme .nil ++ .pair n .nil)
      [.operator op, .expr (.group f)] := by
  obtain ⟨f, built, written, yields⟩ := right.pair
  refine ⟨f, ?_, ?_, rfl, ⟨?_, ?_, nofun⟩, fun _ => ⟨?_, rfl⟩⟩
  · have whole := (Nest.Tells.leaf (v := v) (Atom.leaf_operator known spoken)).between right.tells.pair
    have text : (Expr.apply op none (some b) none).render .filter =
        op.keyword ++ " " ++ ("(" ++ b.render .filter ++ ")") := by
      rw [render_apply (shape.form .filter _)]
      simp [Operator.Shape.write, slotted, renderOperand, Text.blank_open, String.append_assoc, Operator.spelling]
    have values : (Expr.apply op none (some b) none).parameters = [] ++ b.parameters := by
      simp [parameters, operandParameters]
    rw [text, values]
    exact whole
  · exact (Nest.yields_infix known spoken shape).append yields
  · exact .enclosing shape (right.restated.single bare built) (.operand rfl)
  · exact right.restated.written.enclosing shape written
  · exact fun g formed => isApplied_of_ofAtoms (by simp) formed

theorem group (h : a.Retold v n as) : ∃ f, (Expr.group a).Retold v (.pair n .nil) [.expr (.group f)] := by
  obtain ⟨f, built, written, yields⟩ := h.pair
  refine ⟨f, h.tells.pair, yields, rfl, ⟨.operand rfl, ⟨fun d => ?_, ?_⟩, nofun⟩, nofun⟩
  · rw [render, h.restated.written.render, ← written.render]
    rfl
  · rw [parameters, h.restated.written.parameters, ← written.parameters]
    simp [Atom.parameters, parameters]

theorem call {left right third : Option Expr} (known : op ∈ Operator.implemented) (spoken : op.isSpoken = true)
    (function : op.isFunction = true) (fits : Fits op left right third)
    (tidy : ∀ slot, Template.encloses (op.template .filter third.isSome) slot = true →
      ∀ e ∈ slotted left right third slot, e.isGrouped = false) {ps : List (Nest Lexeme × List Atom)}
    (given : List.Forall₂ (fun e p => Retold v e p.1 p.2) (operands left right third) ps) :
    ∃ f, (Expr.apply op left right third).Retold v (.leaf (Atom.operator op).lexeme
      (.pair (Nest.join (.leaf Atom.comma.lexeme .nil) (ps.map (·.1))) .nil)) [.expr f] := by
  have atoms : List.Forall₂ Restated (operands left right third) (ps.map (·.2)) :=
    List.forall₂_map_right_iff.2 (given.imp fun _ _ h => h.restated)
  obtain ⟨f, built, applied, written⟩ := ofAtoms_function known function fits tidy atoms
  have same (d : Dialect) : f.render d = (Expr.apply op left right third).render d := written.render d
  refine ⟨f, ?_, ?_, rfl, ⟨.operand rfl, ⟨fun d => (same d).symm, ?_⟩, ?_⟩, fun _ => ⟨?_, rfl⟩⟩
  · have texts := Nest.Tells.joined Nest.Tells.comma
      (List.forall₂_map_right_iff.2 (given.imp fun _ _ h => h.tells))
    have whole := (Nest.Tells.leaf (Atom.leaf_operator known spoken)).attach texts
    have values : (Expr.apply op left right third).parameters =
        [] ++ (operands left right third).flatMap Expr.parameters := by
      simp [parameters, operandParameters_eq, operands]
    rw [fits.render_call known function, values]
    exact whole
  · have named : (Atom.operator op).lexeme.namesFunction = true := by
      rw [Atom.namesFunction_operator known spoken, function]
    have nests : List.Forall₂ Nest.Yields (ps.map (·.1)) (ps.map (·.2)) := by
      refine List.forall₂_map_left_iff.2 (List.forall₂_map_right_iff.2 (List.forall₂_same.2 ?_))
      exact forall_of_forall₂ (given.imp fun _ _ h => h.yields)
    exact Nest.yields_call named (Nest.yields_listed nests) built
  · simpa [Atom.parameters] using written.parameters.symm
  · rintro - g ⟨⟩
    cases applied
  · intro g alone
    rw [ofAtoms_alone rfl] at alone
    cases alone
    exact applied

theorem leaf {x : Atom} (operand : x.isOperand = true) (simple : ∀ e, x ≠ .expr e) (h : x.lexeme.Leaf v) :
    (Expr.run [x]).Retold v (.leaf x.lexeme .nil) [x] where
  tells := by
    have whole := Nest.Tells.leaf h
    have text : (Expr.run [x]).render .filter = x.render .filter := by simp [render, Text.concat]
    have values : (Expr.run [x]).parameters = x.parameters := by simp [parameters]
    rw [text, values]
    exact whole
  yields := by
    refine Nest.yields_leaf (Bool.eq_false_iff.2 fun named => ?_)
    obtain ⟨op, operator⟩ : ∃ op, x.lexeme.token.operator? = some op :=
      Token.exists_operator_of_namesFunction named
    have read (name : String) : Atom.ofToken v name x.lexeme.token = .operator op := by
      rw [Atom.ofToken, operator]
    have same : x = .operator op := by
      cases x with
      | parameter p => exact (h.reads p.name (by rintro _ ⟨⟩; rfl)).symm.trans (read _)
      | column c => exact (h.reads "" (by rintro _ ⟨⟩)).symm.trans (read _)
      | expr e => exact absurd rfl (simple e)
      | _ => cases operand
    rw [same] at operand
    cases operand
  unjoined := rfl
  restated := by
    refine ⟨.operand operand, writtenAs_run x, ?_⟩
    rintro - g ⟨⟩
    exact simple _ rfl
  applied := by rintro ⟨⟩

theorem inner (h : a.Retold v n as) : (Expr.run [.expr a]).Retold v n as := by
  have text (d : Dialect) : (Expr.run [.expr a]).render d = a.render d := by
    simp [render, Text.concat, Atom.render]
  have values : (Expr.run [.expr a]).parameters = a.parameters := by simp [parameters, Atom.parameters]
  refine ⟨?_, h.yields, h.unjoined, ⟨h.restated.clause, ⟨fun d => ?_, ?_⟩, h.restated.bare⟩, by rintro ⟨⟩⟩
  · rw [text, values]
    exact h.tells
  · rw [text, h.restated.written.render]
  · rw [values, h.restated.written.parameters]

end Retold

end Expr

def Junction.operator : Junction → Operator
  | .all => Operator.conjunction
  | .any => Operator.disjunction

structure Condition.Retold (v : Vocabulary) (c : Condition) (n : Nest Lexeme) (d : Condition) : Prop where
  tells : n.Tells v (c.render .filter) c.parameters
  stands : n.Stands d
  full : d.isEmpty = false
  render : ∀ dialect, d.render dialect = c.render dialect
  parameters : d.parameters = c.parameters

namespace Condition

theorem render_join {cs : List Condition} (full : ∀ c ∈ cs, c.isEmpty = false) (j : Junction) (d : Dialect) :
    (join j cs).render d =
      "(" ++ Text.join (j.operator.separator d) (cs.map (Condition.render d)) ++ ")" := by
  rw [join_eq full]
  cases j <;> simp [Condition.render, Junction.operator]

theorem parameters_join {cs : List Condition} (full : ∀ c ∈ cs, c.isEmpty = false) (j : Junction) :
    (join j cs).parameters = cs.flatMap Condition.parameters := by
  rw [join_eq full]
  cases j <;> simp [Condition.parameters]

theorem isEmpty_join {cs : List Condition} (full : ∀ c ∈ cs, c.isEmpty = false) (some : cs ≠ [])
    (j : Junction) : (join j cs).isEmpty = false := by
  rw [join_eq full]
  cases j <;> simpa [isEmpty] using some

theorem exists_retold_join {v : Vocabulary} {cs : List Condition} (several : 2 ≤ cs.length)
    (proper : ∀ c ∈ cs, c.Proper) (given : ∃ ps : List (Nest Lexeme × Condition),
      List.Forall₂ (fun c p => Condition.Retold v c p.1 p.2) cs ps) (j : Junction) :
    ∃ inner d, (join j cs).Retold v (.pair inner .nil) d ∧ inner.Joined d := by
  obtain ⟨ps, given⟩ := given
  have full : ∀ c ∈ cs, c.isEmpty = false := fun c member => (proper c member).1
  have alsoFull : ∀ d ∈ ps.map (·.2), d.isEmpty = false :=
    List.forall_mem_map.2 (forall_of_forall₂ (given.imp fun _ _ h => h.full))
  have stands : List.Forall₂ Nest.Stands (ps.map (·.1)) (ps.map (·.2)) := by
    refine List.forall₂_map_left_iff.2 (List.forall₂_map_right_iff.2 (List.forall₂_same.2 ?_))
    exact forall_of_forall₂ (given.imp fun _ _ h => h.stands)
  have count : 2 ≤ (ps.map (·.1)).length := by
    rw [List.length_map, ← given.length_eq]
    exact several
  have compiled := Nest.joined_of_stands stands count j (Token.word j.word)
  refine ⟨_, _, ⟨?_, compiled.stands, isEmpty_join alsoFull ?_ j, fun d => ?_, ?_⟩, compiled⟩
  · have mark : j.operator.separator .filter = " " ++ j.word ++ " " := by cases j <;> rfl
    have texts := Nest.Tells.joined (Nest.Tells.joint j)
      (List.forall₂_map_right_iff.2 (given.imp fun _ _ h => h.tells))
    rw [render_join full, mark, parameters_join full]
    exact texts.pair
  · intro none
    rw [List.map_eq_nil_iff] at none
    rw [none] at count
    cases count
  · have texts : (ps.map (·.2)).map (Condition.render d) = cs.map (Condition.render d) := by
      rw [List.map_map]
      exact (map_eq_of_forall₂ (given.imp fun _ _ h => (h.render d).symm)).symm
    rw [render_join full, render_join alsoFull, texts]
  · have values : (ps.map (·.2)).map Condition.parameters = cs.map Condition.parameters := by
      rw [List.map_map]
      exact (map_eq_of_forall₂ (given.imp fun _ _ h => h.parameters.symm)).symm
    rw [parameters_join full, parameters_join alsoFull, List.flatMap_def, values, List.flatMap_def]

end Condition

theorem Condition.Written.proper {v : Vocabulary} {c : Condition} (h : c.Written v) (joined : c.IsJoined) :
    c.Proper := by
  have some {cs : List Condition} (several : 2 ≤ cs.length) : cs.isEmpty = false := by
    cases cs with
    | nil => cases several
    | cons => rfl
  cases c with
  | all cs => exact ⟨some h.1, nofun⟩
  | any cs => exact ⟨some h.1, nofun⟩
  | _ => cases joined

theorem Expr.Retold.nested {v : Vocabulary} {c d : Condition} {inner : Nest Lexeme}
    (h : c.Retold v (.pair inner .nil) d) (joined : inner.Joined d) :
    (Expr.nested c).Retold v (.pair inner .nil) [.expr (.nested d)] where
  tells := h.tells
  yields := joined.yields
  unjoined := rfl
  restated := by
    refine ⟨.operand rfl, ⟨fun dialect => (h.render dialect).symm, ?_⟩, ?_⟩
    · simpa [Atom.parameters, Expr.parameters] using h.parameters.symm
    · rintro - g ⟨⟩
  applied := nofun

theorem Expr.exists_retold_apply {v : Vocabulary} {op : Operator} {left right third : Option Expr}
    (known : op ∈ Operator.implemented) (spoken : op.isSpoken = true) (fits : Fits op left right third)
    (tidy : ∀ slot, Template.encloses (op.template .filter third.isSome) slot = true →
      ∀ e ∈ slotted left right third slot, e.isGrouped = false)
    (given : ∀ e ∈ operands left right third, ∃ n as, e.Retold v n as) :
    ∃ n as, (Expr.apply op left right third).Retold v n as := by
  cases function : op.isFunction with
  | true =>
    have pairs : ∀ e ∈ operands left right third, ∃ p : Nest Lexeme × List Atom, e.Retold v p.1 p.2 := by
      intro e member
      obtain ⟨n, as, retold⟩ := given e member
      exact ⟨(n, as), retold⟩
    obtain ⟨ps, retold⟩ := exists_forall₂ pairs
    obtain ⟨f, whole⟩ := Retold.call known spoken function fits tidy retold
    exact ⟨_, _, whole⟩
  | false =>
    obtain ⟨s, listed, form⟩ := Operator.exists_infix known spoken function
    have shape : op.IsInfix s := ⟨function, listed, form⟩
    obtain ⟨rfl, b, rfl, ⟨rfl, a, rfl⟩ | ⟨rfl | rfl, rfl⟩⟩ := fits.infixed listed (form .filter _)
    · obtain ⟨m, as, first⟩ := given a (by simp [operands])
      obtain ⟨n, bs, second⟩ := given b (by simp [operands])
      exact ⟨_, _, first.between known spoken shape second⟩
    · obtain ⟨n, bs, second⟩ := given b (by simp [operands])
      exact ⟨_, _, second.before known spoken shape⟩
    · obtain ⟨n, bs, second⟩ := given b (by simp [operands])
      have bare : b.isGrouped = false := by
        refine tidy .right ?_ b rfl
        rw [form, Operator.Shape.encloses_form (List.mem_append_left _ listed)]
        rfl
      obtain ⟨f, whole⟩ := second.enclosing known spoken shape bare
      exact ⟨_, _, whole⟩

/-- Everything that can be written is read as something that is written in the same way. -/
theorem retold (v : Vocabulary) : Induction
    (fun e => e.Written v → ∃ n as, e.Retold v n as)
    (fun e => Expr.OperandWritten v e → ∀ f ∈ e, ∃ n as, f.Retold v n as)
    (fun a => a.Written v → ∃ n as, (Expr.run [a]).Retold v n as)
    (fun as => Atom.AloneWritten v as → ∃ n bs, (Expr.run as).Retold v n bs)
    (fun c => c.Written v → c.Proper → ∃ n d, c.Retold v n d ∧
      (c.IsJoined → ∃ inner, n = .pair inner .nil ∧ inner.Joined d))
    (fun cs => Condition.AllWritten v cs → (∀ c ∈ cs, c.Proper) → ∃ ps : List (Nest Lexeme × Condition),
      List.Forall₂ (fun c p => Condition.Retold v c p.1 p.2) cs ps) where
  apply op left right third first second last := by
    rintro ⟨known, spoken, fits, tidy, leftWritten, rightWritten, thirdWritten⟩
    refine Expr.exists_retold_apply known spoken fits tidy fun e member => ?_
    simp only [Expr.operands, List.mem_append, Option.mem_toList] at member
    rcases member with (inside | inside) | inside
    · exact first leftWritten e inside
    · exact second rightWritten e inside
    · exact last thirdWritten e inside
  group e ih written := by
    obtain ⟨n, as, retold⟩ := ih written
    obtain ⟨f, whole⟩ := retold.group
    exact ⟨_, _, whole⟩
  run as ih := ih
  nested c ih := by
    rintro ⟨joined, written⟩
    obtain ⟨n, d, whole, own⟩ := ih written (written.proper joined)
    obtain ⟨inner, rfl, compiled⟩ := own joined
    exact ⟨_, _, .nested whole compiled⟩
  absent _ := nofun
  present e ih written := by
    rintro _ ⟨⟩
    exact ih written
  operator op := by rintro ⟨operand, -⟩; cases operand
  parameter p := by
    rintro ⟨operand, read⟩
    exact ⟨_, _, .leaf operand nofun read⟩
  column c := by
    rintro ⟨operand, read⟩
    exact ⟨_, _, .leaf operand nofun read⟩
  comma := by rintro ⟨operand, -⟩; cases operand
  unknown t := by rintro ⟨operand, -⟩; cases operand
  inner e ih written := by
    obtain ⟨n, as, retold⟩ := ih written
    exact ⟨n, as, retold.inner⟩
  noAtoms := nofun
  moreAtoms a as first _ written := by
    cases as with
    | nil => exact first written
    | cons b as => cases written
  empty _ proper := by cases proper.1
  test e ih written proper := by
    obtain ⟨n, as, retold⟩ := ih written
    obtain ⟨f, built, texts, values⟩ := retold.restated.exists_formed
    have stands := retold.yields.stands built ((retold.applied (proper.2 e rfl)).1 f built)
    exact ⟨n, .test f, ⟨retold.tells, stands, rfl, texts, values⟩, nofun⟩
  all cs ih := by
    rintro ⟨several, proper, written⟩ -
    obtain ⟨inner, d, whole, joined⟩ := Condition.exists_retold_join several proper (ih written proper) .all
    rw [Condition.join_eq fun c member => (proper c member).1] at whole
    exact ⟨_, d, whole, fun _ => ⟨inner, rfl, joined⟩⟩
  any cs ih := by
    rintro ⟨several, proper, written⟩ -
    obtain ⟨inner, d, whole, joined⟩ := Condition.exists_retold_join several proper (ih written proper) .any
    rw [Condition.join_eq fun c member => (proper c member).1] at whole
    exact ⟨_, d, whole, fun _ => ⟨inner, rfl, joined⟩⟩
  noParts _ _ := ⟨[], .nil⟩
  moreParts c cs first rest := by
    rintro ⟨own, later⟩ proper
    obtain ⟨here, further⟩ := List.forall_mem_cons.1 proper
    obtain ⟨n, d, retold, -⟩ := first own here
    obtain ⟨ps, all⟩ := rest later further
    exact ⟨(n, d) :: ps, .cons retold all⟩

end WhereClause
