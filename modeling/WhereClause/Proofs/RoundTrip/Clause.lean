import WhereClause.Expr.Parameters
import WhereClause.Proofs.Junction.Basic
import WhereClause.Proofs.RoundTrip.Tidy

namespace WhereClause

namespace Text

theorem join_append {separator : String} {ss ts : List String} (first : ss ≠ []) (second : ts ≠ []) :
    join separator (ss ++ ts) = join separator ss ++ separator ++ join separator ts := by
  induction ss with
  | nil => exact absurd rfl first
  | cons s ss ih =>
    cases ss with
    | nil => exact join_cons second
    | cons t ss =>
      have own : join separator (s :: t :: ss) = s ++ separator ++ join separator (t :: ss) := rfl
      rw [List.cons_append, join_cons (by simp), ih (by simp), own]
      simp only [String.append_assoc]

theorem join_join {separator : String} {inner : List String} (full : inner ≠ []) (before after : List String) :
    join separator (before ++ join separator inner :: after) = join separator (before ++ inner ++ after) := by
  induction before with
  | nil =>
    cases after with
    | nil => simp [join]
    | cons s after => rw [List.nil_append, List.nil_append, join_cons (by simp), join_append full (by simp)]
  | cons s before ih =>
    rw [List.cons_append, join_cons (by simp), ih, List.cons_append, List.cons_append,
      join_cons (by simp [full])]

theorem blank_open (s : String) : " (" ++ s = " " ++ ("(" ++ s) := by
  rw [← String.append_assoc]
  rfl

end Text

structure Operator.IsInfix (op : Operator) (s : Shape) : Prop where
  function : op.isFunction = false
  listed : s ∈ Shape.infixes
  form : ∀ d third, op.template d third = s.form

namespace Atom

def isOperand : Atom → Bool
  | .parameter _ | .column _ | .expr _ => true
  | _ => false

/-- Operands with operators between and before them; where the template writes parentheses, the operand has
    them already. -/
inductive Clause : List Atom → Prop where
  | operand {a : Atom} (operand : a.isOperand = true) : Clause [a]
  | between {op : Operator} {a : Atom} {rest : List Atom} (shape : op.IsInfix .between)
      (operand : a.isOperand = true) (clause : Clause rest) : Clause (a :: .operator op :: rest)
  | before {op : Operator} {rest : List Atom} (shape : op.IsInfix .before) (clause : Clause rest) :
      Clause (.operator op :: rest)
  | enclosing {op : Operator} {e : Expr} {rest : List Atom} (shape : op.IsInfix .enclosing)
      (single : e.ungrouped = e) (clause : Clause (.expr (.group e) :: rest)) :
      Clause (.operator op :: .expr (.group e) :: rest)

theorem Clause.append {op : Operator} {as bs : List Atom} (first : Clause as) (shape : op.IsInfix .between)
    (second : Clause bs) : Clause (as ++ .operator op :: bs) := by
  induction first with
  | operand operand => exact .between shape operand second
  | between own operand clause ih => exact .between own operand ih
  | before own clause ih => exact .before own ih
  | enclosing own single clause ih => exact .enclosing own single ih

theorem isOperator_of_isOperand {a : Atom} (h : a.isOperand = true) : a.isOperator = false := by
  cases a <;> first | rfl | cases h

theorem isComma_of_isOperand {a : Atom} (h : a.isOperand = true) : a.isComma = false := by
  cases a <;> first | rfl | cases h

theorem unknown?_of_isOperand {a : Atom} (h : a.isOperand = true) : a.unknown? = none := by
  cases a <;> first | rfl | cases h

theorem Clause.noComma {as : List Atom} (h : Clause as) : ∀ a ∈ as, a.isComma = false := by
  induction h with
  | operand operand => simp [isComma_of_isOperand operand]
  | between own operand clause ih =>
    exact List.forall_mem_cons.2 ⟨isComma_of_isOperand operand, List.forall_mem_cons.2 ⟨rfl, ih⟩⟩
  | before own clause ih => exact List.forall_mem_cons.2 ⟨rfl, ih⟩
  | enclosing own single clause ih => exact List.forall_mem_cons.2 ⟨rfl, ih⟩

theorem Clause.ne_nil {as : List Atom} (h : Clause as) : as ≠ [] := by
  cases h <;> simp

theorem Clause.cases_first {as : List Atom} (h : Clause as) :
    (∃ b, b.isOperand = true ∧ as = [b]) ∨ (∃ next further, as = .operator next :: further) ∨
      ∃ b next further, b.isOperand = true ∧ next.IsInfix .between ∧ Clause further ∧
        as = b :: .operator next :: further := by
  cases h with
  | operand operand => exact Or.inl ⟨_, operand, rfl⟩
  | between shape operand clause => exact Or.inr (Or.inr ⟨_, _, _, operand, shape, clause, rfl⟩)
  | before => exact Or.inr (Or.inl ⟨_, _, rfl⟩)
  | enclosing => exact Or.inr (Or.inl ⟨_, _, rfl⟩)

theorem splitAtOperator_append (before : List Atom) (operands : ∀ a ∈ before, a.isOperator = false)
    (op : Operator) (after : List Atom) :
    splitAtOperator (before ++ .operator op :: after) = some (before, op, after) := by
  induction before with
  | nil => rfl
  | cons a before ih =>
    obtain ⟨own, rest⟩ := List.forall_mem_cons.1 operands
    have none : a.operator? = none := by simpa [isOperator] using own
    simp [splitAtOperator, none, ih rest]

end Atom

namespace Expr

open Atom

/-- The expression is written as the atoms are, with blanks between them, and has their parameters. -/
structure WrittenAs (e : Expr) (as : List Atom) : Prop where
  render : ∀ d, e.render d = Text.join " " (as.map (Atom.render d))
  parameters : e.parameters = as.flatMap Atom.parameters

theorem WrittenAs.expand {e f : Expr} (before : List Atom) {inner after : List Atom}
    (h : e.WrittenAs (before ++ .expr f :: after)) (below : f.WrittenAs inner) (full : inner ≠ []) :
    e.WrittenAs (before ++ inner ++ after) where
  render d := by
    have texts : inner.map (Atom.render d) ≠ [] := by simpa using full
    rw [h.render, List.map_append, List.map_cons, Atom.render, below.render, Text.join_join texts,
      List.map_append, List.map_append]
  parameters := by
    rw [h.parameters]
    simp [Atom.parameters, below.parameters]

theorem writtenAs_run (a : Atom) : (Expr.run [a]).WrittenAs [a] where
  render d := by simp [render, Text.concat, Text.join]
  parameters := by simp [parameters]

theorem writtenAs_expr (e : Expr) : e.WrittenAs [.expr e] where
  render d := rfl
  parameters := by simp [Atom.parameters]

def Applies (op : Operator) (before : List Atom) (right : Expr) : Prop :=
  Fits op (operand before) (some right) none ∧
    (stripped op (operand before) (some right) none).WrittenAs (before ++ [.operator op] ++ [.expr right])

theorem takes_infix {op : Operator} {s : Operator.Shape} (shape : op.IsInfix s) (slot : Slot)
    (third : Bool) : Template.takes (op.template .filter third) slot = s.slots.contains slot := by
  rw [shape.form, Operator.Shape.takes_form (List.mem_append_left _ shape.listed)]

theorem strip_infix {op : Operator} {s : Operator.Shape} (shape : op.IsInfix s) {slot : Slot}
    (open_ : slot ∉ s.enclosed) (third : Bool) (e : Expr) :
    strip (op.template .filter third) slot e = e := by
  have none : s.enclosed.contains slot = false := by simpa using open_
  unfold strip
  rw [shape.form, Operator.Shape.encloses_form (List.mem_append_left _ shape.listed), none]
  rfl

theorem stripped_between {op : Operator} (shape : op.IsInfix .between) (a : Atom) (right : Expr) :
    stripped op (operand [a]) (some right) none = .apply op (some (.run [a])) (some right) none := by
  simp [stripped, operand, strip_infix shape, Operator.Shape.enclosed]

theorem applies_between {op : Operator} {a : Atom} (shape : op.IsInfix .between) (right : Expr) :
    Applies op [a] right := by
  refine ⟨?_, ?_⟩
  · simp [Fits, takes_infix shape, Operator.Shape.slots, operand]
  · rw [stripped_between shape]
    constructor
    · intro d
      rw [render_apply (shape.form d _)]
      simp [Operator.Shape.write, slotted, renderOperand, Text.join, Atom.render, render, Text.concat,
        String.append_assoc]
    · simp [parameters, operandParameters, Atom.parameters]

theorem applies_before {op : Operator} (shape : op.IsInfix .before) (right : Expr) :
    Applies op [] right := by
  have kept : stripped op (operand []) (some right) none = .apply op none (some right) none := by
    simp [stripped, operand, strip_infix shape, Operator.Shape.enclosed]
  refine ⟨?_, ?_⟩
  · simp [Fits, takes_infix shape, Operator.Shape.slots, operand]
  · rw [kept]
    constructor
    · intro d
      rw [render_apply (shape.form d _)]
      simp [Operator.Shape.write, slotted, renderOperand, Text.join, Atom.render]
    · simp [parameters, operandParameters, Atom.parameters]

theorem applies_enclosing {op : Operator} {e : Expr} (shape : op.IsInfix .enclosing)
    (single : e.ungrouped = e) : Applies op [] (.run [.expr (.group e)]) := by
  have kept : stripped op (operand []) (some (.run [.expr (.group e)])) none =
      .apply op none (some e) none := by
    have inside : Template.encloses (op.template .filter false) .right = true := by
      rw [shape.form, Operator.Shape.encloses_form (List.mem_append_left _ shape.listed)]
      rfl
    simp [stripped, operand, strip, inside, single]
  refine ⟨?_, ?_⟩
  · simp [Fits, takes_infix shape, Operator.Shape.slots, operand]
  · rw [kept]
    constructor
    · intro d
      rw [render_apply (shape.form d _)]
      simp [Operator.Shape.write, slotted, renderOperand, Text.join, Atom.render, render, Text.concat,
        Text.blank_open, String.append_assoc]
    · simp [parameters, operandParameters, Atom.parameters]

theorem plainOperand_of_isOperand {b : Atom} (operand : b.isOperand = true) (op : Operator) (slot : Slot) :
    plainOperand op slot [b] = .ok (some (.run [b])) :=
  plainOperand_eq_ok.2 ⟨by simp [unknown?_of_isOperand operand], rfl⟩

section

variable {op next : Operator} {left : Option Expr} {b : Atom} {further : List Atom}

theorem between_operand (operand : b.isOperand = true) (fits : Fits op left (some (.run [b])) none) :
    Expr.between op [b] left = .ok (stripped op left (some (.run [b])) none) := by
  have none : splitAtOperator [b] = none := by
    have own : b.operator? = none := by simpa [isOperator] using isOperator_of_isOperand operand
    simp [splitAtOperator, own]
  simp only [Expr.between, none, List.any_cons, isComma_of_isOperand operand, List.any_nil, Bool.or_false,
    Bool.false_eq_true, if_false]
  exact bind_eq_ok.2 ⟨_, plainOperand_of_isOperand operand op .right, applied_eq_ok.2 ⟨fits, rfl⟩⟩

theorem between_operator {right : Expr} (built : ofAtoms (.operator next :: further) = .ok right)
    (fits : Fits op left (some right) none) :
    Expr.between op (.operator next :: further) left = .ok (stripped op left (some right) none) := by
  have split : splitAtOperator (.operator next :: further) = some ([], next, further) := rfl
  simp only [Expr.between, split, List.any_nil, Bool.false_eq_true, if_false, if_true]
  exact bind_eq_ok.2 ⟨_, built, applied_eq_ok.2 ⟨fits, rfl⟩⟩

theorem between_next (operand : b.isOperand = true) (fits : Fits op left (some (.run [b])) none) {e : Expr}
    (built : ofAtoms (.expr (stripped op left (some (.run [b])) none) :: .operator next :: further) = .ok e) :
    Expr.between op (b :: .operator next :: further) left = .ok e := by
  have split : splitAtOperator (b :: .operator next :: further) = some ([b], next, further) :=
    splitAtOperator_append [b] (by simp [isOperator_of_isOperand operand]) next further
  simp only [Expr.between, split, List.any_cons, isComma_of_isOperand operand, List.any_nil, Bool.or_false,
    Bool.false_eq_true, if_false, reduceCtorEq]
  exact bind_eq_ok.2 ⟨_, plainOperand_of_isOperand operand op .right,
    bind_eq_ok.2 ⟨_, applied_eq_ok.2 ⟨fits, rfl⟩, built⟩⟩

end

/-- The first operator of a clause is applied to a single operand, which is its right operand or the left one of
    the next operator, or the right operand is the clause that follows. -/
theorem ofAtoms_first {op : Operator} (before : List Atom) {rest : List Atom} (function : op.isFunction = false)
    (operands : ∀ a ∈ before, a.isOperand = true)
    (applies : ∀ right, (∀ a, rest.head? = some a → a.isOperand = true → right = .run [a]) →
      Applies op before right) (clause : Clause rest)
    (shorter : ∀ as, as.length < (before ++ .operator op :: rest).length → Clause as →
      ∃ e, ofAtoms as = .ok e ∧ e.WrittenAs as) :
    ∃ e, ofAtoms (before ++ .operator op :: rest) = .ok e ∧ e.WrittenAs (before ++ .operator op :: rest) := by
  have split := splitAtOperator_append before (fun a member => isOperator_of_isOperand (operands a member)) op
    rest
  have left : plainOperand op .left before = .ok (operand before) :=
    plainOperand_eq_ok.2 ⟨fun a member => unknown?_of_isOperand (operands a member), rfl⟩
  rw [ofAtoms_between split function, left]
  show ∃ e, Expr.between op rest (operand before) = .ok e ∧ _
  rcases clause.cases_first with
    ⟨b, operand, rfl⟩ | ⟨next, further, rfl⟩ | ⟨b, next, further, operand, shape, later, rfl⟩
  · obtain ⟨fits, written⟩ := applies (.run [b]) (by rintro a ⟨⟩ _; rfl)
    exact ⟨_, between_operand operand fits, by simpa using written.expand _ (writtenAs_run b) (by simp)⟩
  · obtain ⟨right, built, below⟩ := shorter (.operator next :: further) (by simp; omega) clause
    obtain ⟨fits, written⟩ := applies right (by rintro a ⟨⟩ operand; cases operand)
    exact ⟨_, between_operator built fits, by simpa using written.expand _ below (by simp)⟩
  · obtain ⟨fits, written⟩ := applies (.run [b]) (by rintro a ⟨⟩ _; rfl)
    have applied := written.expand _ (writtenAs_run b) (by simp)
    obtain ⟨e, built, whole⟩ := shorter
      (.expr (stripped op (Expr.operand before) (some (.run [b])) none) :: .operator next :: further)
      (by simp; omega) (.between shape rfl later)
    exact ⟨e, between_next operand fits built, by simpa using whole.expand [] applied (by simp)⟩

end Expr

theorem Atom.Clause.formed {as : List Atom} (h : Clause as) :
    ∃ e, Expr.ofAtoms as = .ok e ∧ e.WrittenAs as := by
  -- An application takes the place of its atoms, so what is left is a shorter clause, but no part of this one.
  induction size : as.length using Nat.strongRecOn generalizing as with
  | ind size ih =>
    subst size
    have shorter (bs : List Atom) (less : bs.length < as.length) (clause : Clause bs) :
        ∃ e, Expr.ofAtoms bs = .ok e ∧ e.WrittenAs bs := ih _ less clause rfl
    cases h with
    | @operand a operand =>
      cases a with
      | parameter p => exact ⟨_, Expr.ofAtoms_alone rfl, Expr.writtenAs_run _⟩
      | column c => exact ⟨_, Expr.ofAtoms_alone rfl, Expr.writtenAs_run _⟩
      | expr e => exact ⟨e, Expr.ofAtoms_alone rfl, Expr.writtenAs_expr e⟩
      | _ => cases operand
    | @between op a rest shape operand clause =>
      exact Expr.ofAtoms_first [a] shape.function (by simpa using operand)
        (fun right _ => Expr.applies_between shape right) clause shorter
    | before shape clause =>
      exact Expr.ofAtoms_first [] shape.function nofun (fun right _ => Expr.applies_before shape right) clause
        shorter
    | @enclosing op e rest shape single clause =>
      refine Expr.ofAtoms_first [] shape.function nofun (fun right first => ?_) clause shorter
      rw [first _ rfl rfl]
      exact Expr.applies_enclosing shape single

end WhereClause
