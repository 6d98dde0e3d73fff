import WhereClause.Proofs.Expr.Formed

namespace WhereClause

/-- Lists of what stands in expressions, operands and atoms. A function stands before its operands, any
    other operator after the left one. -/
structure Gathers {β : Type} (expr : Expr → List β) (operand : Option Expr → List β)
    (atom : Atom → List β) : Prop where
  function : ∀ op left right third, op.isFunction = true → expr (.apply op left right third) =
    atom (.operator op) ++ (operand left ++ operand right ++ operand third)
  between : ∀ op left right third, op.isFunction = false → expr (.apply op left right third) =
    operand left ++ (atom (.operator op) ++ (operand right ++ operand third))
  group : ∀ e, expr (.group e) = expr e
  run : ∀ as, expr (.run as) = as.flatMap atom
  absent : operand none = []
  present : ∀ e, operand (some e) = expr e
  comma : atom .comma = []
  inner : ∀ e, atom (.expr e) = expr e

namespace Gathers

variable {β : Type} {expr : Expr → List β} {operand : Option Expr → List β} {atom : Atom → List β}

theorem ungrouped (g : Gathers expr operand atom) (e : Expr) : expr e.ungrouped = expr e := by
  induction e using Expr.ungrouped.induct with
  | case1 inner ih => rw [Expr.ungrouped, ih, g.group]
  | case2 e single => rw [Expr.ungrouped]; simpa using single

theorem strip (g : Gathers expr operand atom) (template : String) (slot : Slot) (e : Option Expr) :
    operand (e.map (Expr.strip template slot)) = operand e := by
  cases e with
  | none => rfl
  | some e =>
    rw [Option.map_some, g.present, g.present]
    unfold Expr.strip
    split
    · split
      · simp [g.ungrouped, g.run, g.inner, g.group]
      · rw [g.ungrouped, g.group]
      · rfl
    · rfl

theorem plain (g : Gathers expr operand atom) (atoms : List Atom) :
    operand (Expr.operand atoms) = atoms.flatMap atom := by
  unfold Expr.operand
  split
  · simp_all [g.absent]
  · rw [g.present, g.run]

theorem stripped_of_function (g : Gathers expr operand atom) {op : Operator}
    (function : op.isFunction = true) (left right third : Option Expr) :
    expr (Expr.stripped op left right third) =
      atom (.operator op) ++ (operand left ++ operand right ++ operand third) := by
  simp only [Expr.stripped, g.function op _ _ _ function, g.strip]

theorem stripped_of_not (g : Gathers expr operand atom) {op : Operator}
    (function : op.isFunction = false) (left right : Option Expr) :
    expr (Expr.stripped op left right none) =
      operand left ++ (atom (.operator op) ++ operand right) := by
  simp only [Expr.stripped, g.between op _ _ _ function, g.strip, g.absent, List.append_nil]

theorem commaParts (g : Gathers expr operand atom) (atoms : List Atom) :
    (Atom.commaParts atoms).flatten.flatMap atom = atoms.flatMap atom := by
  induction atoms with
  | nil => rfl
  | cons a as ih =>
    simp only [Atom.commaParts]
    split
    · next isComma =>
      cases a with
      | comma => simp [ih, g.comma]
      | _ => cases isComma
    · split
      · simp_all
      · next first rest found =>
        simp only [found, List.flatten_cons, List.flatMap_append] at ih
        simp [ih]

theorem arguments (g : Gathers expr operand atom) {op : Operator} {atoms : List Atom} {args : Arguments}
    (h : Arguments.read op atoms = .ok args) :
    args.left.flatMap atom ++ args.right.flatMap atom ++ args.third.flatMap atom =
      atoms.flatMap atom := by
  have whole := g.commaParts atoms
  rcases Arguments.read_cases h with
    ⟨rfl, left, right, third⟩ | ⟨listed, right, third⟩ | ⟨listed, third⟩ | listed
  · simp [left, right, third]
  · simpa [listed, right, third] using whole
  · simpa [listed, third] using whole
  · simpa [listed] using whole

theorem formed (g : Gathers expr operand atom) {atoms : List Atom} {e : Expr}
    (h : Expr.Formed atoms e) : expr e = atoms.flatMap atom := by
  induction h with
  | expr e => simp [g.inner]
  | parameter p => simp [g.run]
  | column c => simp [g.run]
  | @call op after args inner function read plain formed fits ih =>
    have argument (slot : Slot) : operand (Expr.argumentOf (args.get slot) (inner slot)) =
        (args.get slot).flatMap atom := by
      unfold Expr.argumentOf
      split
      · next operators => rw [g.present, ih slot operators]
      · exact g.plain _
    have left := argument .left
    have right := argument .right
    have third := argument .third
    simp only [Arguments.get] at left right third
    rw [g.stripped_of_function function, left, right, third, g.arguments read, List.flatMap_cons]
  | between function left right fits => simp [g.stripped_of_not function, g.plain]
  | inner function left formed fits ih => simp [g.stripped_of_not function, g.plain, g.present, ih]
  | chain function left right nonempty fits formed ih =>
    simp [ih, g.inner, g.stripped_of_not function, g.plain]

end Gathers

end WhereClause
