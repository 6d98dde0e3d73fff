import WhereClause.Condition
import WhereClause.Proofs.Expr.Induction

namespace WhereClause

structure Change where
  parameter : Parameter → Parameter
  token : Token → Token

mutual

def Expr.change (χ : Change) : Expr → Expr
  | .apply op left right third =>
    .apply op (Expr.changeOperand χ left) (Expr.changeOperand χ right) (Expr.changeOperand χ third)
  | .group inner => .group (inner.change χ)
  | .run atoms => .run (Atom.changeAll χ atoms)
  | .nested c => .nested (c.change χ)

def Expr.changeOperand (χ : Change) : Option Expr → Option Expr
  | none => none
  | some e => some (e.change χ)

def Atom.change (χ : Change) : Atom → Atom
  | .parameter p => .parameter (χ.parameter p)
  | .unknown t => .unknown (χ.token t)
  | .expr e => .expr (e.change χ)
  | .operator op => .operator op
  | .column c => .column c
  | .comma => .comma

def Atom.changeAll (χ : Change) : List Atom → List Atom
  | [] => []
  | a :: as => a.change χ :: Atom.changeAll χ as

def Condition.change (χ : Change) : Condition → Condition
  | .empty => .empty
  | .test e => .test (e.change χ)
  | .all parts => .all (Condition.changeAll χ parts)
  | .any parts => .any (Condition.changeAll χ parts)

def Condition.changeAll (χ : Change) : List Condition → List Condition
  | [] => []
  | c :: cs => c.change χ :: Condition.changeAll χ cs

end

variable (χ : Change)

@[simp] theorem Expr.changeOperand_eq (e : Option Expr) : changeOperand χ e = e.map (change χ) := by
  cases e <;> rfl

theorem Expr.isSome_changeOperand (e : Option Expr) : (changeOperand χ e).isSome = e.isSome := by
  cases e <;> rfl

@[simp] theorem Atom.changeAll_eq (as : List Atom) : changeAll χ as = as.map (change χ) := by
  induction as with
  | nil => rfl
  | cons a as ih => simp [changeAll, ih]

@[simp] theorem Condition.changeAll_eq (cs : List Condition) : changeAll χ cs = cs.map (change χ) := by
  induction cs with
  | nil => rfl
  | cons c cs ih => simp [changeAll, ih]

theorem parameters_change : Induction
    (fun e => (e.change χ).parameters = e.parameters.map χ.parameter)
    (fun e => Expr.operandParameters (Expr.changeOperand χ e) =
      (Expr.operandParameters e).map χ.parameter)
    (fun a => (a.change χ).parameters = a.parameters.map χ.parameter)
    (fun as => Atom.allParameters (Atom.changeAll χ as) = (Atom.allParameters as).map χ.parameter)
    (fun c => (c.change χ).parameters = c.parameters.map χ.parameter)
    (fun cs => Condition.allParameters (Condition.changeAll χ cs) =
      (Condition.allParameters cs).map χ.parameter) where
  apply op left right third first second last := by
    rw [Expr.change, Expr.parameters, first, second, last, Expr.parameters, List.map_append,
      List.map_append]
  group e h := h
  run as h := h
  nested c h := h
  absent := rfl
  present e h := h
  operator op := rfl
  parameter p := rfl
  column c := rfl
  comma := rfl
  unknown t := rfl
  inner e h := h
  noAtoms := rfl
  moreAtoms a as first rest := by
    rw [Atom.changeAll, Atom.allParameters, first, rest, Atom.allParameters, List.map_append]
  empty := rfl
  test e h := h
  all cs h := h
  any cs h := h
  noParts := rfl
  moreParts c cs first rest := by
    rw [Condition.changeAll, Condition.allParameters, first, rest, Condition.allParameters,
      List.map_append]

theorem render_change (d : Dialect) (name : ∀ p, (χ.parameter p).name = p.name)
    (text : ∀ t, (χ.token t).text = t.text) : Induction
    (fun e => (e.change χ).render d = e.render d)
    (fun e => Expr.renderOperand d (Expr.changeOperand χ e) = Expr.renderOperand d e)
    (fun a => (a.change χ).render d = a.render d)
    (fun as => Atom.renderAll d (Atom.changeAll χ as) = Atom.renderAll d as)
    (fun c => (c.change χ).render d = c.render d)
    (fun cs => Condition.renderAll d (Condition.changeAll χ cs) = Condition.renderAll d cs) where
  apply op left right third first second last := by
    rw [Expr.change, Expr.render, first, second, last, Expr.isSome_changeOperand, Expr.render]
  group e h := by rw [Expr.change, Expr.render, h, Expr.render]
  run as h := by rw [Expr.change, Expr.render, h, Expr.render]
  nested c h := h
  absent := rfl
  present e h := h
  operator op := rfl
  parameter p := by cases d <;> simp only [Atom.change, Atom.render, Parameter.render, name]
  column c := rfl
  comma := rfl
  unknown t := by rw [Atom.change, Atom.render, text, Atom.render]
  inner e h := h
  noAtoms := rfl
  moreAtoms a as first rest := by
    rw [Atom.changeAll, Atom.renderAll, first, rest, Atom.renderAll]
  empty := rfl
  test e h := h
  all cs h := by rw [Condition.change, Condition.render, h, Condition.render]
  any cs h := by rw [Condition.change, Condition.render, h, Condition.render]
  noParts := rfl
  moreParts c cs first rest := by
    rw [Condition.changeAll, Condition.renderAll, first, rest, Condition.renderAll]

end WhereClause
