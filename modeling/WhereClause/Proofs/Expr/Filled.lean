import WhereClause.Proofs.Expr.Change
import WhereClause.Proofs.Expr.Keep

namespace WhereClause

mutual

/-- Every operator applied in the expression is implemented and has exactly the operands that its template
    in the filter language has places for. -/
def Expr.Filled : Expr → Prop
  | .apply op left right third =>
    op ∈ Operator.implemented ∧ Expr.Fits op left right third ∧
      Expr.OperandFilled left ∧ Expr.OperandFilled right ∧ Expr.OperandFilled third
  | .group inner => inner.Filled
  | .run atoms => Atom.AllFilled atoms
  | .nested c => c.Filled

def Expr.OperandFilled : Option Expr → Prop
  | none => True
  | some e => e.Filled

def Atom.Filled : Atom → Prop
  | .operator op => op ∈ Operator.implemented
  | .expr e => e.Filled
  | _ => True

def Atom.AllFilled : List Atom → Prop
  | [] => True
  | a :: as => a.Filled ∧ Atom.AllFilled as

def Condition.Filled : Condition → Prop
  | .empty => True
  | .test e => e.Filled
  | .all parts => Condition.AllFilled parts
  | .any parts => Condition.AllFilled parts

def Condition.AllFilled : List Condition → Prop
  | [] => True
  | c :: cs => c.Filled ∧ Condition.AllFilled cs

end

@[simp] theorem Atom.allFilled_iff {as : List Atom} : AllFilled as ↔ ∀ a ∈ as, a.Filled := by
  induction as with
  | nil => simp [AllFilled]
  | cons a as ih => simp [AllFilled, ih]

@[simp] theorem Condition.allFilled_iff {cs : List Condition} :
    AllFilled cs ↔ ∀ c ∈ cs, c.Filled := by
  induction cs with
  | nil => simp [AllFilled]
  | cons c cs ih => simp [AllFilled, ih]

theorem filled_change (χ : Change) : Induction
    (fun e => (e.change χ).Filled ↔ e.Filled)
    (fun e => Expr.OperandFilled (Expr.changeOperand χ e) ↔ Expr.OperandFilled e)
    (fun a => (a.change χ).Filled ↔ a.Filled)
    (fun as => Atom.AllFilled (Atom.changeAll χ as) ↔ Atom.AllFilled as)
    (fun c => (c.change χ).Filled ↔ c.Filled)
    (fun cs => Condition.AllFilled (Condition.changeAll χ cs) ↔ Condition.AllFilled cs) where
  apply op left right third first second last := by
    simp only [Expr.change, Expr.Filled, Expr.Fits, Expr.isSome_changeOperand, first, second, last]
  group e h := h
  run as h := h
  nested c h := h
  absent := Iff.rfl
  present e h := h
  operator op := Iff.rfl
  parameter p := Iff.rfl
  column c := Iff.rfl
  comma := Iff.rfl
  unknown t := Iff.rfl
  inner e h := h
  noAtoms := Iff.rfl
  moreAtoms a as first rest := and_congr first rest
  empty := Iff.rfl
  test e h := h
  all cs h := h
  any cs h := h
  noParts := Iff.rfl
  moreParts c cs first rest := and_congr first rest

theorem Condition.filled_join {j : Junction} {cs : List Condition} (h : ∀ c ∈ cs, c.Filled) :
    (join j cs).Filled := by
  have kept : ∀ c ∈ withoutEmpty cs, c.Filled := fun c member => h c (mem_withoutEmpty.1 member).1
  cases j <;> simpa [join, Filled] using kept

theorem Condition.filled_push {c child : Condition} (h : c.Filled) (added : child.Filled) :
    (c.push child).Filled := by
  unfold push
  split
  · exact h
  · cases c with
    | empty => exact added
    | test e => exact ⟨h, added, trivial⟩
    | all parts => simp_all [Filled, or_imp]
    | any parts => simp_all [Filled, or_imp]

namespace Expr

open Atom

theorem filled_ungrouped (e : Expr) : e.ungrouped.Filled ↔ e.Filled := by
  induction e using Expr.ungrouped.induct with
  | case1 inner ih => simpa [ungrouped, Filled] using ih
  | case2 e single => rw [ungrouped]; simpa using single

theorem filled_strip (template : String) (slot : Slot) (e : Expr) :
    (strip template slot e).Filled ↔ e.Filled := by
  unfold strip
  split
  · split
    · simp [filled_ungrouped, Filled, Atom.Filled]
    · simp [filled_ungrouped, Filled]
    · rfl
  · rfl

theorem filled_stripped {op : Operator} {left right third : Option Expr}
    (implemented : op ∈ Operator.implemented) (fits : Fits op left right third)
    (first : OperandFilled left) (second : OperandFilled right) (last : OperandFilled third) :
    (stripped op left right third).Filled := by
  have operand (template : String) (slot : Slot) {e : Option Expr} (h : OperandFilled e) :
      OperandFilled (e.map (strip template slot)) := by
    cases e with
    | none => trivial
    | some inner => exact (filled_strip template slot inner).2 h
  have same : Fits op (left.map (strip (op.template .filter third.isSome) .left))
      (right.map (strip (op.template .filter third.isSome) .right))
      (third.map (strip (op.template .filter third.isSome) .third)) := by
    simpa [Fits] using fits
  exact ⟨implemented, same, operand _ .left first, operand _ .right second, operand _ .third last⟩

theorem keeps_filled : Keeps Atom.Filled OperandFilled Expr.Filled where
  comma a h := by
    cases a with
    | comma => trivial
    | _ => cases h
  expr e := Iff.rfl
  parameter p := ⟨trivial, trivial⟩
  column c := ⟨trivial, trivial⟩
  absent := trivial
  run as _ h := allFilled_iff.2 h
  present e h := h
  stripped op left right third implemented := filled_stripped implemented

theorem Formed.filled {atoms : List Atom} {e : Expr} (h : Formed atoms e)
    (filled : ∀ a ∈ atoms, a.Filled) : e.Filled := keeps_filled.formed h filled

end Expr

end WhereClause
