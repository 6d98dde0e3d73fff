import WhereClause.Column
import WhereClause.Operator.Basic
import WhereClause.Parameter
import WhereClause.Token.Basic

namespace WhereClause

mutual

inductive Expr where
  | apply (op : Operator) (left right third : Option Expr)
  | group (inner : Expr)
  | run (atoms : List Atom)
  /-- A condition that stands where an operand is expected. -/
  | nested (condition : Condition)

inductive Atom where
  | operator (op : Operator)
  | parameter (p : Parameter)
  | column (c : Column)
  | comma
  | unknown (t : Token)
  | expr (e : Expr)

inductive Condition where
  | empty
  | test (e : Expr)
  | all (parts : List Condition)
  | any (parts : List Condition)

end

instance : Inhabited Condition := ⟨.empty⟩

instance : Inhabited Expr := ⟨.run []⟩

instance : Inhabited Atom := ⟨.comma⟩

namespace Atom

def operator? : Atom → Option Operator
  | .operator op => some op
  | _ => none

def isOperator (a : Atom) : Bool := a.operator?.isSome

def isComma : Atom → Bool
  | .comma => true
  | _ => false

def unknown? : Atom → Option Token
  | .unknown t => some t
  | _ => none

end Atom

namespace Expr

def operand (atoms : List Atom) : Option Expr := if atoms.isEmpty then none else some (.run atoms)

def ungrouped : Expr → Expr
  | .group inner => inner.ungrouped
  | e => e

def operands (left right third : Option Expr) : List Expr :=
  left.toList ++ right.toList ++ third.toList

def arity? : Expr → Option Nat
  | .apply _ left right third => some (operands left right third).length
  | _ => none

/-- The expression as a condition of its own: parentheses around it are dropped, and a nested
    condition stands for itself. -/
def toCondition : Expr → Condition
  | .group inner => inner.toCondition
  | .nested c => c
  | e => .test e

end Expr

mutual

def Expr.hasOperator : Expr → Bool
  | .apply .. => true
  | .group inner => inner.hasOperator
  | .run atoms => Atom.anyHasOperator atoms
  | .nested _ => true

def Atom.hasOperator : Atom → Bool
  | .expr e => e.hasOperator
  | _ => false

def Atom.anyHasOperator : List Atom → Bool
  | [] => false
  | a :: as => a.hasOperator || Atom.anyHasOperator as

end

theorem Atom.anyHasOperator_eq (as : List Atom) : anyHasOperator as = as.any hasOperator := by
  induction as with
  | nil => rfl
  | cons a as ih => simp [anyHasOperator, ih]

end WhereClause
