import WhereClause.Expr.Basic

namespace WhereClause

mutual

def Expr.parameters : Expr → List Parameter
  | .apply _ left right third =>
    Expr.operandParameters left ++ Expr.operandParameters right ++ Expr.operandParameters third
  | .group inner => inner.parameters
  | .run atoms => Atom.allParameters atoms
  | .nested c => c.parameters

def Expr.operandParameters : Option Expr → List Parameter
  | none => []
  | some e => e.parameters

def Atom.parameters : Atom → List Parameter
  | .parameter p => [p]
  | .expr e => e.parameters
  | _ => []

def Atom.allParameters : List Atom → List Parameter
  | [] => []
  | a :: as => a.parameters ++ Atom.allParameters as

def Condition.parameters : Condition → List Parameter
  | .empty => []
  | .test e => e.parameters
  | .all parts => Condition.allParameters parts
  | .any parts => Condition.allParameters parts

def Condition.allParameters : List Condition → List Parameter
  | [] => []
  | c :: cs => c.parameters ++ Condition.allParameters cs

end

@[simp] theorem Atom.allParameters_eq (as : List Atom) : allParameters as = as.flatMap parameters := by
  induction as with
  | nil => rfl
  | cons a as ih => simp [allParameters, ih]

@[simp] theorem Condition.allParameters_eq (cs : List Condition) :
    allParameters cs = cs.flatMap parameters := by
  induction cs with
  | nil => rfl
  | cons c cs ih => simp [allParameters, ih]

theorem Expr.operandParameters_eq (e : Option Expr) :
    operandParameters e = e.toList.flatMap parameters := by
  cases e <;> simp [operandParameters]

end WhereClause
