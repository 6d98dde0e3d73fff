import WhereClause.Expr.Basic
import WhereClause.Operator.Table

namespace WhereClause

def Operator.slotText (op : Operator) (d : Dialect) (left right third name : String) :
    Option String :=
  if name = "op" then some (op.spelling d)
  else if name = Slot.left.marker then some left
  else if name = Slot.right.marker then some right
  else if name = Slot.third.marker then some third
  else none

def Operator.separator (op : Operator) (d : Dialect) : String :=
  Operator.newLine.spelling d ++ " " ++ op.spelling d ++ " "

mutual

def Expr.render (d : Dialect) : Expr → String
  | .apply op left right third =>
    Template.fill (op.template d third.isSome)
      (op.slotText d (Expr.renderOperand d left) (Expr.renderOperand d right)
        (Expr.renderOperand d third))
  | .group inner => "(" ++ inner.render d ++ ")"
  | .run atoms => Text.concat (Atom.renderAll d atoms)
  | .nested c => c.render d

def Expr.renderOperand (d : Dialect) : Option Expr → String
  | none => ""
  | some e => e.render d

def Atom.render (d : Dialect) : Atom → String
  | .operator op => op.spelling d
  | .parameter p => p.render d
  | .column c => c.render d
  | .comma => ","
  | .unknown t => t.text
  | .expr e => e.render d

def Atom.renderAll (d : Dialect) : List Atom → List String
  | [] => []
  | a :: as => a.render d :: Atom.renderAll d as

def Condition.render (d : Dialect) : Condition → String
  | .empty => "()"
  | .test e => e.render d
  | .all parts =>
    "(" ++ Text.join (Operator.conjunction.separator d) (Condition.renderAll d parts) ++ ")"
  | .any parts =>
    "(" ++ Text.join (Operator.disjunction.separator d) (Condition.renderAll d parts) ++ ")"

def Condition.renderAll (d : Dialect) : List Condition → List String
  | [] => []
  | c :: cs => c.render d :: Condition.renderAll d cs

end

def Atom.describe : Atom → String
  | .operator op => "operator '" ++ op.keyword ++ "'"
  | .parameter p => "value " ++ p.value.sql
  | .column c => "field '" ++ c.dotted ++ "'"
  | .comma => "','"
  | .unknown t => "'" ++ t.text ++ "'"
  | .expr e => "'" ++ e.render .filter ++ "'"

@[simp] theorem Atom.renderAll_eq (d : Dialect) (as : List Atom) :
    renderAll d as = as.map (render d) := by
  induction as with
  | nil => rfl
  | cons a as ih => simp [renderAll, ih]

@[simp] theorem Condition.renderAll_eq (d : Dialect) (cs : List Condition) :
    renderAll d cs = cs.map (render d) := by
  induction cs with
  | nil => rfl
  | cons c cs ih => simp [renderAll, ih]

theorem Expr.renderOperand_eq (d : Dialect) (e : Option Expr) :
    renderOperand d e = (e.map (render d)).getD "" := by
  cases e <;> rfl

end WhereClause
