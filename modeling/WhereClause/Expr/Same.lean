import WhereClause.Expr.Basic

namespace WhereClause

mutual

def Expr.same : Expr → Expr → Bool
  | .apply o a b c, .apply p x y z =>
    o == p && Expr.sameOperand a x && Expr.sameOperand b y && Expr.sameOperand c z
  | .group e, .group f => e.same f
  | .run as, .run bs => Atom.allSame as bs
  | .nested c, .nested d => c.same d
  | _, _ => false

def Expr.sameOperand : Option Expr → Option Expr → Bool
  | none, none => true
  | some e, some f => e.same f
  | _, _ => false

def Atom.same : Atom → Atom → Bool
  | .operator o, .operator p => o == p
  | .parameter p, .parameter q => p.same q
  | .column c, .column d => c == d
  | .comma, .comma => true
  | .unknown t, .unknown u => t == u
  | .expr e, .expr f => e.same f
  | _, _ => false

def Atom.allSame : List Atom → List Atom → Bool
  | [], [] => true
  | a :: as, b :: bs => a.same b && Atom.allSame as bs
  | _, _ => false

def Condition.same : Condition → Condition → Bool
  | .empty, .empty => true
  | .test e, .test f => e.same f
  | .all cs, .all ds => Condition.allSame cs ds
  | .any cs, .any ds => Condition.allSame cs ds
  | _, _ => false

def Condition.allSame : List Condition → List Condition → Bool
  | [], [] => true
  | c :: cs, d :: ds => c.same d && Condition.allSame cs ds
  | _, _ => false

end

end WhereClause
