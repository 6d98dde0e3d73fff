import WhereClause.Expr.Basic

namespace WhereClause

structure Induction (expr : Expr → Prop) (operand : Option Expr → Prop) (atom : Atom → Prop)
    (atoms : List Atom → Prop) (condition : Condition → Prop) (parts : List Condition → Prop) :
    Prop where
  apply : ∀ op left right third, operand left → operand right → operand third →
    expr (.apply op left right third)
  group : ∀ e, expr e → expr (.group e)
  run : ∀ as, atoms as → expr (.run as)
  nested : ∀ c, condition c → expr (.nested c)
  absent : operand none
  present : ∀ e, expr e → operand (some e)
  operator : ∀ op, atom (.operator op)
  parameter : ∀ p, atom (.parameter p)
  column : ∀ c, atom (.column c)
  comma : atom .comma
  unknown : ∀ t, atom (.unknown t)
  inner : ∀ e, expr e → atom (.expr e)
  noAtoms : atoms []
  moreAtoms : ∀ a as, atom a → atoms as → atoms (a :: as)
  empty : condition .empty
  test : ∀ e, expr e → condition (.test e)
  all : ∀ cs, parts cs → condition (.all cs)
  any : ∀ cs, parts cs → condition (.any cs)
  noParts : parts []
  moreParts : ∀ c cs, condition c → parts cs → parts (c :: cs)

namespace Induction

variable {expr : Expr → Prop} {operand : Option Expr → Prop} {atom : Atom → Prop}
  {atoms : List Atom → Prop} {condition : Condition → Prop} {parts : List Condition → Prop}

mutual

theorem ofExpr (h : Induction expr operand atom atoms condition parts) : (e : Expr) → expr e
  | .apply op left right third =>
    h.apply op left right third (h.ofOperand left) (h.ofOperand right) (h.ofOperand third)
  | .group e => h.group e (h.ofExpr e)
  | .run as => h.run as (h.ofAtoms as)
  | .nested c => h.nested c (h.ofCondition c)

theorem ofOperand (h : Induction expr operand atom atoms condition parts) :
    (e : Option Expr) → operand e
  | none => h.absent
  | some e => h.present e (h.ofExpr e)

theorem ofAtom (h : Induction expr operand atom atoms condition parts) : (a : Atom) → atom a
  | .operator op => h.operator op
  | .parameter p => h.parameter p
  | .column c => h.column c
  | .comma => h.comma
  | .unknown t => h.unknown t
  | .expr e => h.inner e (h.ofExpr e)

theorem ofAtoms (h : Induction expr operand atom atoms condition parts) : (as : List Atom) → atoms as
  | [] => h.noAtoms
  | a :: as => h.moreAtoms a as (h.ofAtom a) (h.ofAtoms as)

theorem ofCondition (h : Induction expr operand atom atoms condition parts) :
    (c : Condition) → condition c
  | .empty => h.empty
  | .test e => h.test e (h.ofExpr e)
  | .all cs => h.all cs (h.ofParts cs)
  | .any cs => h.any cs (h.ofParts cs)

theorem ofParts (h : Induction expr operand atom atoms condition parts) :
    (cs : List Condition) → parts cs
  | [] => h.noParts
  | c :: cs => h.moreParts c cs (h.ofCondition c) (h.ofParts cs)

end

end Induction

end WhereClause
