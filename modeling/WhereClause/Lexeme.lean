import WhereClause.Catalog
import WhereClause.Expr.Basic
import WhereClause.Operator.Table
import WhereClause.Outline.Basic
import WhereClause.Value.Literal

namespace WhereClause

structure Lexeme where
  token : Token
  atom : Atom

namespace Token

def operator? (t : Token) : Option Operator :=
  if t.kind = .word then Operator.find? t.text else none

def literal? (t : Token) : Option Value :=
  ((if t.kind = .quoted then Text.Quoted.read t.text else none).map .string).or
    (Value.readNumber? t.text)

end Token

/-- The meaning of a token: an operator before all, then a comma, a literal, a field, a constant and
    a keyword that stands for a value. A value becomes a parameter of the given name. -/
def Atom.ofToken (v : Vocabulary) (name : String) (t : Token) : Atom :=
  match t.operator? with
  | some op => .operator op
  | none =>
    if t.isComma then .comma
    else
      match t.literal? with
      | some value => .parameter ⟨name, value⟩
      | none =>
        match v.field? t.text with
        | some f => .column f.column
        | none =>
          match (v.constant? t.text).or (Value.readKeyword? t.text) with
          | some value => .parameter ⟨name, value⟩
          | none => .unknown t

def Atom.isParameter : Atom → Bool
  | .parameter _ => true
  | _ => false

def Parameter.numbered (stem : String) (n : Nat) : String := stem ++ Nat.repr n

namespace Lexeme

def namesFunction (x : Lexeme) : Bool := x.token.namesFunction

def read (v : Vocabulary) (stem : String) (n : Nat) (t : Token) : Lexeme :=
  ⟨t, Atom.ofToken v (Parameter.numbered stem n) t⟩

def next (x : Lexeme) (n : Nat) : Nat := if x.atom.isParameter then n + 1 else n

end Lexeme

def Event.resolve (v : Vocabulary) (stem : String) : Nat → List (Event Token) → List (Event Lexeme)
  | _, [] => []
  | n, .enter :: es => .enter :: resolve v stem n es
  | n, .leave :: es => .leave :: resolve v stem n es
  | n, .joint j word :: es => .joint j word :: resolve v stem n es
  | n, .leaf t :: es =>
    .leaf (Lexeme.read v stem n t) :: resolve v stem ((Lexeme.read v stem n t).next n) es

end WhereClause
