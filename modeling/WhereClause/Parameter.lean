import WhereClause.Dialect
import WhereClause.Value.Basic

namespace WhereClause

structure Parameter where
  name : String
  value : Value
deriving DecidableEq, Inhabited

namespace Parameter

def render (d : Dialect) (p : Parameter) : String :=
  match d with
  | .placeholder => "?"
  | .sql | .filter => "@" ++ p.name

def same (p q : Parameter) : Bool := p.name == q.name && p.value.same q.value

def distinct : List Parameter → List Parameter
  | [] => []
  | p :: ps => p :: (distinct ps).filter fun q => q.name ≠ p.name

end Parameter

end WhereClause
