import WhereClause.Dialect
import WhereClause.Template

namespace WhereClause

namespace Operator

inductive Kind where
  | whitespace
  | binary
  | logical
  | arithmetic
  | grouping
  | function
deriving DecidableEq, Inhabited

namespace Kind

def name : Kind → String
  | .whitespace => "whitespace"
  | .binary => "binary"
  | .logical => "logical"
  | .arithmetic => "arithmetic"
  | .grouping => "grouping"
  | .function => "function"

def ofName? (s : String) : Option Kind :=
  [whitespace, binary, logical, arithmetic, grouping, function].find? (·.name = s)

theorem ofName?_name (k : Kind) : ofName? k.name = some k := by cases k <;> decide

end Kind

structure Templates where
  filter : String
  sql : String
deriving DecidableEq, Inhabited

def Templates.get (t : Templates) : Dialect → String
  | .filter => t.filter
  | .sql | .placeholder => t.sql

end Operator

/-- A word of the filter language: its keyword, its spelling in SQL and how its applications are
    written. With a third operand the overload, if there is one, takes the place of the templates. -/
structure Operator where
  keyword : String
  sql : String
  kind : Operator.Kind
  templates : Operator.Templates
  overload : Option Operator.Templates := none
  unimplemented : Option String := none
deriving DecidableEq, Inhabited

namespace Operator

def isFunction (o : Operator) : Bool := o.kind = .function

def isImplemented (o : Operator) : Bool := o.unimplemented.isNone

def spelling (o : Operator) : Dialect → String
  | .filter => o.keyword
  | .sql | .placeholder => o.sql

def template (o : Operator) (d : Dialect) (third : Bool) : String :=
  match o.overload with
  | some t => if third then t.get d else o.templates.get d
  | none => o.templates.get d

end Operator

end WhereClause
