namespace WhereClause

/-- What a rendering is written in: SQL with named parameters, the filter language, or SQL with
    positional parameters. -/
inductive Dialect where
  | sql
  | filter
  | placeholder
deriving DecidableEq, Inhabited

namespace Dialect

def name : Dialect → String
  | .sql => "sql"
  | .filter => "filter"
  | .placeholder => "placeholder"

def ofName? (s : String) : Option Dialect := [sql, filter, placeholder].find? (·.name = s)

theorem ofName?_name (d : Dialect) : ofName? d.name = some d := by cases d <;> decide

end Dialect

end WhereClause
