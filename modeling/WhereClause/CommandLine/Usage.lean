import WhereClause.Text.Control

namespace WhereClause.CommandLine

inductive Setting where
  | dialect
  | field
  | constant
  | operators
deriving DecidableEq, Inhabited

namespace Setting

def name : Setting → String
  | .dialect => "syntax"
  | .field => "field"
  | .constant => "constant"
  | .operators => "operators"

def valueName : Setting → String
  | .dialect => "SYNTAX"
  | .field => "NAME=[QUALIFIER.]COLUMN[:TYPE]"
  | .constant => "NAME=LITERAL"
  | .operators => "FORMAT"

def usage (s : Setting) : String := "--" ++ s.name ++ " <" ++ s.valueName ++ ">"

def ofName? (n : String) : Option Setting := [dialect, field, constant, operators].find? (·.name = n)

end Setting

inductive Switch where
  | demo
  | distinct
  | version
deriving DecidableEq, Inhabited

namespace Switch

def name : Switch → String
  | .demo => "demo"
  | .distinct => "distinct"
  | .version => "version"

def usage (s : Switch) : String := "--" ++ s.name

def ofName? (n : String) : Option Switch := [demo, distinct, version].find? (·.name = n)

end Switch

inductive Misuse where
  | invalidValue (value : String) (s : Setting) (reason : Option String)
  | missingValue (s : Setting)
  | unexpectedValue (value : String) (s : Switch)
  | unexpectedArgument (argument : String)
  | repeated (usage : String)
  | missingFilter
deriving DecidableEq, Inhabited

namespace Misuse

open Text.Control

def message : Misuse → String
  | .invalidValue value s reason =>
    "invalid value '" ++ emphasize value ++ "' for '" ++ emphasize s.usage ++ "'" ++
      match reason with
      | some r => ": " ++ r
      | none => ""
  | .missingValue s => "a value is required for '" ++ emphasize s.usage ++ "' but none was supplied"
  | .unexpectedValue value s =>
    "unexpected value '" ++ emphasize value ++ "' for '" ++ emphasize s.usage ++
      "' found; no more were expected"
  | .unexpectedArgument argument => "unexpected argument '" ++ emphasize argument ++ "' found"
  | .repeated usage => "the argument '" ++ emphasize usage ++ "' cannot be used multiple times"
  | .missingFilter => "the following required arguments were not provided:"

def notice (m : Misuse) : String :=
  emphasize "error:" ++ " " ++ m.message ++ "\n\nFor more information, try '" ++
    emphasize "--help" ++ "'.\n"

end Misuse

inductive Stop where
  | misuse (m : Misuse)
  | version
deriving DecidableEq, Inhabited

end WhereClause.CommandLine
