import WhereClause.Template
import WhereClause.Token.Basic

namespace WhereClause

namespace Fault

inductive Lexical where
  | unterminatedString
  | stated (message : String)
deriving DecidableEq, Inhabited

def Lexical.message : Lexical → String
  | .unterminatedString => "unterminated quoted string"
  | .stated message => message

inductive Structural where
  | tooDeep (limit : Nat)
  | unmatchedClose
  | unclosedOpen
  | missingCondition (word : String)
  | junctionInCall (word : String)
  | strayBeforeCall (stray keyword : String)
  | emptyArgument (keyword : String)
  | tooManyArguments (keyword : String)
  | commaAfter (keyword : String)
  | missingOperand (keyword : String) (slot : Slot)
  | extraOperand (keyword : String) (slot : Slot)
  | stated (message : String)
deriving DecidableEq, Inhabited

def Structural.message : Structural → String
  | .tooDeep limit => "nesting deeper than " ++ Nat.repr limit ++ " levels"
  | .unmatchedClose => "unmatched ')'"
  | .unclosedOpen => "unclosed '('"
  | .missingCondition word => "missing condition next to '" ++ word ++ "'"
  | .junctionInCall word => "'" ++ word ++ "' is not allowed in function arguments"
  | .strayBeforeCall stray keyword => "unexpected " ++ stray ++ " before function '" ++ keyword ++ "'"
  | .emptyArgument keyword => "empty argument in call to '" ++ keyword ++ "'"
  | .tooManyArguments keyword => "too many arguments in call to '" ++ keyword ++ "'"
  | .commaAfter keyword => "unexpected ',' after operator '" ++ keyword ++ "'"
  | .missingOperand keyword slot =>
    "operator '" ++ keyword ++ "' is missing its " ++ slot.name ++ " operand"
  | .extraOperand keyword slot =>
    "operator '" ++ keyword ++ "' does not take a " ++ slot.name ++ " operand"
  | .stated message => message

end Fault

inductive Fault where
  | lexical (cause : Fault.Lexical) (position : Position)
  | unresolved (token keyword : String) (slot : Slot) (position : Position)
  | missingOperator (token : Option String) (position : Option Position)
  | structural (cause : Fault.Structural) (token : Option String) (position : Option Position)
deriving DecidableEq, Inhabited

namespace Fault

def kind : Fault → String
  | .lexical .. => "Tokenize error"
  | .unresolved .. => "Unresolved operand"
  | .missingOperator .. => "Missing operator"
  | .structural .. => "Structural error"

def position? : Fault → Option Position
  | .lexical _ p => some p
  | .unresolved _ _ _ p => some p
  | .missingOperator _ p => p
  | .structural _ _ p => p

def token? : Fault → Option String
  | .lexical .. => none
  | .unresolved t .. => some t
  | .missingOperator t _ => t
  | .structural _ t _ => t

def place : Option String → Option Position → String
  | some t, some p => " near '" ++ t ++ "' (" ++ p.text ++ ")"
  | some t, none => " near '" ++ t ++ "'"
  | none, some p => " (" ++ p.text ++ ")"
  | none, none => ""

def message : Fault → String
  | .lexical cause p => cause.message ++ " (" ++ p.text ++ ")"
  | .unresolved token keyword slot p =>
    "unable to resolve '" ++ token ++ "' as field, constant or literal for operator '" ++ keyword ++
      "', position " ++ slot.name ++ " (" ++ p.text ++ ")"
  | .missingOperator t p => "missing operator" ++ place t p
  | .structural cause t p => cause.message ++ place t p

def atToken (cause : Structural) (t : Token) : Fault := .structural cause t.text t.position

def unplaced (cause : Structural) : Fault := .structural cause none none

end Fault

end WhereClause
