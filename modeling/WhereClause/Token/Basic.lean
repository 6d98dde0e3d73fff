import WhereClause.Position
import WhereClause.Text.Case

namespace WhereClause

inductive Junction where
  | all
  | any
deriving DecidableEq, Inhabited

def Junction.word : Junction → String
  | .all => "and"
  | .any => "or"

inductive Token.Kind where
  | word
  | number
  | quoted
  | symbol
  | blank
  | lineEnd
  | finish
deriving DecidableEq, Inhabited

namespace Token.Kind

def name : Kind → String
  | .word => "Word"
  | .number => "Number"
  | .quoted => "QuotedString"
  | .symbol => "Symbol"
  | .blank => "WhiteSpace"
  | .lineEnd => "EOL"
  | .finish => "EOF"

def ofName? (s : String) : Option Kind :=
  [word, number, quoted, symbol, blank, lineEnd, finish].find? (·.name = s)

def isTrivia : Kind → Bool
  | .blank | .lineEnd | .finish => true
  | _ => false

theorem ofName?_name (k : Kind) : ofName? k.name = some k := by cases k <;> decide

end Token.Kind

structure Token where
  kind : Token.Kind
  text : String
  position : Position
deriving DecidableEq, Inhabited

namespace Token

def isSymbol (t : Token) (symbol : String) : Bool := t.kind = .symbol && t.text == symbol

def opens (t : Token) : Bool := t.isSymbol "("

def closes (t : Token) : Bool := t.isSymbol ")"

def isComma (t : Token) : Bool := t.isSymbol ","

def junction? (t : Token) : Option Junction :=
  if t.kind ≠ .word then none
  else if Text.sameLetters t.text "and" then some .all
  else if Text.sameLetters t.text "or" then some .any
  else none

def describe (t : Token) : String := t.kind.name ++ " " ++ t.text

def significant (ts : List Token) : List Token := ts.filter fun t => !t.kind.isTrivia

end Token

end WhereClause
