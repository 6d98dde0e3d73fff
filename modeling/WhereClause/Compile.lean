import WhereClause.Condition
import WhereClause.Expr.OfAtoms
import WhereClause.Lexeme
import WhereClause.Outcome
import WhereClause.Outline.Build
import WhereClause.Token.Scan

namespace WhereClause

namespace Node

def firstJunction (ns : List (Node Lexeme)) : Junction := (ns.findSome? junction?).getD .all

def joined (ns : List (Node Lexeme)) (parts : Outcome (List Condition)) : Outcome Condition := do
  let j := firstJunction ns
  if (ns.filterMap junction?).any (· ≠ j) then Outcome.warn (.mixed j)
  let cs ← parts
  return Condition.join j cs

def asOperand (n : Node Lexeme) (atoms : List Atom) : Outcome (List Atom) :=
  if n.isCall then do
    let e ← Expr.ofAtoms atoms
    return [.expr e]
  else return atoms

/-- Atoms that have to be a test: an operator is applied somewhere in them. -/
def test (n : Node Lexeme) (atoms : Outcome (List Atom)) : Outcome Condition := do
  let as ← atoms
  let e ← Expr.ofAtoms as
  if e.hasOperator then return .test e
  else
    let first := n.firstToken? Lexeme.token
    Outcome.fail (.missingOperator (first.map Token.text) (first.map Token.position))

def missingCondition (word : Token) : Fault := .atToken (.missingCondition word.text) word

mutual

def compile : Node Lexeme → Outcome Condition
  | .run [] [] => return .empty
  | .run [] [n] => n.compile
  | .run items cs => test (.run items cs) do return items.map Lexeme.atom ++ (← atomsOf cs)
  | .group [] => return .empty
  | .group [n] => if n.elided.isGrouping then n.compile else test (.group [n]) (atomsOf [n])
  | .group cs => test (.group cs) (atomsOf cs)
  | .boolGroup [] => return .empty
  | .boolGroup cs => joined cs (partsOf none true cs)
  | .call name cs => test (.call name cs) do return name.atom :: (← atomsOf cs)
  | .marker _ word => Outcome.fail (.atToken (.junctionInCall word.text) word)

/-- The conditions between the joining words, given the last such word and whether a condition has
    to come next. -/
def partsOf (last : Option Token) (expected : Bool) :
    List (Node Lexeme) → Outcome (List Condition)
  | [] =>
    match expected, last with
    | true, some word => Outcome.fail (missingCondition word)
    | _, _ => return []
  | .marker _ word :: ns =>
    if expected then Outcome.fail (missingCondition word) else partsOf (some word) true ns
  | n :: ns => do
    let c ← n.compile
    let cs ← partsOf last false ns
    return c :: cs

/-- The atoms that a node stands for among others. -/
def atoms : Node Lexeme → Outcome (List Atom)
  | .run items cs => do return items.map Lexeme.atom ++ (← atomsOf cs)
  | .call name cs => do return name.atom :: (← atomsOf cs)
  | .group cs => do
    let inner ← atomsOf cs
    let e ← Expr.ofAtoms inner
    return [.expr (.group e)]
  | .boolGroup cs => do
    let c ← joined cs (partsOf none true cs)
    return [.expr (.nested c)]
  | .marker _ word => Outcome.fail (.atToken (.junctionInCall word.text) word)

def atomsOf : List (Node Lexeme) → Outcome (List Atom)
  | [] => return []
  | n :: ns => do
    let own ← n.atoms
    let here ← asOperand n own
    let rest ← atomsOf ns
    return here ++ rest

end

end Node

structure Settings where
  tokens : Token.Options
  stem : String
deriving DecidableEq, Inhabited

def Settings.default : Settings := ⟨.filter, "Filter"⟩

def Event.ofFilter (s : Settings) (v : Vocabulary) (filter : String) :
    Except Fault (List (Event Lexeme)) := do
  let tokens ← (Token.scan s.tokens filter).complete
  let events ← Event.ofTokens tokens
  return Event.resolve v s.stem 0 events

def Condition.compile (s : Settings) (v : Vocabulary) (filter : String) : Outcome Condition := do
  let events ← Event.ofFilter s v filter
  let outline ← Node.ofEvents Lexeme.namesFunction events
  outline.compile

end WhereClause
