import WhereClause.Outline.Basic
import WhereClause.Text.Escape
import WhereClause.Text.Join

namespace WhereClause.Node

def indent (depth : Nat) : String := Text.concat (List.replicate depth "  ")

def tokensAttribute (ts : List Token) : String :=
  if ts.isEmpty then ""
  else " tokens=\"" ++ Text.escape (Text.join " " (ts.map Token.text)) ++ "\""

def element (depth : Nat) (kind : Kind) (ts : List Token) (inner : String) : String :=
  let start := indent depth ++ "<" ++ kind.name ++ tokensAttribute ts
  if inner = "" then start ++ " />\n"
  else start ++ ">\n" ++ inner ++ indent depth ++ "</" ++ kind.name ++ ">\n"

mutual

def markupAt (depth : Nat) : Node Token → String
  | .run items cs => element depth .run items (markupAll (depth + 1) cs)
  | .marker _ word => element depth .marker [word] ""
  | .group cs => element depth .group [] (markupAll (depth + 1) cs)
  | .boolGroup cs => element depth .boolGroup [] (markupAll (depth + 1) cs)
  | .call name cs => element depth .call [name] (markupAll (depth + 1) cs)

def markupAll (depth : Nat) : List (Node Token) → String
  | [] => ""
  | n :: ns => markupAt depth n ++ markupAll depth ns

end

def markup (n : Node Token) : String := markupAt 0 n

end WhereClause.Node
