import WhereClause.Fault

namespace WhereClause.Balance

def limit : Nat := 64

/-- Checks the rest of the tokens, given the parentheses that are open, the innermost first. -/
def checkFrom (opened : List Token) : List Token → Except Fault Unit
  | [] =>
    match opened with
    | [] => .ok ()
    | t :: _ => .error (.atToken .unclosedOpen t)
  | t :: ts =>
    if t.opens then
      if opened.length = limit then .error (.atToken (.tooDeep limit) t)
      else checkFrom (t :: opened) ts
    else if t.closes then
      match opened with
      | [] => .error (.atToken .unmatchedClose t)
      | _ :: outer => checkFrom outer ts
    else checkFrom opened ts

def check (ts : List Token) : Except Fault Unit := checkFrom [] ts

end WhereClause.Balance
