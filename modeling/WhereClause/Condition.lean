import WhereClause.Expr.Parameters
import WhereClause.Expr.Render
import WhereClause.Expr.Same

namespace WhereClause.Condition

def isEmpty : Condition → Bool
  | .empty => true
  | .test _ => false
  | .all parts | .any parts => parts.isEmpty

def parts : Condition → List Condition
  | .all parts | .any parts => parts
  | _ => []

def withoutEmpty (cs : List Condition) : List Condition := cs.filter fun c => !c.isEmpty

def join : Junction → List Condition → Condition
  | .all, cs => .all (withoutEmpty cs)
  | .any, cs => .any (withoutEmpty cs)

/-- Adds a part at the end. A single test becomes the first part of a conjunction, and nothing
    becomes the added part. -/
def push (c child : Condition) : Condition :=
  if child.isEmpty then c
  else
    match c with
    | .empty => child
    | .test e => .all [.test e, child]
    | .all parts => .all (parts ++ [child])
    | .any parts => .any (parts ++ [child])

def distinctParameters (c : Condition) : List Parameter := Parameter.distinct c.parameters

theorem mem_withoutEmpty {c : Condition} {cs : List Condition} :
    c ∈ withoutEmpty cs ↔ c ∈ cs ∧ c.isEmpty = false := by
  simp [withoutEmpty]

theorem push_empty_right {child : Condition} (c : Condition) (h : child.isEmpty = true) :
    c.push child = c := by
  simp [push, h]

end WhereClause.Condition
