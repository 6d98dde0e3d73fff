import WhereClause.Outline.Balance
import WhereClause.Outline.Basic

namespace WhereClause

namespace Event

variable {α : Type}

/-- Whether a joining word comes before the end of the pair that has just been entered; `depth` pairs
    inside it are open. -/
def joinsAhead (depth : Nat) : List (Event α) → Bool
  | [] => false
  | .enter :: es => joinsAhead (depth + 1) es
  | .leave :: es =>
    match depth with
    | 0 => false
    | d + 1 => joinsAhead d es
  | .joint .. :: es => depth = 0 || joinsAhead depth es
  | .leaf _ :: es => joinsAhead depth es

def leavesAtEnd (depth : Nat) : List (Event α) → Bool
  | [] => false
  | .enter :: es => leavesAtEnd (depth + 1) es
  | .leave :: es =>
    match depth with
    | 0 => es.isEmpty
    | d + 1 => leavesAtEnd d es
  | .joint .. :: es => leavesAtEnd depth es
  | .leaf _ :: es => leavesAtEnd depth es

def enclose (events : List (Event α)) : List (Event α) :=
  match events with
  | .enter :: es => if leavesAtEnd 0 es then events else .enter :: events ++ [.leave]
  | _ => .enter :: events ++ [.leave]

end Event

/-- The items of the current run, and the open nodes around it from the inside out. After a pair the cursor goes on
    in a new run below the run that holds the pair. -/
structure Cursor (α : Type) where
  items : List α
  outer : List (Node α)

namespace Cursor

variable {α : Type}

def start : Cursor α := ⟨[], []⟩

def run (c : Cursor α) : Node α := .run c.items []

def leaf (c : Cursor α) (item : α) : Cursor α := { c with items := c.items ++ [item] }

def openNode (c : Cursor α) (items : List α) (n : Node α) : Cursor α :=
  ⟨[], n :: .run items [] :: c.outer⟩

def enter (calls : α → Bool) (joined : Bool) (c : Cursor α) : Cursor α :=
  let pair := if joined then Node.boolGroup [] else Node.group []
  match c.items.getLast? with
  | some name =>
    if calls name then c.openNode c.items.dropLast (.call name []) else c.openNode c.items pair
  | none => c.openNode c.items pair

def scope? (n : Node α) : List (Node α) → Option (Node α × List (Node α))
  | [] => none
  | holder :: outer =>
    if holder.isScope then some (holder.add n, outer) else scope? (holder.add n) outer

def leave? (c : Cursor α) : Option (Cursor α) :=
  match scope? c.run c.outer with
  | some (pair, holder :: outer) => some ⟨[], holder.add pair :: outer⟩
  | _ => none

def joint? (c : Cursor α) (j : Junction) (word : Token) : Option (Cursor α) :=
  (scope? c.run c.outer).map fun s => ⟨[], s.1.add (.marker j word) :: s.2⟩

def root (c : Cursor α) : Node α := c.outer.foldl (fun n holder => holder.add n) c.run

def run? (calls : α → Bool) (c : Cursor α) : List (Event α) → Option (Cursor α)
  | [] => some c
  | .enter :: es => run? calls (c.enter calls (Event.joinsAhead 0 es)) es
  | .leave :: es => c.leave?.bind fun d => run? calls d es
  | .joint j word :: es => (c.joint? j word).bind fun d => run? calls d es
  | .leaf item :: es => run? calls (c.leaf item) es

end Cursor

namespace Node

def ofEvents? {α : Type} (calls : α → Bool) (events : List (Event α)) : Option (Node α) :=
  (Cursor.start.run? calls (Event.enclose events)).map fun c => c.root.prune

def ofEvents {α : Type} (calls : α → Bool) (events : List (Event α)) : Except Fault (Node α) :=
  match ofEvents? calls events with
  | some n => .ok n
  | none => .error (.unplaced .unmatchedClose)

end Node

def Event.ofTokens (ts : List Token) : Except Fault (List (Event Token)) := do
  Balance.check (Token.significant ts)
  return (Token.significant ts).map Event.ofToken

def Node.ofTokens (ts : List Token) : Except Fault (Node Token) := do
  let events ← Event.ofTokens ts
  Node.ofEvents Token.namesFunction events

end WhereClause
