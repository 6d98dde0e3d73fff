import WhereClause.Operator.Table
import WhereClause.Token.Basic

namespace WhereClause

/-- A significant token by the part that it plays in the outline. -/
inductive Event (α : Type) where
  | enter
  | leave
  | joint (j : Junction) (word : Token)
  | leaf (item : α)
deriving DecidableEq, Inhabited

def Event.ofToken (t : Token) : Event Token :=
  if t.opens then .enter
  else if t.closes then .leave
  else
    match t.junction? with
    | some j => .joint j t
    | none => .leaf t

/-- A word that names a function makes a call of the pair that directly follows. -/
def Token.namesFunction (t : Token) : Bool := t.kind = .word && Operator.namesFunction t.text

/-- What stands directly in a pair is split into runs, and the runs hold the pairs inside. -/
inductive Node (α : Type) where
  | run (items : List α) (children : List (Node α))
  | marker (j : Junction) (word : Token)
  | group (children : List (Node α))
  | boolGroup (children : List (Node α))
  | call (name : α) (children : List (Node α))
deriving Inhabited

namespace Node

variable {α : Type}

inductive Kind where
  | run
  | marker
  | boolGroup
  | group
  | call
deriving DecidableEq, Inhabited

def Kind.name : Kind → String
  | .run => "Unknown"
  | .marker => "Binary"
  | .boolGroup => "BinaryGroup"
  | .group => "Group"
  | .call => "Function"

def kind : Node α → Kind
  | .run .. => .run
  | .marker .. => .marker
  | .group _ => .group
  | .boolGroup _ => .boolGroup
  | .call .. => .call

def children : Node α → List (Node α)
  | .run _ cs => cs
  | .marker .. => []
  | .group cs => cs
  | .boolGroup cs => cs
  | .call _ cs => cs

def tokens (view : α → Token) : Node α → List Token
  | .run items _ => items.map view
  | .marker _ word => [word]
  | .group _ => []
  | .boolGroup _ => []
  | .call name _ => [view name]

def isScope : Node α → Bool
  | .group _ | .boolGroup _ | .call .. => true
  | _ => false

def isCall : Node α → Bool
  | .call .. => true
  | _ => false

def isGrouping : Node α → Bool
  | .group _ | .boolGroup _ => true
  | _ => false

def isMarker : Node α → Bool
  | .marker .. => true
  | _ => false

def junction? : Node α → Option Junction
  | .marker j _ => some j
  | _ => none

def isBare : Node α → Bool
  | .run [] [] | .group [] | .boolGroup [] => true
  | _ => false

def add (n child : Node α) : Node α :=
  match n with
  | .run items cs => .run items (cs ++ [child])
  | .marker j word => .marker j word
  | .group cs => .group (cs ++ [child])
  | .boolGroup cs => .boolGroup (cs ++ [child])
  | .call name cs => .call name (cs ++ [child])

def elided : Node α → Node α
  | .run [] [n] => n.elided
  | n => n

mutual

def prune : Node α → Node α
  | .run items cs => .run items (pruneAll cs)
  | .marker j word => .marker j word
  | .group cs => .group (pruneAll cs)
  | .boolGroup cs => .boolGroup (pruneAll cs)
  | .call name cs => .call name (pruneAll cs)

def pruneAll : List (Node α) → List (Node α)
  | [] => []
  | n :: ns => if n.prune.isBare then pruneAll ns else n.prune :: pruneAll ns

end

mutual

def firstToken? (view : α → Token) : Node α → Option Token
  | .run (x :: _) _ => some (view x)
  | .run [] cs => firstTokenOf? view cs
  | .marker _ word => some word
  | .group cs => firstTokenOf? view cs
  | .boolGroup cs => firstTokenOf? view cs
  | .call name _ => some (view name)

def firstTokenOf? (view : α → Token) : List (Node α) → Option Token
  | [] => none
  | n :: ns => (n.firstToken? view).or (firstTokenOf? view ns)

end

theorem pruneAll_eq (ns : List (Node α)) :
    pruneAll ns = (ns.map prune).filter fun n => !n.isBare := by
  induction ns with
  | nil => rfl
  | cons n ns ih =>
    cases h : n.prune.isBare <;> simp [pruneAll, h, ih]

end Node

end WhereClause
