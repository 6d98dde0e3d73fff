import WhereClause.Outline.Build
import WhereClause.Outline.Path

namespace WhereClause

def Node.Kind.isScope : Node.Kind → Bool
  | .group | .boolGroup | .call => true
  | .run | .marker => false

structure Cell where
  kind : Node.Kind
  tokens : List Token
  children : List Nat
  parent : Option Nat
deriving DecidableEq, Inhabited

def Cell.isBare (c : Cell) : Bool := c.tokens.isEmpty && c.children.isEmpty

/-- The cells in the order in which they were added, the root first. -/
structure Arena where
  cells : List Cell
deriving DecidableEq, Inhabited

namespace Arena

def start : Arena := ⟨[⟨.run, [], [], none⟩]⟩

def cell? (a : Arena) (id : Nat) : Option Cell := a.cells[id]?

def isMarker (a : Arena) (id : Nat) : Bool := (a.cell? id).any (·.kind = .marker)

def isBare (a : Arena) (id : Nat) : Bool := (a.cell? id).any Cell.isBare

def hasMarkers (a : Arena) (c : Cell) : Bool := c.children.any a.isMarker

/-- The end of a walk along the links. One that passes more cells than there are is in a circle. -/
def last? (link : Nat → Option Nat) : Nat → Nat → Option Nat
  | 0, _ => none
  | cells + 1, id =>
    match link id with
    | none => some id
    | some next => last? link cells next

def elideLink (a : Arena) (id : Nat) : Option Nat :=
  match a.cell? id with
  | some ⟨.run, [], [only], _⟩ => some only
  | _ => none

def dominantLink (a : Arena) (id : Nat) : Option Nat :=
  match a.cell? id with
  | some ⟨_, [], [only], _⟩ => if a.isMarker only then none else some only
  | _ => none

def scopeLink (a : Arena) (id : Nat) : Option Nat :=
  match a.cell? id with
  | some c => if c.kind.isScope then none else c.parent
  | none => none

def elided? (a : Arena) (id : Nat) : Option Nat := last? a.elideLink a.cells.length id

def dominant? (a : Arena) (id : Nat) : Option Nat := last? a.dominantLink a.cells.length id

def scope? (a : Arena) (id : Nat) : Option (Option Nat) := do
  let top ← last? a.scopeLink a.cells.length id
  let c ← a.cell? top
  return if c.kind.isScope then some top else none

def update? (a : Arena) (id : Nat) (change : Cell → Cell) : Option Arena :=
  if id < a.cells.length then some ⟨a.cells.modify id change⟩ else none

def add? (a : Arena) (kind : Node.Kind) (parent : Nat) (tokens : List Token) : Option (Arena × Nat) := do
  let added : Arena := ⟨a.cells ++ [⟨kind, tokens, [], some parent⟩]⟩
  let b ← added.update? parent fun c => { c with children := c.children ++ [a.cells.length] }
  return (b, a.cells.length)

def leaf? (a : Arena) (cursor : Nat) (t : Token) : Option Arena :=
  a.update? cursor fun c => { c with tokens := c.tokens ++ [t] }

def enter? (a : Arena) (joined : Bool) (cursor : Nat) : Option (Arena × Nat) := do
  let run ← a.cell? cursor
  match run.tokens.getLast?.filter Token.namesFunction with
  | some name =>
    let b ← a.update? cursor fun c => { c with tokens := c.tokens.dropLast }
    let (b, call) ← b.add? .call cursor [name]
    b.add? .run call []
  | none =>
    let (b, pair) ← a.add? (if joined then .boolGroup else .group) cursor []
    b.add? .run pair []

/-- Goes on in a new run beside the pair around the cursor. -/
def leave? (a : Arena) (cursor : Nat) : Option (Arena × Nat) := do
  let scope ← a.scope? cursor
  let pair ← a.cell? (← scope)
  a.add? .run (← pair.parent) []

/-- Goes on in a new run after the word, in the pair around the cursor; the root stands for a pair that there is not. -/
def joint? (a : Arena) (cursor : Nat) (word : Token) : Option (Arena × Nat) := do
  let scope ← a.scope? cursor
  let (b, _) ← a.add? .marker (scope.getD 0) [word]
  b.add? .run (scope.getD 0) []

def run? (a : Arena) (cursor : Nat) : List (Event Token) → Option Arena
  | [] => some a
  | .enter :: es => do
    let (b, next) ← a.enter? (Event.joinsAhead 0 es) cursor
    b.run? next es
  | .leave :: es => do
    let (b, next) ← a.leave? cursor
    b.run? next es
  | .joint _ word :: es => do
    let (b, next) ← a.joint? cursor word
    b.run? next es
  | .leaf t :: es => do
    let b ← a.leaf? cursor t
    b.run? cursor es

/-- Takes the cells without tokens and children out of the lists of children, from the bottom up, at a cell and on the
    levels below it. -/
def prune? : Nat → Arena → Nat → Option Arena
  | 0, _, _ => none
  | levels + 1, a, id => do
    let c ← a.cell? id
    let b ← c.children.foldlM (prune? levels) a
    b.update? id fun kept => { kept with children := c.children.filter fun child => !b.isBare child }

def ofEvents? (events : List (Event Token)) : Option Arena :=
  if events.isEmpty then some start
  else do
    let a ← start.run? 0 (Event.enclose events)
    prune? a.cells.length a 0

def ofTokens (ts : List Token) : Except Fault (Option Arena) := do
  let events ← Event.ofTokens ts
  return ofEvents? events

def follow? (a : Arena) (id : Nat) : Path → Option Nat
  | [] => some id
  | i :: path => do
    let c ← a.cell? id
    a.follow? (← c.children[i]?) path

end Arena

end WhereClause
