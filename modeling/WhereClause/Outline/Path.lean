import WhereClause.Outline.Basic
import WhereClause.Text.Join

namespace WhereClause

abbrev Path := List Nat

def Path.text (p : Path) : String := "r" ++ Text.concat (p.map fun i => "/" ++ Nat.repr i)

namespace Node

variable {α : Type}

def elidedPath : Node α → Path
  | .run [] [n] => 0 :: n.elidedPath
  | _ => []

/-- The way down, through single children, to the first node with tokens or joining words of its
    own. -/
def dominantPath : Node α → Path
  | .run [] [n] | .group [n] | .boolGroup [n] => if n.isMarker then [] else 0 :: n.dominantPath
  | _ => []

structure Row where
  path : Path
  kind : Kind
  tokens : List Token
  parent : Option Path
  scope : Option Path
  elided : Path
  dominant : Path
  isBare : Bool
  hasMarkers : Bool

def row (path : Path) (parent scope : Option Path) (n : Node Token) : Row where
  path := path
  kind := n.kind
  tokens := n.tokens id
  parent := parent
  scope := if n.isScope then some path else scope
  elided := path ++ n.elidedPath
  dominant := path ++ n.dominantPath
  isBare := n.isBare
  hasMarkers := n.children.any isMarker

mutual

def rowsAt (path : Path) (parent scope : Option Path) : Node Token → List Row
  | .run items cs => row path parent scope (.run items cs) :: rowsBelow path scope 0 cs
  | .marker j word => [row path parent scope (.marker j word)]
  | .group cs => row path parent scope (.group cs) :: rowsBelow path (some path) 0 cs
  | .boolGroup cs => row path parent scope (.boolGroup cs) :: rowsBelow path (some path) 0 cs
  | .call name cs => row path parent scope (.call name cs) :: rowsBelow path (some path) 0 cs

def rowsBelow (path : Path) (scope : Option Path) (i : Nat) : List (Node Token) → List Row
  | [] => []
  | n :: ns => rowsAt (path ++ [i]) (some path) scope n ++ rowsBelow path scope (i + 1) ns

end

def rows (n : Node Token) : List Row := rowsAt [] none none n

end Node

end WhereClause
