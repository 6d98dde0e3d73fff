import WhereClause.Dialect
import WhereClause.Text.Join
import WhereClause.Text.Split

namespace WhereClause

structure Column where
  qualifier : Option String
  name : String
deriving DecidableEq, Inhabited

namespace Column

open Text

/-- What stands before the last point is the qualifier, if both sides of the point hold something. -/
def read (s : String) : Column :=
  match cutLast? '.' s.toList with
  | some (qualifier, name) =>
    if qualifier ≠ [] ∧ name ≠ [] then ⟨some (String.ofList qualifier), String.ofList name⟩
    else ⟨none, s⟩
  | none => ⟨none, s⟩

def dotted (c : Column) : String :=
  match c.qualifier with
  | some q => q ++ "." ++ c.name
  | none => c.name

def isBracket (c : Char) : Bool := c = '[' || c = ']'

def bracketPart (part : List Char) : String :=
  let inner := ((part.dropWhile isBracket).reverse.dropWhile isBracket).reverse
  "[" ++ String.ofList inner ++ "]"

/-- Each part between points in brackets of its own; the star stands for all columns and has none. -/
def bracket (name : String) : String :=
  if name = "*" then name
  else join "." (((parts '.' name.toList).filter (· ≠ [])).map bracketPart)

def bracketed (c : Column) : String :=
  match c.qualifier with
  | some q => bracket q ++ "." ++ bracket c.name
  | none => bracket c.name

def render (d : Dialect) (c : Column) : String :=
  match d with
  | .filter => c.dotted
  | .sql | .placeholder => c.bracketed

theorem dotted_read (s : String) : (read s).dotted = s := by
  unfold read
  split
  · next qualifier name found =>
    split
    · have whole := eq_append_of_cutLast? found
      apply String.toList_inj.1
      simp [dotted, whole]
    · rfl
  · rfl

end Column

end WhereClause
