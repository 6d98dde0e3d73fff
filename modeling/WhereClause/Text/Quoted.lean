namespace WhereClause.Text.Quoted

def double : List Char → List Char
  | [] => []
  | c :: cs => if c = '\'' then '\'' :: '\'' :: double cs else c :: double cs

/-- Two quotes in a row become one, from the left; a quote that stands alone is kept. -/
def undouble : List Char → List Char
  | [] => []
  | '\'' :: '\'' :: cs => '\'' :: undouble cs
  | c :: cs => c :: undouble cs

/-- How many of the characters after an opening quote belong to the string, its closing quote included. -/
def extent : List Char → Option Nat
  | [] => none
  | '\'' :: '\'' :: cs => (extent cs).map (· + 2)
  | c :: cs => if c = '\'' then some 1 else (extent cs).map (· + 1)

def write (s : String) : String := String.ofList ('\'' :: double s.toList ++ ['\''])

def read (s : String) : Option String :=
  match s.toList with
  | '\'' :: cs =>
    if cs.getLast? = some '\'' then some (String.ofList (undouble cs.dropLast)) else none
  | _ => none

theorem undouble_cons {c : Char} (cs : List Char) (h : c ≠ '\'') :
    undouble (c :: cs) = c :: undouble cs := by
  rw [undouble]
  rintro rest rfl
  exact absurd rfl h

theorem undouble_double (cs : List Char) : undouble (double cs) = cs := by
  induction cs with
  | nil => rfl
  | cons c cs ih =>
    by_cases h : c = '\''
    · simp [double, h, undouble, ih]
    · simp [double, h, undouble_cons _ h, ih]

theorem read_write (s : String) : read (write s) = some s := by
  simp [read, write, undouble_double]

end WhereClause.Text.Quoted
