namespace WhereClause

/-- A line and a column of a text, both counted from one, the column in characters. -/
structure Position where
  line : Nat
  column : Nat
deriving DecidableEq, Inhabited

namespace Position

def start : Position := ⟨1, 1⟩

def text (p : Position) : String := Nat.repr p.line ++ ":" ++ Nat.repr p.column

def nextLine (p : Position) : Position := ⟨p.line + 1, 1⟩

def next (p : Position) (c : Char) : Position :=
  if c = '\n' then p.nextLine else ⟨p.line, p.column + 1⟩

def after (p : Position) (cs : List Char) : Position := cs.foldl next p

theorem after_append (p : Position) (cs ds : List Char) :
    p.after (cs ++ ds) = (p.after cs).after ds := by
  simp [after]

theorem after_of_noBreak (p : Position) {cs : List Char} (h : '\n' ∉ cs) :
    p.after cs = ⟨p.line, p.column + cs.length⟩ := by
  induction cs generalizing p with
  | nil => rfl
  | cons c cs ih =>
    simp only [List.mem_cons, not_or] at h
    have step : p.next c = ⟨p.line, p.column + 1⟩ := by simp [next, Ne.symm h.1]
    show (p.next c).after cs = _
    rw [step, ih _ h.2]
    simp only [List.length_cons, Position.mk.injEq, true_and]
    omega

end Position

end WhereClause
