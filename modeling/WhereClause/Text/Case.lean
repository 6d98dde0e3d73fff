import WhereClause.Text.Table.Cased
import WhereClause.Text.Table.CaseIgnorable
import WhereClause.Text.Table.Lowercase

namespace WhereClause.Text

def sameLetters (s t : String) : Bool := s.toList.map Char.toLower == t.toList.map Char.toLower

def Table.image? (n : Nat) : List (Nat × Nat × Nat × Nat) → Option Nat
  | [] => none
  | (first, last, step, image) :: rows =>
    if first ≤ n ∧ n ≤ last ∧ (n - first) % step = 0 then some (image + (n - first))
    else image? n rows

def lowerChar (c : Char) : List Char :=
  if c.toNat < 128 then [c.toLower]
  -- The capital I with a dot is the only one whose lower case has two characters.
  else if c = '\u0130' then ['i', '\u0307']
  else [(Table.image? c.toNat Table.lowercase).elim c Char.ofNat]

def casedAhead (cs : List Char) : Bool :=
  match cs.dropWhile fun c => Table.caseIgnorable.covers c.toNat with
  | [] => false
  | c :: _ => Table.cased.covers c.toNat

/-- Lower case of the rest of a text, given what stands before it in reverse. A capital sigma is
    final when a cased letter comes before it and none after it. -/
def lowerAfter : List Char → List Char → List Char
  | _, [] => []
  | before, c :: rest =>
    (if c = 'Σ' then [if casedAhead before && !casedAhead rest then 'ς' else 'σ'] else lowerChar c) ++
      lowerAfter (c :: before) rest

def lower (s : String) : String := String.ofList (lowerAfter [] s.toList)

theorem sameLetters_refl (s : String) : sameLetters s s = true := by simp [sameLetters]

theorem sameLetters_symm {s t : String} (h : sameLetters s t = true) : sameLetters t s = true := by
  simp only [sameLetters, beq_iff_eq] at h ⊢
  exact h.symm

theorem sameLetters_trans {s t u : String} (first : sameLetters s t = true)
    (second : sameLetters t u = true) : sameLetters s u = true := by
  simp only [sameLetters, beq_iff_eq] at first second ⊢
  exact first.trans second

end WhereClause.Text
