import WhereClause.Text.Case
import WhereClause.Value.Basic

namespace WhereClause.Value

open Text

def ofInt? (i : Int) : Option Value :=
  if Int32.minValue.toInt ≤ i ∧ i ≤ Int32.maxValue.toInt then some (.int (Int32.ofInt i))
  else if Int64.minValue.toInt ≤ i ∧ i ≤ Int64.maxValue.toInt then some (.long (Int64.ofInt i))
  else none

/-- An optional sign and digits with at most one point; a digit stands on one side of it. -/
def isPlainDecimal (cs : List Char) : Bool :=
  let (whole, fraction) := splitPoint (splitSign cs).2
  (whole ≠ [] ∨ fraction ≠ []) ∧ allDigits whole ∧ allDigits fraction

def startsLikeNumber (cs : List Char) : Bool :=
  (splitSign cs).2.head?.any fun c => isDigit c || c = '.'

def readDecimal? (cs : List Char) : Option Value :=
  if isPlainDecimal cs then (Decimal.read cs).map .decimal else none

def readFinite? (cs : List Char) : Option Value :=
  -- The names of numbers that are not finite start like no number, so they are left to be strings.
  if startsLikeNumber cs then ((Single.ofName cs).filter Single.isFinite).map .float else none

/-- The first type that holds the number decides its type. -/
def readNumber? (s : String) : Option Value :=
  ((readInteger s.toList).bind ofInt?).or <| (readDecimal? s.toList).or (readFinite? s.toList)

theorem isPlainDecimal_iff {cs : List Char} : isPlainDecimal cs = true ↔
    (splitPoint (splitSign cs).2).1 ++ (splitPoint (splitSign cs).2).2 ≠ [] ∧
      allDigits ((splitPoint (splitSign cs).2).1 ++ (splitPoint (splitSign cs).2).2) = true := by
  rw [isPlainDecimal, decide_eq_true_iff]
  simp only [ne_eq, List.append_eq_nil_iff, Decidable.not_and_iff_or_not, allDigits, List.all_append,
    Bool.and_eq_true]

theorem read_of_isPlainDecimal {cs : List Char} (h : isPlainDecimal cs = true) : Decimal.read cs =
    some ⟨applySign (splitSign cs).1
      (numberOf ((splitPoint (splitSign cs).2).1 ++ (splitPoint (splitSign cs).2).2)),
      (splitPoint (splitSign cs).2).2.length⟩ := by
  obtain ⟨filled, digits⟩ := isPlainDecimal_iff.1 h
  obtain ⟨sign, body, signed, rfl, split⟩ := exists_sign cs
  rw [split] at filled digits ⊢
  have noPoint : '.' ∉ sign.toList := by
    intro member
    rcases signed '.' (Option.mem_toList.1 member) with other | other <;> cases other
  rw [Decimal.read, splitPoint_append noPoint]
  simp only [List.append_assoc]
  rw [readInteger_append signed filled digits, Option.map_some]

def readKeyword? (s : String) : Option Value :=
  if sameLetters s "true" then some (.bool true)
  else if sameLetters s "false" then some (.bool false)
  else if sameLetters s "null" then some .null
  else none

def read (s : String) : Value :=
  (((Quoted.read s).map .string).or <| (readNumber? s).or (readKeyword? s)).getD (.string s)

end WhereClause.Value
