import WhereClause.Text.Class

namespace WhereClause.Text

def splitSign : List Char → Bool × List Char
  | '-' :: cs => (true, cs)
  | '+' :: cs => (false, cs)
  | cs => (false, cs)

def splitPoint (cs : List Char) : List Char × List Char :=
  (cs.takeWhile (· ≠ '.'), (cs.dropWhile (· ≠ '.')).drop 1)

def allDigits (cs : List Char) : Bool := cs.all isDigit

def numberOf (digits : List Char) : Nat := Nat.ofDigitChars 10 digits 0

def digitsOf (n : Nat) : List Char := Nat.toDigits 10 n

def pow10 (n : Nat) : Nat := Nat.pow 10 n

def applySign (negative : Bool) (n : Nat) : Int := if negative then -n else n

def signText (negative : Bool) : List Char := if negative then ['-'] else []

def readInteger (cs : List Char) : Option Int :=
  let (negative, digits) := splitSign cs
  if digits ≠ [] ∧ allDigits digits then some (applySign negative (numberOf digits)) else none

def integerText (i : Int) : List Char := signText (i < 0) ++ digitsOf i.natAbs

/-- Digits with a point before the last `scale` of them; at least one digit stands before the point,
    and without decimals there is no point. -/
def withPoint (digits : List Char) (scale : Nat) : List Char :=
  let padded := List.replicate (scale + 1 - digits.length) '0' ++ digits
  let whole := padded.take (padded.length - scale)
  if scale = 0 then whole else whole ++ '.' :: padded.drop (padded.length - scale)

theorem allDigits_iff {cs : List Char} : allDigits cs = true ↔ ∀ c ∈ cs, isDigit c = true := List.all_eq_true

theorem not_mem_of_allDigits {cs : List Char} (digits : allDigits cs = true) {c : Char}
    (other : isDigit c = false) : c ∉ cs := by
  intro member
  have digit := allDigits_iff.1 digits c member
  rw [other] at digit
  cases digit

theorem splitSign_unsigned {cs : List Char} (minus : cs.head? ≠ some '-') (plus : cs.head? ≠ some '+') :
    splitSign cs = (false, cs) := by
  unfold splitSign
  split
  · exact absurd rfl minus
  · exact absurd rfl plus
  · rfl

theorem splitSign_of_allDigits {cs : List Char} (digits : allDigits cs = true) : splitSign cs = (false, cs) := by
  apply splitSign_unsigned
  · intro minus
    exact not_mem_of_allDigits digits (by decide) (List.mem_of_head? minus)
  · intro plus
    exact not_mem_of_allDigits digits (by decide) (List.mem_of_head? plus)

theorem splitSign_append {sign : Option Char} (signed : ∀ c ∈ sign, c = '+' ∨ c = '-') {body : List Char}
    (unsigned : splitSign body = (false, body)) :
    splitSign (sign.toList ++ body) = (decide (sign = some '-'), body) := by
  cases sign with
  | none => exact unsigned
  | some c => rcases signed c rfl with rfl | rfl <;> rfl

theorem exists_sign (cs : List Char) : ∃ (sign : Option Char) (body : List Char),
    (∀ c ∈ sign, c = '+' ∨ c = '-') ∧ cs = sign.toList ++ body ∧
      splitSign cs = (decide (sign = some '-'), body) := by
  unfold splitSign
  split
  · exact ⟨some '-', _, by simp, rfl, rfl⟩
  · exact ⟨some '+', _, by simp, rfl, rfl⟩
  · exact ⟨none, _, nofun, rfl, rfl⟩

theorem splitPoint_append {whole : List Char} (noPoint : '.' ∉ whole) (cs : List Char) :
    splitPoint (whole ++ cs) = (whole ++ (splitPoint cs).1, (splitPoint cs).2) := by
  have other : ∀ c ∈ whole, decide (c ≠ '.') = true := by
    intro c member
    rw [decide_eq_true_iff]
    rintro rfl
    exact noPoint member
  rw [splitPoint, splitPoint, List.takeWhile_append_of_pos other, List.dropWhile_append_of_pos other]

theorem readInteger_append {sign : Option Char} (signed : ∀ c ∈ sign, c = '+' ∨ c = '-') {digits : List Char}
    (filled : digits ≠ []) (all : allDigits digits = true) :
    readInteger (sign.toList ++ digits) = some (applySign (sign = some '-') (numberOf digits)) := by
  rw [readInteger, splitSign_append signed (splitSign_of_allDigits all)]
  exact if_pos ⟨filled, all⟩

theorem pow10_add (m n : Nat) : pow10 (m + n) = pow10 m * pow10 n := Nat.pow_add 10 m n

theorem numberOf_digitsOf (n : Nat) : numberOf (digitsOf n) = n :=
  Nat.ofDigitChars_toDigits (by decide) (by decide)

theorem digitsOf_inj {m n : Nat} (h : digitsOf m = digitsOf n) : m = n := by
  rw [← numberOf_digitsOf m, h, numberOf_digitsOf]

end WhereClause.Text
