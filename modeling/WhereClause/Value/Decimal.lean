import WhereClause.Text.Numeral

namespace WhereClause

/-- The number `coefficient / 10 ^ scale`. The scale remembers how many decimals were written. -/
structure Decimal where
  coefficient : Int
  scale : Nat
deriving DecidableEq, Inhabited

namespace Decimal

open Text

def same (x y : Decimal) : Bool :=
  x.coefficient * pow10 y.scale == y.coefficient * pow10 x.scale

/-- What stands on both sides of the point is one integer, and as many decimals are written as stand after it. -/
def read (cs : List Char) : Option Decimal :=
  let (whole, fraction) := splitPoint cs
  (readInteger (whole ++ fraction)).map fun i => ⟨i, fraction.length⟩

def plainZeros : Nat := 5

def scientific (digits : List Char) (scale : Nat) : List Char :=
  digits.take 1 ++ (if digits.length ≤ 1 then [] else '.' :: digits.drop 1) ++
    ['E', '-'] ++ digitsOf (scale + 1 - digits.length)

def text (d : Decimal) : List Char :=
  if d.coefficient = 0 then ['0']
  else
    let digits := digitsOf d.coefficient.natAbs
    signText (d.coefficient < 0) ++
      if digits.length + plainZeros < d.scale then scientific digits d.scale
      else withPoint digits d.scale

theorem same_refl (d : Decimal) : d.same d = true := by simp [same]

theorem same_symm {x y : Decimal} (h : x.same y = true) : y.same x = true := by
  simp only [same, beq_iff_eq] at h ⊢
  exact h.symm

theorem same_of_zeros (c : Int) (s k : Nat) :
    Decimal.same ⟨c, s⟩ ⟨c * pow10 k, s + k⟩ = true := by
  simp only [same, beq_iff_eq]
  rw [pow10_add, Int.natCast_mul, Int.mul_assoc, Int.mul_comm (pow10 s : Int)]

end Decimal

end WhereClause
