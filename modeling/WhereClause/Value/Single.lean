import WhereClause.Text.Numeral

namespace WhereClause

/-- Single precision: a finite number is `mantissa * 2 ^ exponent`, the mantissa of 24 binary digits at most. -/
inductive Single where
  | nan
  | infinite (negative : Bool)
  | finite (negative : Bool) (mantissa : Nat) (exponent : Int)
deriving DecidableEq, Inhabited

namespace Single

open Text

def lowestExponent : Int := -149

def highestExponent : Int := 104

def precision : Nat := 24

def pow2 (n : Nat) : Nat := Nat.pow 2 n

def nearest (num den : Nat) : Nat :=
  let q := num / den
  let r := num % den
  if 2 * r < den ∨ (2 * r = den ∧ q % 2 = 0) then q else q + 1

def unscale (num den : Nat) (e : Int) : Nat × Nat :=
  if e < 0 then (num * pow2 e.natAbs, den) else (num, den * pow2 e.natAbs)

def magnitude (num den : Nat) : Int :=
  let guess : Int := num.log2 - den.log2
  let (n, d) := unscale num den guess
  if n < d then guess - 1 else guess

def ofRatio (negative : Bool) (num den : Nat) : Single :=
  if num = 0 then .finite negative 0 lowestExponent
  else
    let e := max lowestExponent (magnitude num den - (precision - 1))
    let (n, d) := unscale num den e
    let m := nearest n d
    let (m, e) := if m = pow2 precision then (pow2 (precision - 1), e + 1) else (m, e)
    if highestExponent < e then .infinite negative else .finite negative m e

def decimalLimit : Int := 64

def ofDigits (negative : Bool) (digits : List Char) (e : Int) : Single :=
  let digits := digits.dropWhile (· = '0')
  let top := digits.length + e
  if digits = [] ∨ top < -decimalLimit then .finite negative 0 lowestExponent
  else if decimalLimit < top then .infinite negative
  else if e < 0 then ofRatio negative (numberOf digits) (pow10 e.natAbs)
  else ofRatio negative (numberOf digits * pow10 e.natAbs) 1

def readExponent : List Char → Option Int
  | [] => some 0
  | c :: cs => if c = 'e' ∨ c = 'E' then readInteger cs else none

def read (cs : List Char) : Option Single :=
  let (negative, body) := splitSign cs
  let whole := body.takeWhile isDigit
  let rest := body.dropWhile isDigit
  let (fraction, rest) :=
    if rest.head? = some '.' then (rest.tail.takeWhile isDigit, rest.tail.dropWhile isDigit)
    else ([], rest)
  if whole = [] ∧ fraction = [] then none
  else (readExponent rest).map fun e => ofDigits negative (whole ++ fraction) (e - fraction.length)

/-- A numeral, or the name of a number that is not finite, in any letter case. -/
def ofName (cs : List Char) : Option Single :=
  let (negative, body) := splitSign cs
  let name := body.map Char.toLower
  if name = "nan".toList then some .nan
  else if name = "inf".toList ∨ name = "infinity".toList then some (.infinite negative)
  else read cs

def isFinite : Single → Bool
  | .finite .. => true
  | _ => false

def same : Single → Single → Bool
  | .nan, _ | _, .nan => false
  | .infinite s, .infinite t => s == t
  | .finite s m e, .finite t n f => m == n && e == f && (s == t || m == 0)
  | _, _ => false

def ratio (m : Nat) (e : Int) : Nat × Nat :=
  if e < 0 then (m, pow2 e.natAbs) else (m * pow2 e.natAbs, 1)

def decimalMagnitude (num den : Nat) : Int :=
  (digitsOf (num * pow10 decimalLimit.natAbs / den)).length - 1 - decimalLimit

/-- The point of the decimal grid of step `10 ^ t` nearest to `num / den` that rounds to `m`, `e`, if
    one of the two neighbours on the grid does; the upper one of two that are equally near. -/
def gridPoint? (m : Nat) (e t : Int) : Option Nat :=
  let (num, den) := ratio m e
  let (n, d) := if t < 0 then (num * pow10 t.natAbs, den) else (num, den * pow10 t.natAbs)
  let low := n / d
  let back (k : Nat) := ofDigits false (digitsOf k) t = .finite false m e
  if back (low + 1) ∧ (¬ back low ∨ d ≤ 2 * (n % d)) then some (low + 1)
  else if back low then some low
  else none

/-- The digits of the first of the grids of 1, 2, … digits that holds a point which reads back, and
    the exponent of its step. Nine digits always suffice. -/
def shortest (m : Nat) (e : Int) : List Char × Int :=
  let (num, den) := ratio m e
  let top := decimalMagnitude num den
  let hit := (List.range 9).findSome? fun (k : Nat) =>
    (gridPoint? m e (top - k)).map fun p => (digitsOf p, top - k)
  hit.getD ([], 0)

def positional (digits : List Char) (t : Int) : List Char :=
  let trimmed := (digits.reverse.dropWhile (· = '0')).reverse
  let t := t + (digits.length - trimmed.length : Nat)
  if t < 0 then withPoint trimmed t.natAbs else trimmed ++ List.replicate t.natAbs '0'

def text : Single → List Char
  | .nan => "NaN".toList
  | .infinite negative => signText negative ++ "inf".toList
  | .finite negative m e =>
    signText negative ++
      if m = 0 then ['0'] else positional (shortest m e).1 (shortest m e).2

end Single

end WhereClause
