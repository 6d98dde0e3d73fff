import Mathlib.Data.Rat.Cast.Order
import Mathlib.Tactic.FieldSimp
import Mathlib.Tactic.NormNum
import Mathlib.Tactic.Positivity
import Mathlib.Tactic.Ring
import WhereClause.Value.Literal

namespace WhereClause

namespace Text

def placeValue : List Char → Nat
  | [] => 0
  | c :: cs => (c.toNat - '0'.toNat) * 10 ^ cs.length + placeValue cs

theorem ofDigitChars_eq (cs : List Char) (n : Nat) :
    Nat.ofDigitChars 10 cs n = n * 10 ^ cs.length + placeValue cs := by
  induction cs generalizing n with
  | nil => simp [placeValue]
  | cons c cs ih =>
    rw [Nat.ofDigitChars_cons, ih, placeValue, List.length_cons, Nat.pow_succ]
    ring

theorem numberOf_eq (cs : List Char) : numberOf cs = placeValue cs := by
  rw [numberOf, ofDigitChars_eq, Nat.zero_mul, Nat.zero_add]

theorem numberOf_append (cs ds : List Char) :
    numberOf (cs ++ ds) = placeValue cs * 10 ^ ds.length + placeValue ds := by
  rw [numberOf, Nat.ofDigitChars_append, ofDigitChars_eq ds, ← numberOf, numberOf_eq]

end Text

open Text

/-- An optional sign, digits, and perhaps a point with digits after it; a digit stands on one side of the point. -/
structure Numeral where
  sign : Option Char
  whole : List Char
  fraction : Option (List Char)
  signed : ∀ c ∈ sign, c = '+' ∨ c = '-'
  digits : ∀ c ∈ whole ++ fraction.getD [], isDigit c = true
  filled : whole ++ fraction.getD [] ≠ []

namespace Numeral

variable (n : Numeral)

def decimals : List Char := n.fraction.getD []

def body : List Char := n.whole ++ (n.fraction.map ('.' :: ·)).getD []

def text : String := String.ofList (n.sign.toList ++ n.body)

def negative : Bool := n.sign = some '-'

def value : ℚ :=
  (if n.negative then -1 else 1) * (placeValue n.whole + placeValue n.decimals / 10 ^ n.decimals.length)

/-- There is no point, and the value is an integer of as many bits. -/
def FitsIn (bits : Nat) : Prop := n.fraction = none ∧ -2 ^ (bits - 1) ≤ n.value ∧ n.value < 2 ^ (bits - 1)

theorem isDigit_whole : ∀ c ∈ n.whole, isDigit c = true := (List.forall_mem_append.1 n.digits).1

theorem head?_body : ∀ c ∈ n.body.head?, isDigit c = true ∨ c = '.' := by
  intro c first
  unfold body at first
  cases whole : n.whole with
  | cons d ds =>
    rw [whole] at first
    cases first
    exact Or.inl (n.isDigit_whole c (whole ▸ List.mem_cons_self))
  | nil =>
    rw [whole] at first
    cases point : n.fraction with
    | none =>
      rw [point] at first
      cases first
    | some ds =>
      rw [point] at first
      cases first
      exact Or.inr rfl

theorem splitSign_body : splitSign n.body = (false, n.body) := by
  apply splitSign_unsigned
  · intro minus
    exact absurd (n.head?_body _ minus) (by decide)
  · intro plus
    exact absurd (n.head?_body _ plus) (by decide)

theorem splitSign_text : splitSign n.text.toList = (n.negative, n.body) := by
  rw [text, String.toList_ofList]
  exact splitSign_append n.signed n.splitSign_body

theorem splitPoint_body : splitPoint n.body = (n.whole, n.decimals) := by
  have noPoint := not_mem_of_allDigits (allDigits_iff.2 n.isDigit_whole) (c := '.') (by decide)
  rw [body, decimals, splitPoint_append noPoint]
  cases n.fraction <;> simp [splitPoint]

theorem isPlainDecimal_text : Value.isPlainDecimal n.text.toList = true := by
  rw [Value.isPlainDecimal_iff, splitSign_text, splitPoint_body]
  exact ⟨n.filled, allDigits_iff.2 n.digits⟩

theorem readDecimal?_text : Value.readDecimal? n.text.toList =
    some (.decimal ⟨applySign n.negative (numberOf (n.whole ++ n.decimals)), n.decimals.length⟩) := by
  rw [Value.readDecimal?, if_pos n.isPlainDecimal_text, Value.read_of_isPlainDecimal n.isPlainDecimal_text,
    splitSign_text, splitPoint_body]
  rfl

theorem readInteger_text : readInteger n.text.toList =
    if n.fraction = none then some (applySign n.negative (numberOf n.whole)) else none := by
  have filled := n.filled
  cases point : n.fraction with
  | none =>
    rw [point, Option.getD_none, List.append_nil] at filled
    have body : n.body = n.whole := by simp [body, point]
    rw [text, String.toList_ofList, body]
    exact readInteger_append n.signed filled (allDigits_iff.2 n.isDigit_whole)
  | some ds =>
    have broken : ¬(n.body ≠ [] ∧ allDigits n.body = true) := by
      rintro ⟨-, all⟩
      exact not_mem_of_allDigits all (c := '.') (by decide) (by simp [body, point])
    rw [readInteger, splitSign_text]
    exact if_neg broken

theorem cast_applySign (negative : Bool) (k : Nat) :
    ((applySign negative k : Int) : ℚ) = (if negative then -1 else 1) * k := by
  cases negative <;> simp [applySign]

theorem value_eq_integer (h : n.fraction = none) :
    n.value = (applySign n.negative (numberOf n.whole) : Int) := by
  simp [value, decimals, h, cast_applySign, numberOf_eq, placeValue]

theorem value_eq_decimal : n.value =
    (applySign n.negative (numberOf (n.whole ++ n.decimals)) : Int) / 10 ^ n.decimals.length := by
  have power : (10 : ℚ) ^ n.decimals.length ≠ 0 := by positivity
  rw [value, cast_applySign, numberOf_append]
  push_cast
  field_simp

theorem fitsIn_iff (h : n.fraction = none) (bits : Nat) : n.FitsIn bits ↔
    -2 ^ (bits - 1) ≤ applySign n.negative (numberOf n.whole) ∧
      applySign n.negative (numberOf n.whole) < 2 ^ (bits - 1) := by
  rw [FitsIn, n.value_eq_integer h, and_iff_right h]
  norm_cast

theorem exists_of_body {s : String} {whole : List Char} (fraction : Option (List Char))
    (unsigned : (splitSign s.toList).2 = whole ++ (fraction.map ('.' :: ·)).getD [])
    (digits : ∀ c ∈ whole ++ fraction.getD [], isDigit c = true) (filled : whole ++ fraction.getD [] ≠ []) :
    ∃ n : Numeral, n.text = s := by
  obtain ⟨sign, body, signed, parts, split⟩ := exists_sign s.toList
  rw [split] at unsigned
  refine ⟨⟨sign, whole, fraction, signed, digits, filled⟩, ?_⟩
  change String.ofList (sign.toList ++ (whole ++ (fraction.map ('.' :: ·)).getD [])) = s
  rw [← unsigned, ← parts, String.ofList_toList]

theorem exists_of_readInteger {s : String} {i : Int} (h : readInteger s.toList = some i) :
    ∃ n : Numeral, n.text = s := by
  simp only [readInteger] at h
  split at h
  · next plain =>
    have unsigned := (List.append_nil (splitSign s.toList).2).symm
    refine exists_of_body none unsigned ?_ ?_
    · rw [Option.getD_none, List.append_nil]
      exact allDigits_iff.1 plain.2
    · rw [Option.getD_none, List.append_nil]
      exact plain.1
  · cases h

theorem exists_of_isPlainDecimal {s : String} (h : Value.isPlainDecimal s.toList = true) :
    ∃ n : Numeral, n.text = s := by
  obtain ⟨filled, digits⟩ := Value.isPlainDecimal_iff.1 h
  have parts := (List.takeWhile_append_dropWhile (p := (· ≠ '.')) (l := (splitSign s.toList).2)).symm
  simp only [splitPoint] at filled digits
  rw [allDigits_iff] at digits
  cases rest : (splitSign s.toList).2.dropWhile (· ≠ '.') with
  | nil =>
    rw [rest] at parts filled digits
    exact exists_of_body none parts digits filled
  | cons c ds =>
    have point : c = '.' := by
      have first := List.head?_dropWhile_not (p := (· ≠ '.')) (l := (splitSign s.toList).2)
      rw [rest] at first
      simpa using first
    subst point
    rw [rest] at parts filled digits
    exact exists_of_body (some ds) parts digits filled

theorem isPlainDecimal_iff {s : String} : Value.isPlainDecimal s.toList = true ↔ ∃ n : Numeral, n.text = s := by
  constructor
  · exact exists_of_isPlainDecimal
  · rintro ⟨n, rfl⟩
    exact n.isPlainDecimal_text

end Numeral

namespace Value

def rational? : Value → Option ℚ
  | .int i => some i.toInt
  | .long i => some i.toInt
  | .decimal d => some (d.coefficient / 10 ^ d.scale)
  | .float (.finite negative m e) => some ((if negative then -1 else 1) * m * 2 ^ e)
  | _ => none

theorem ofInt?_narrow {i : Int} (h : -2 ^ 31 ≤ i ∧ i < 2 ^ 31) : ofInt? i = some (.int (Int32.ofInt i)) := by
  have bounds : Int32.minValue.toInt = -2 ^ 31 ∧ Int32.maxValue.toInt = 2 ^ 31 - 1 := by decide
  rw [ofInt?, bounds.1, bounds.2, if_pos ⟨h.1, by omega⟩]

theorem ofInt?_wide {i : Int} (narrow : ¬(-2 ^ 31 ≤ i ∧ i < 2 ^ 31)) (h : -2 ^ 63 ≤ i ∧ i < 2 ^ 63) :
    ofInt? i = some (.long (Int64.ofInt i)) := by
  have bounds : Int32.minValue.toInt = -2 ^ 31 ∧ Int32.maxValue.toInt = 2 ^ 31 - 1 := by decide
  have wider : Int64.minValue.toInt = -2 ^ 63 ∧ Int64.maxValue.toInt = 2 ^ 63 - 1 := by decide
  rw [ofInt?, bounds.1, bounds.2, wider.1, wider.2, if_neg (by omega), if_pos ⟨h.1, by omega⟩]

theorem ofInt?_beyond {i : Int} (h : ¬(-2 ^ 63 ≤ i ∧ i < 2 ^ 63)) : ofInt? i = none := by
  have bounds : Int32.minValue.toInt = -2 ^ 31 ∧ Int32.maxValue.toInt = 2 ^ 31 - 1 := by decide
  have wider : Int64.minValue.toInt = -2 ^ 63 ∧ Int64.maxValue.toInt = 2 ^ 63 - 1 := by decide
  rw [ofInt?, bounds.1, bounds.2, wider.1, wider.2, if_neg (by omega), if_neg (by omega)]

end Value

/-- The value that a numeral is read as: the number that it denotes, in the first type that holds it. -/
structure Numeral.IsReadAs (n : Numeral) (v : Value) : Prop where
  exact : v.rational? = some n.value
  int : (∃ i, v = .int i) ↔ n.FitsIn 32
  long : (∃ i, v = .long i) ↔ n.FitsIn 64 ∧ ¬n.FitsIn 32
  decimal : (∃ d, v = .decimal d) ↔ ¬n.FitsIn 64

namespace Numeral

variable {n : Numeral}

theorem FitsIn.widen (h : n.FitsIn 32) : n.FitsIn 64 := by
  obtain ⟨plain, low, high⟩ := h
  refine ⟨plain, le_trans ?_ low, lt_of_lt_of_le high ?_⟩ <;> norm_num

theorem exists_int (narrow : n.FitsIn 32) : ∃ v, Value.readNumber? n.text = some v ∧ n.IsReadAs v := by
  have plain := narrow.1
  have bounds := (n.fitsIn_iff plain 32).1 narrow
  refine ⟨.int (Int32.ofInt (applySign n.negative (numberOf n.whole))), ?_, ?_, ?_, ?_, ?_⟩
  · rw [Value.readNumber?, n.readInteger_text, if_pos plain, Option.bind_some, Value.ofInt?_narrow bounds]
    rfl
  · rw [Value.rational?, Int32.toInt_ofInt_of_le bounds.1 bounds.2, n.value_eq_integer plain]
  · exact iff_of_true ⟨_, rfl⟩ narrow
  · exact iff_of_false nofun fun wide => wide.2 narrow
  · exact iff_of_false nofun fun beyond => beyond narrow.widen

theorem exists_long (wide : n.FitsIn 64) (narrow : ¬n.FitsIn 32) :
    ∃ v, Value.readNumber? n.text = some v ∧ n.IsReadAs v := by
  have plain := wide.1
  have bounds := (n.fitsIn_iff plain 64).1 wide
  have beyond := fun within => narrow ((n.fitsIn_iff plain 32).2 within)
  refine ⟨.long (Int64.ofInt (applySign n.negative (numberOf n.whole))), ?_, ?_, ?_, ?_, ?_⟩
  · rw [Value.readNumber?, n.readInteger_text, if_pos plain, Option.bind_some, Value.ofInt?_wide beyond bounds]
    rfl
  · rw [Value.rational?, Int64.toInt_ofInt_of_le bounds.1 bounds.2, n.value_eq_integer plain]
  · exact iff_of_false nofun narrow
  · exact iff_of_true ⟨_, rfl⟩ ⟨wide, narrow⟩
  · exact iff_of_false nofun fun beyond => beyond wide

theorem exists_decimal (beyond : ¬n.FitsIn 64) : ∃ v, Value.readNumber? n.text = some v ∧ n.IsReadAs v := by
  have noInteger : (readInteger n.text.toList).bind Value.ofInt? = none := by
    rw [n.readInteger_text]
    split
    · next plain =>
      rw [Option.bind_some]
      exact Value.ofInt?_beyond fun within => beyond ((n.fitsIn_iff plain 64).2 within)
    · rfl
  refine ⟨.decimal ⟨applySign n.negative (numberOf (n.whole ++ n.decimals)), n.decimals.length⟩, ?_, ?_, ?_, ?_, ?_⟩
  · rw [Value.readNumber?, noInteger, n.readDecimal?_text]
    rfl
  · rw [Value.rational?, n.value_eq_decimal]
  · exact iff_of_false nofun fun narrow => beyond narrow.widen
  · exact iff_of_false nofun fun wide => beyond wide.1
  · exact iff_of_true ⟨_, rfl⟩ beyond

theorem exists_readNumber? (n : Numeral) : ∃ v, Value.readNumber? n.text = some v ∧ n.IsReadAs v := by
  by_cases wide : n.FitsIn 64
  · by_cases narrow : n.FitsIn 32
    · exact exists_int narrow
    · exact exists_long wide narrow
  · exact exists_decimal wide

end Numeral

namespace Value

theorem readFinite?_cases (cs : List Char) :
    readFinite? cs = none ∨ ∃ x : Single, x.isFinite = true ∧ readFinite? cs = some (.float x) := by
  unfold readFinite?
  split
  · cases read : (Single.ofName cs).filter Single.isFinite with
    | none => exact Or.inl rfl
    | some x => exact Or.inr ⟨x, (Option.filter_eq_some_iff.1 read).2, rfl⟩
  · exact Or.inl rfl

/-- A plain numeral is read as its value: an integer if no point is written and 32 bits hold it, a long one if only
    64 bits do, and else a decimal. Any other text is a finite single or no number. -/
theorem readNumber?_numeral :
    (∀ n : Numeral, ∃ v, readNumber? n.text = some v ∧ n.IsReadAs v) ∧
      ∀ s, (∀ n : Numeral, n.text ≠ s) →
        readNumber? s = none ∨ ∃ x : Single, x.isFinite = true ∧ readNumber? s = some (.float x) := by
  constructor
  · exact Numeral.exists_readNumber?
  · -- Integers are numerals, and so is all that passes the test for decimals.
    intro s other
    have noInteger : readInteger s.toList = none := by
      rw [Option.eq_none_iff_forall_ne_some]
      intro i read
      obtain ⟨n, text⟩ := Numeral.exists_of_readInteger read
      exact other n text
    have noDecimal : ¬isPlainDecimal s.toList = true := by
      intro plain
      obtain ⟨n, text⟩ := Numeral.isPlainDecimal_iff.1 plain
      exact other n text
    have single : readNumber? s = readFinite? s.toList := by
      rw [readNumber?, noInteger, readDecimal?, if_neg noDecimal]
      rfl
    rw [single]
    exact readFinite?_cases s.toList

theorem readNumber?_numeral_point :
    let n : Numeral := ⟨some '-', [], some ['5', '0'], by simp, allDigits_iff.1 (by decide), by decide⟩
    (n.text = "-.50" ∧ ∃ v, readNumber? n.text = some v ∧ n.IsReadAs v) ∧
      (∀ m : Numeral, m.text ≠ "1e5") ∧
        (readNumber? "1e5" = none ∨ ∃ x : Single, x.isFinite = true ∧ readNumber? "1e5" = some (.float x)) := by
  intro n
  have other (m : Numeral) : m.text ≠ "1e5" := by
    intro same
    have plain := m.isPlainDecimal_text
    rw [same] at plain
    cases plain
  exact ⟨⟨by decide, readNumber?_numeral.1 n⟩, other, readNumber?_numeral.2 _ other⟩

end Value

end WhereClause
