import WhereClause.Proofs.RoundTrip.Scan
import WhereClause.Proofs.RoundTrip.Spoken

namespace WhereClause

namespace Text

def Table.isBeyond (row : Nat × Nat × Nat × Nat) : Bool :=
  let last := row.2.2.2 + (row.2.1 - row.1)
  (128 ≤ row.2.2.2 && (last < 0xD800 || 0xDFFF < row.2.2.2 && last < 0x110000)) ||
    row = (0x212A, 0x212A, 1, 'k'.toNat)

theorem Table.lowercase_isBeyond : lowercase.all isBeyond = true := by decide +kernel

theorem Table.image?_beyond {rows : List (Nat × Nat × Nat × Nat)} (beyond : rows.all isBeyond = true) {n m : Nat}
    (h : image? n rows = some m) : 128 ≤ m ∧ m.isValidChar ∨ m = 'k'.toNat := by
  induction rows with
  | nil => cases h
  | cons row rows ih =>
    obtain ⟨first, last, step, image⟩ := row
    obtain ⟨own, later⟩ := Bool.and_eq_true_iff.1 beyond
    rw [image?] at h
    split at h
    · next within =>
      cases h
      simp only [isBeyond, Bool.or_eq_true, Bool.and_eq_true, decide_eq_true_eq, Prod.mk.injEq] at own
      rcases own with ⟨low, below | above⟩ | ⟨rfl, rfl, -, rfl⟩
      · exact Or.inl ⟨by omega, Or.inl (by omega)⟩
      · exact Or.inl ⟨by omega, Or.inr (by omega)⟩
      · exact Or.inr (by omega)
    · exact ih later h

/-- The sign for Kelvin is the only character beyond ASCII with a lower case in ASCII. -/
def isPlain (c : Char) : Bool := c.toNat < 128 && c ≠ 'k'

theorem lowerChar_of_isPlain {c : Char} (h : ∀ d ∈ lowerChar c, isPlain d = true) :
    lowerChar c = [c.toLower] := by
  unfold lowerChar at h ⊢
  split
  · rfl
  · next beyond =>
    rw [if_neg beyond] at h
    split at h
    · exact absurd (h '\u0307' (by simp)) (by decide)
    · have own := h _ (List.mem_singleton_self _)
      cases image : Table.image? c.toNat Table.lowercase with
      | none =>
        rw [image] at own
        simp [isPlain, beyond] at own
      | some m =>
        rw [image, Option.elim_some] at own
        rcases Table.image?_beyond Table.lowercase_isBeyond image with ⟨high, valid⟩ | rfl
        · have same : (Char.ofNat m).toNat = m := by
            rw [Char.ofNat, dif_pos valid]
            rfl
          have low := (Bool.and_eq_true_iff.1 own).1
          rw [same, decide_eq_true_eq] at low
          omega
        · exact absurd own (by decide)

theorem lowerAfter_of_isPlain {before cs : List Char} (h : ∀ d ∈ lowerAfter before cs, isPlain d = true) :
    lowerAfter before cs = cs.map Char.toLower := by
  induction cs generalizing before with
  | nil => rfl
  | cons c cs ih =>
    rw [lowerAfter] at h ⊢
    obtain ⟨own, later⟩ := List.forall_mem_append.1 h
    rw [ih later]
    by_cases sigma : c = 'Σ'
    · rw [if_pos sigma] at own
      have last := own _ (List.mem_singleton_self _)
      split at last <;> exact absurd last (by decide)
    · rw [if_neg sigma] at own ⊢
      rw [lowerChar_of_isPlain own]
      rfl

theorem toLower_of_lower {s t : String} (h : lower s = t) (plain : t.toList.all isPlain = true) :
    s.toList.map Char.toLower = t.toList := by
  have letters : lowerAfter [] s.toList = t.toList := by rw [← h, lower, String.toList_ofList]
  rw [← letters]
  exact (lowerAfter_of_isPlain fun d member => List.all_eq_true.1 plain d (letters ▸ member)).symm

theorem eq_of_toLower {c d : Char} (h : c.toLower = d) (other : d.isLower = false) : c = d := by
  unfold Char.toLower at h
  split at h
  · next upper =>
    obtain ⟨low, high⟩ := upper
    rw [ge_iff_le, UInt32.le_iff_toNat_le] at low
    rw [UInt32.le_iff_toNat_le] at high
    subst h
    have bounds : 65 ≤ c.val.toNat ∧ c.val.toNat ≤ 90 := ⟨low, high⟩
    have small : (c.val + ('a'.val - 'A'.val)).toNat = c.val.toNat + 32 := by
      have distance : ('a'.val - 'A'.val).toNat = 32 := rfl
      rw [UInt32.toNat_add, distance]
      exact Nat.mod_eq_of_lt (by omega)
    have first : 'a'.val.toNat = 97 := rfl
    have last : 'z'.val.toNat = 122 := rfl
    have outside : (decide ('a'.val ≤ c.val + ('a'.val - 'A'.val)) &&
        decide (c.val + ('a'.val - 'A'.val) ≤ 'z'.val)) = false := other
    rw [← Bool.decide_and, decide_eq_false_iff_not, UInt32.le_iff_toNat_le, UInt32.le_iff_toNat_le, small, first,
      last] at outside
    omega
  · exact h

end Text

namespace Token

instance (text : List Char) : Decidable (IsWord text) :=
  match text with
  | [] => isFalse (by rintro ⟨c, cs, same, -⟩; cases same)
  | c :: cs => decidable_of_iff (Options.filter.token? c cs = some (.word, cs.length))
      ⟨fun h => ⟨c, cs, rfl, h⟩, by rintro ⟨d, ds, same, h⟩; cases same; exact h⟩

def word (text : String) : Token := ⟨.word, text, .start⟩

theorem exists_first_of_word {text : String} {t : Token} (cut : t ∈ (scan .filter text).tokens)
    (word : t.kind = .word) : ∃ c cs, t.text.toList = c :: cs ∧ c ∉ Options.filter.symbols := by
  rcases cases_of_mem_scan cut with ⟨finish, -⟩ | ⟨c, cs, n, first, whole⟩
  · rw [word] at finish
    cases finish
  · rw [word] at first
    exact ⟨c, _, whole, (Options.token?_of_word first).1.2⟩

theorem lower_ne_symbol {text : String} {t : Token} (cut : t ∈ (scan .filter text).tokens)
    (word : t.kind = .word) (b : Char) (symbol : b ∈ Options.filter.symbols) (plain : Text.isPlain b = true)
    (other : b.isLower = false) : Text.lower t.text ≠ String.singleton b := by
  intro same
  obtain ⟨c, cs, whole, free⟩ := exists_first_of_word cut word
  have letters := Text.toLower_of_lower same (by simpa using plain)
  rw [whole, List.map_cons, String.toList_singleton, List.cons.injEq] at letters
  exact free (Text.eq_of_toLower letters.1 other ▸ symbol)

theorem junction?_ne_none_of_lower {t : Token} {j : Junction} (word : t.kind = .word)
    (same : Text.lower t.text = j.word) : t.junction? ≠ none := by
  have letters := Text.toLower_of_lower same (by cases j <;> decide)
  unfold junction?
  rw [if_neg (by simp [word])]
  cases j
  · rw [Text.sameLetters, letters, if_pos (by decide)]
    exact Option.some_ne_none _
  · rw [Text.sameLetters, Text.sameLetters, letters, if_neg (by decide), if_pos (by decide)]
    exact Option.some_ne_none _

end Token

namespace Operator

open Token

theorem keywords : (implemented.all fun op => !op.isSpoken ||
    find? op.keyword = some op && (Token.word op.keyword).junction?.isNone &&
      decide (IsWord op.keyword.toList)) = true := by
  decide +kernel

theorem reads_keyword {op : Operator} (known : op ∈ implemented) (spoken : op.isSpoken = true) :
    find? op.keyword = some op ∧ (Token.word op.keyword).junction? = none ∧ IsWord op.keyword.toList := by
  have own := List.all_eq_true.1 keywords op known
  simpa [spoken, and_assoc] using own

theorem unspoken : (implemented.all fun op => op.isSpoken ||
    ["", "(", ")", Junction.any.word, Junction.all.word].contains op.keyword) = true := by
  decide +kernel

theorem isSpoken_of_find? {text : String} {t : Token} {op : Operator}
    (cut : t ∈ (Token.scan .filter text).tokens) (found : t.operator? = some op)
    (junction : t.junction? = none) : op.isSpoken = true := by
  have word : t.kind = .word := by
    unfold Token.operator? at found
    split at found
    · assumption
    · cases found
  rw [Token.operator?, if_pos word] at found
  have keyword : op.keyword = Text.lower t.text := by simpa using List.find?_some found
  have known := List.mem_of_find?_eq_some found
  have own := List.all_eq_true.1 unspoken op known
  cases spoken : op.isSpoken with
  | true => rfl
  | false =>
    exfalso
    rw [spoken, Bool.false_or, List.contains_iff_mem, keyword] at own
    simp only [List.mem_cons, List.not_mem_nil, or_false] at own
    rcases own with empty | opens | closes | any | all
    · obtain ⟨c, cs, whole, -⟩ := exists_first_of_word cut word
      have none := Text.toLower_of_lower empty (by decide)
      rw [whole] at none
      cases none
    · exact lower_ne_symbol cut word '(' (by decide) (by decide) (by decide) opens
    · exact lower_ne_symbol cut word ')' (by decide) (by decide) (by decide) closes
    · exact junction?_ne_none_of_lower word any junction
    · exact junction?_ne_none_of_lower word all junction

end Operator

end WhereClause
