import WhereClause.Value.Literal

namespace WhereClause

namespace Text

def folded (s : String) : String := String.ofList (s.toList.map Char.toLower)

theorem toList_folded (s : String) : (folded s).toList = s.toList.map Char.toLower := String.toList_ofList

theorem toLower_cases (c : Char) : c.toLower = c ∧ ¬(65 ≤ c.toNat ∧ c.toNat ≤ 90) ∨
    ∃ n < 26, c.toNat = 65 + n ∧ c.toLower.toNat = 97 + n := by
  unfold Char.toLower
  split
  · next capital =>
    obtain ⟨lower, upper⟩ := capital
    rw [ge_iff_le, UInt32.le_iff_toNat_le] at lower
    rw [UInt32.le_iff_toNat_le] at upper
    have low : 65 ≤ c.toNat := lower
    have high : c.toNat ≤ 90 := upper
    refine Or.inr ⟨c.toNat - 65, by omega, by omega, ?_⟩
    have sum : (c.val + 32).toNat = c.toNat + 32 := by
      rw [UInt32.toNat_add]
      exact Nat.mod_eq_of_lt (by simp; omega)
    have whole : (c.val + 32).toNat = 97 + (c.toNat - 65) := by omega
    exact whole
  · next small =>
    refine Or.inl ⟨rfl, fun capital => small ?_⟩
    rw [ge_iff_le, UInt32.le_iff_toNat_le, UInt32.le_iff_toNat_le]
    exact capital

theorem toLower_toLower (c : Char) : c.toLower.toLower = c.toLower := by
  rcases toLower_cases c with ⟨same, -⟩ | ⟨n, -, -, lower⟩
  · rw [same, same]
  · rcases toLower_cases c.toLower with ⟨same, -⟩ | ⟨m, letter, capital, -⟩
    · exact same
    · omega

/-- What is the same for the two cases of each of the 26 letters does not see the case of a letter. -/
theorem toLower_unseen {β : Type} (f : Nat → β) (letters : ∀ n < 26, f (97 + n) = f (65 + n)) (c : Char) :
    f c.toLower.toNat = f c.toNat := by
  rcases toLower_cases c with ⟨same, -⟩ | ⟨n, small, capital, lower⟩
  · rw [same]
  · rw [capital, lower, letters n small]

theorem toLower_eq_iff {c d : Char} (other : ¬(65 ≤ d.toNat ∧ d.toNat ≤ 90 ∨ 97 ≤ d.toNat ∧ d.toNat ≤ 122)) :
    c.toLower = d ↔ c = d := by
  rcases toLower_cases c with ⟨same, -⟩ | ⟨n, small, capital, lower⟩
  · rw [same]
  · constructor
    · rintro rfl
      omega
    · rintro rfl
      omega

theorem lowerChar_toLower (c : Char) : lowerChar c.toLower = lowerChar c := by
  rcases toLower_cases c with ⟨same, -⟩ | ⟨n, letter, capital, lower⟩
  · rw [same]
  · rw [lowerChar, lowerChar, if_pos (by omega), if_pos (by omega), toLower_toLower]

theorem casedAhead_toLower (cs : List Char) : casedAhead (cs.map Char.toLower) = casedAhead cs := by
  have ignorable (c : Char) := toLower_unseen Table.caseIgnorable.covers (by decide +kernel) c
  have cased (c : Char) := toLower_unseen Table.cased.covers (by decide +kernel) c
  unfold casedAhead
  simp only [List.dropWhile_map, Function.comp_def, ignorable]
  cases cs.dropWhile fun c => Table.caseIgnorable.covers c.toNat with
  | nil => rfl
  | cons c rest => exact cased c

theorem lowerAfter_toLower (before cs : List Char) :
    lowerAfter (before.map Char.toLower) (cs.map Char.toLower) = lowerAfter before cs := by
  induction cs generalizing before with
  | nil => rfl
  | cons c rest ih =>
    have later := ih (c :: before)
    rw [List.map_cons] at later
    rw [List.map_cons, lowerAfter, lowerAfter, later, lowerChar_toLower, casedAhead_toLower,
      casedAhead_toLower]
    simp only [toLower_eq_iff (d := 'Σ') (by decide)]

theorem lower_folded (s : String) : lower (folded s) = lower s := by
  rw [lower, toList_folded]
  exact congrArg String.ofList (lowerAfter_toLower [] s.toList)

theorem map_toLower_toLower (cs : List Char) : (cs.map Char.toLower).map Char.toLower = cs.map Char.toLower := by
  rw [List.map_map]
  exact List.map_congr_left fun c _ => toLower_toLower c

theorem sameLetters_folded (s t : String) : sameLetters (folded s) t = sameLetters s t := by
  rw [sameLetters, toList_folded, map_toLower_toLower, sameLetters]

theorem folded_eq_iff {s t : String} : folded s = folded t ↔ sameLetters s t = true := by
  rw [sameLetters, beq_iff_eq, folded, folded, String.ofList_inj]

theorem isDigit_toLower (c : Char) : isDigit c.toLower = isDigit c := by
  have digits : ∀ d, isDigit d = (decide (48 ≤ d.toNat ∧ d.toNat ≤ 57)) := fun d => by
    rw [Bool.eq_iff_iff, isDigit_iff, decide_eq_true_iff]
  rw [digits, digits]
  exact toLower_unseen (fun n => decide (48 ≤ n ∧ n ≤ 57)) (by decide) c

theorem map_toLower_of_digits {cs : List Char} (h : ∀ c ∈ cs, isDigit c = true) :
    cs.map Char.toLower = cs := by
  refine (List.map_congr_left fun c member => ?_).trans (List.map_id cs)
  have digit := isDigit_iff.1 (h c member)
  rcases toLower_cases c with ⟨same, -⟩ | ⟨n, -, capital, -⟩
  · exact same
  · omega

theorem allDigits_toLower (cs : List Char) : allDigits (cs.map Char.toLower) = allDigits cs := by
  simp [allDigits, isDigit_toLower, Function.comp_def]

theorem splitSign_toLower (cs : List Char) :
    splitSign (cs.map Char.toLower) = ((splitSign cs).1, (splitSign cs).2.map Char.toLower) := by
  cases cs with
  | nil => rfl
  | cons c cs =>
    have sign (d : Char) (other : d.toNat < 65) : c.toLower = d ↔ c = d := toLower_eq_iff (by omega)
    by_cases minus : c = '-'
    · subst minus
      rfl
    by_cases plus : c = '+'
    · subst plus
      rfl
    rw [splitSign_unsigned (by simpa [sign '-' (by decide)] using minus)
        (by simpa [sign '+' (by decide)] using plus),
      splitSign_unsigned (by simpa using minus) (by simpa using plus)]

theorem readInteger_toLower (cs : List Char) : readInteger (cs.map Char.toLower) = readInteger cs := by
  simp only [readInteger, splitSign_toLower, allDigits_toLower, ne_eq, List.map_eq_nil_iff]
  split
  · next digits => rw [map_toLower_of_digits (List.all_eq_true.1 digits.2)]
  · rfl

theorem splitPoint_toLower (cs : List Char) : splitPoint (cs.map Char.toLower) =
    ((splitPoint cs).1.map Char.toLower, (splitPoint cs).2.map Char.toLower) := by
  have point (c : Char) : (c.toLower = '.') = (c = '.') := propext (toLower_eq_iff (by decide))
  simp only [splitPoint, List.takeWhile_map, List.dropWhile_map, Function.comp_def, point, ne_eq, ← List.map_drop]

end Text

theorem Decimal.read_toLower (cs : List Char) : read (cs.map Char.toLower) = read cs := by
  simp only [read, Text.splitPoint_toLower, ← List.map_append, Text.readInteger_toLower, List.length_map]

namespace Single

open Text

theorem readExponent_toLower (cs : List Char) : readExponent (cs.map Char.toLower) = readExponent cs := by
  cases cs with
  | nil => rfl
  | cons c cs =>
    have letter : (c.toLower = 'e' ∨ c.toLower = 'E') = (c = 'e' ∨ c = 'E') := by
      have seen := toLower_unseen (fun n => decide (n = 'e'.toNat ∨ n = 'E'.toNat)) (by decide) c
      simpa only [decide_eq_decide, Char.toNat_inj, eq_iff_iff] using seen
    rw [List.map_cons, readExponent, readExponent, readInteger_toLower]
    simp only [letter]

theorem read_toLower (cs : List Char) : read (cs.map Char.toLower) = read cs := by
  have digits (cs : List Char) : (cs.map Char.toLower).takeWhile isDigit = cs.takeWhile isDigit := by
    simp only [List.takeWhile_map, Function.comp_def, isDigit_toLower]
    exact map_toLower_of_digits (List.all_eq_true.1 List.all_takeWhile)
  have others (cs : List Char) :
      (cs.map Char.toLower).dropWhile isDigit = (cs.dropWhile isDigit).map Char.toLower := by
    simp only [List.dropWhile_map, Function.comp_def, isDigit_toLower]
  have point (cs : List Char) : (cs.map Char.toLower).head? = some '.' ↔ cs.head? = some '.' := by
    cases cs <;> simp [toLower_eq_iff (d := '.') (by decide)]
  simp only [read, splitSign_toLower, digits, others, point, ← List.map_tail]
  split <;> simp only [readExponent_toLower]

theorem ofName_toLower (cs : List Char) : ofName (cs.map Char.toLower) = ofName cs := by
  simp only [ofName, splitSign_toLower, map_toLower_toLower, read_toLower]

end Single

namespace Value

theorem isPlainDecimal_toLower (cs : List Char) : isPlainDecimal (cs.map Char.toLower) = isPlainDecimal cs := by
  simp only [isPlainDecimal, Text.splitSign_toLower, Text.splitPoint_toLower, Text.allDigits_toLower, ne_eq,
    List.map_eq_nil_iff]

theorem startsLikeNumber_toLower (cs : List Char) :
    startsLikeNumber (cs.map Char.toLower) = startsLikeNumber cs := by
  have point (c : Char) : (c.toLower = '.') = (c = '.') := propext (Text.toLower_eq_iff (by decide))
  simp only [startsLikeNumber, Text.splitSign_toLower, List.head?_map, Option.any_map, Text.isDigit_toLower, point]

theorem readNumber?_folded (s : String) : readNumber? (Text.folded s) = readNumber? s := by
  simp only [readNumber?, readDecimal?, readFinite?, Text.toList_folded, Text.readInteger_toLower,
    isPlainDecimal_toLower, Decimal.read_toLower, startsLikeNumber_toLower, Single.ofName_toLower]

theorem readKeyword?_folded (s : String) : readKeyword? (Text.folded s) = readKeyword? s := by
  simp only [readKeyword?, Text.sameLetters_folded]

end Value

end WhereClause
