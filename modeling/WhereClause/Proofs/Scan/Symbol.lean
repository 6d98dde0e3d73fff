import WhereClause.Proofs.Scan.Run

namespace WhereClause.Token

open Text

namespace Options

variable {o : Options} {c d : Char} {cs ds : List Char} {kind : Kind} {n : Nat}

/-- The word or the number that starts with `d` can go on with `c`. -/
inductive Holds (o : Options) (d c : Char) : Prop where
  | word (solid : IsSolid d) (other : d ∉ o.symbols) (digit : isDigit d = false)
      (starts : startsWord d = true ∨ o.othersInWords = true) (continues : o.continuesWord c = true)
  | number (other : d ∉ o.symbols) (digit : isDigit d = true)
      (continues : isDigit c = true ∨ c = '.' ∨ o.digitsInWords = true ∧ o.continuesWord c = true)

theorem isSolid_of_isDigit (h : isDigit d = true) : IsSolid d := by
  refine isSolid_of_isBlank ?_ ?_
  · rintro rfl
    exact absurd h (by decide)
  · rw [Bool.eq_false_iff]
    intro blank
    rw [(not_of_isBlank blank).2] at h
    cases h

theorem Holds.isSolid (h : o.Holds d c) : IsSolid d := by
  cases h with
  | word solid other digit starts continues => exact solid
  | number other digit continues => exact isSolid_of_isDigit digit

theorem Holds.not_mem_symbols (h : o.Holds d c) : d ∉ o.symbols := by
  cases h with
  | word solid other digit starts continues => exact other
  | number other digit continues => exact other

theorem continuesWord_quote (o : Options) : o.continuesWord '\'' = false := by
  have letter : startsWord '\'' = false := by decide
  have digit : isDigit '\'' = false := by decide
  simp [continuesWord, letter, digit, isOther]

theorem Holds.ne_quote (h : o.Holds d c) : c ≠ '\'' := by
  rintro rfl
  have never := continuesWord_quote o
  cases h with
  | word solid other digit starts continues => exact Bool.false_ne_true (never.symm.trans continues)
  | number other digit continues =>
    rcases continues with digit | point | ⟨-, continues⟩
    · exact absurd digit (by decide)
    · exact absurd point (by decide)
    · exact Bool.false_ne_true (never.symm.trans continues)

theorem mem_takeWhile_of_mem_take {p : Char → Bool} (h : c ∈ cs.take (cs.takeWhile p).length) : p c = true := by
  rw [take_takeWhile_length] at h
  exact List.mem_takeWhile_imp h

theorem digit_or_point_of_mem_take (h : c ∈ cs.take (numberLength cs)) : isDigit c = true ∨ c = '.' := by
  rw [numberLength, List.take_add] at h
  rcases List.mem_append.1 h with whole | fraction
  · exact Or.inl (mem_takeWhile_of_mem_take whole)
  · generalize cs.drop (digitExtent cs) = rest at fraction
    unfold fractionExtent at fraction
    split at fraction
    · next ds =>
      split at fraction
      · cases fraction
      · rw [List.take_succ_cons] at fraction
        rcases List.mem_cons.1 fraction with point | later
        · exact Or.inr point
        · exact Or.inl (mem_takeWhile_of_mem_take later)
    · cases fraction

theorem number_of_mem_take (digit : isDigit d = true) (other : d ∉ o.symbols)
    (counted : o.numberExtent cs = (kind, n)) (member : c ∈ cs.take n) : o.Holds d c := by
  refine .number other digit ?_
  simp only [numberExtent] at counted
  split at counted
  · next joins =>
    -- The word goes on where the number ends.
    rw [Bool.and_eq_true] at joins
    cases counted
    rw [List.take_add] at member
    rcases List.mem_append.1 member with number | word
    · exact (digit_or_point_of_mem_take number).imp_right Or.inl
    · exact Or.inr (Or.inr ⟨joins.1, mem_takeWhile_of_mem_take word⟩)
  · cases counted
    exact (digit_or_point_of_mem_take member).imp_right Or.inl

theorem holds_of_mem_take (found : o.token? d cs = some (kind, n)) (quote : d ≠ '\'') (member : c ∈ cs.take n) :
    isBlank c = true ∨ o.Holds d c := by
  unfold token? at found
  rw [if_neg quote] at found
  split at found
  · cases found
    split at member
    · next feed =>
      obtain ⟨rest, rfl⟩ := List.head?_eq_some_iff.1 feed
      obtain rfl := List.mem_singleton.1 member
      exact Or.inl (by decide)
    · cases member
  next carriage =>
  split at found
  · cases found
    cases member
  next feed =>
  split at found
  · cases found
    have within := mem_takeWhile_of_mem_take member
    simp only [Bool.and_eq_true] at within
    exact Or.inl within.1.1
  next blank =>
  have solid : IsSolid d := ⟨quote, carriage, feed, by simpa using blank⟩
  split at found
  · cases found
    cases member
  next other =>
  rw [List.contains_iff_mem] at other
  split at found
  · next digit => exact Or.inr (number_of_mem_take digit other (Option.some.inj found) member)
  next digit =>
  split at found
  · next starts =>
    cases found
    rw [Bool.or_eq_true] at starts
    exact Or.inr (.word solid other (by simpa using digit) starts (mem_takeWhile_of_mem_take member))
  · cases found
    cases member

theorem exists_extent_before (quote : c ≠ '\'') (blank : isBlank c = false) (free : ∀ d, ¬o.Holds d c)
    (outside : (d :: ds).count '\'' % 2 = 0) (cs : List Char) :
    ∃ kind n, o.token? d (ds ++ c :: cs) = some (kind, n) ∧ n ≤ ds.length ∧ (ds.drop n).count '\'' % 2 = 0 := by
  by_cases starts : d = '\''
  · subst starts
    exact exists_extent_of_quote o quote outside cs
  · rw [List.count_cons_of_ne starts] at outside
    cases found : o.token? d (ds ++ c :: cs) with
    | none => exact absurd (token?_eq_none_iff.1 found).1 starts
    | some head =>
      obtain ⟨kind, n⟩ := head
      have within : n ≤ ds.length := by
        by_contra longer
        have member : c ∈ (ds ++ c :: cs).take n := by
          rw [List.take_append]
          refine List.mem_append_right _ ?_
          obtain ⟨m, size⟩ := Nat.exists_eq_add_of_lt (Nat.lt_of_not_le longer)
          rw [size, Nat.add_assoc, Nat.add_sub_cancel_left]
          exact List.mem_cons_self
        rcases holds_of_mem_take found starts member with solid | holds
        · rw [blank] at solid
          cases solid
        · exact free d holds
      refine ⟨kind, n, rfl, within, count_drop_of_not_mem outside fun member => ?_⟩
      have same : (ds ++ c :: cs).take n = ds.take n := List.take_append_of_le_length within
      rw [← same] at member
      rcases holds_of_mem_take found starts member with solid | holds
      · exact absurd solid (by decide)
      · exact holds.ne_quote rfl

theorem token?_of_mem_symbols (member : c ∈ o.symbols) (solid : IsSolid c) (cs : List Char) :
    o.token? c cs = some (.symbol, 0) := by
  obtain ⟨quote, carriage, feed, blank⟩ := solid
  simp [token?, quote, carriage, feed, blank, member]

theorem Holds.exists_token (h : o.Holds d c) :
    ∃ kind rest, o.token? d (c :: rest) = some (kind, (c :: rest).length) := by
  have other := h.not_mem_symbols
  obtain ⟨quote, carriage, feed, blank⟩ := h.isSolid
  cases h with
  | word solid other digit starts continues =>
    have word : o.wordExtent [c] = 1 := by simp [wordExtent, continues]
    exact ⟨.word, [], by simp [token?, quote, carriage, feed, blank, other, digit, starts, word]⟩
  | number other digit continues =>
    have counted (cs : List Char) : o.token? d cs = some (o.numberExtent cs) := by
      simp [token?, quote, carriage, feed, blank, other, digit]
    by_cases more : isDigit c = true
    · have number : o.numberExtent [c] = (.number, 1) := by simp [numberExtent, digitExtent, more, fractionExtent]
      exact ⟨.number, [], by rw [counted, number]; rfl⟩
    · rcases continues with again | rfl | ⟨joins, continues⟩
      · exact absurd again more
      · have number : o.numberExtent ['.', d] = (.number, 2) := by
          simp [numberExtent, digitExtent, more, fractionExtent, digit]
        exact ⟨.number, [d], by rw [counted, number]; rfl⟩
      · have fraction : fractionExtent [c] = 0 := by
          unfold fractionExtent
          split
          · next same =>
            obtain ⟨-, rfl⟩ := List.cons.inj same
            rfl
          · rfl
        have word : o.numberExtent [c] = (.word, 1) := by
          simp [numberExtent, digitExtent, more, fraction, joins, continues, wordExtent]
        exact ⟨.word, [], by rw [counted, word]; rfl⟩

end Options

/-- A character of a text outside strings, where an even number of quotes stands before. -/
structure Occurrence (text : String) (c : Char) where
  before : List Char
  after : List Char
  whole : text.toList = before ++ c :: after
  outside : before.count '\'' % 2 = 0

namespace Occurrence

variable {text : String} {c : Char}

/-- The character is the whole text of a symbol, before which stand the tokens of the text before it. -/
def StandsAlone (r : Occurrence text c) (o : Options) : Prop := ∃ earlier t later,
  (scan { o with skipBlanks := false } text).tokens = earlier ++ t :: later ∧ texts earlier = r.before ∧
    t.kind = .symbol ∧ t.text = String.singleton c ∧ t ∈ (scan o text).tokens

variable {o : Options}

theorem standsAlone_of_free (r : Occurrence text c) (member : c ∈ o.symbols) (solid : Options.IsSolid c)
    (free : ∀ d, ¬o.Holds d c) : r.StandsAlone o := by
  have ends (d : Char) (ds : List Char) (even : (d :: ds).count '\'' % 2 = 0) :=
    Options.exists_extent_before solid.1 solid.2.2.2 free even r.after
  obtain ⟨earlier, before, found⟩ := Scan.exists_tokens_of_extents (fun d ds _ => ends d ds) r.outside .start
  have first := Options.token?_of_mem_symbols member solid r.after
  rw [← r.whole, Scan.full_cons first] at found
  refine ⟨earlier, ⟨.symbol, String.ofList [c], endFrom .start earlier⟩, _, (scan_kept o text).trans found, before, rfl,
    String.singleton_eq_ofList.symm, ?_⟩
  refine mem_scan_of_isKept ?_ rfl
  rw [found]
  exact List.mem_append_right _ List.mem_cons_self

theorem not_standsAlone_of_token {d : Char} {rest : List Char} {kind : Kind} (whole : text.toList = d :: c :: rest)
    (found : o.token? d (c :: rest) = some (kind, (c :: rest).length)) :
    (scan o text).fault? = none ∧ ∀ r : Occurrence text c, r.before = [d] → ¬r.StandsAlone o := by
  have full : Scan.full o .start text.toList = ⟨[⟨kind, String.ofList (d :: c :: rest), .start⟩,
      ⟨.finish, "", kind.advance .start (d :: c :: rest)⟩], none⟩ := by
    rw [whole, Scan.full_cons found, List.take_length, List.drop_length, Scan.full]
    rfl
  constructor
  · rw [Scan.fault?, unterminated_scan, full]
    rfl
  · rintro r second ⟨earlier, t, later, tokens, before, -⟩
    -- No tokens have the first character alone for their text.
    rw [scan_kept, full] at tokens
    rw [second] at before
    cases earlier with
    | nil => cases before
    | cons first earlier =>
      obtain rfl := (List.cons.inj tokens).1
      rw [texts_cons, String.toList_ofList] at before
      cases before

/-- A symbol is a token of its own wherever it stands outside strings, in every text without an error, exactly if no
    word and no number that starts with another character than a symbol goes on with it. -/
theorem standsAlone_iff (member : c ∈ o.symbols) (quote : c ≠ '\'') (blank : isBlank c = false) :
    (∀ text, (scan o text).fault? = none → ∀ r : Occurrence text c, r.StandsAlone o) ↔ ∀ d, ¬o.Holds d c := by
  constructor
  · intro alone d holds
    obtain ⟨kind, rest, found⟩ := holds.exists_token
    obtain ⟨read, held⟩ := not_standsAlone_of_token String.toList_ofList found
    have even : [d].count '\'' % 2 = 0 := by rw [List.count_cons_of_ne holds.isSolid.1, List.count_nil]
    let r : Occurrence (String.ofList (d :: c :: rest)) c := ⟨[d], rest, String.toList_ofList, even⟩
    exact held r rfl (alone _ read r)
  · exact fun free text _ r => r.standsAlone_of_free member (Options.isSolid_of_isBlank quote blank) free

theorem standsAlone_iff_comma : ',' ∈ Options.filter.symbols ∧ ',' ≠ '\'' ∧ isBlank ',' = false ∧
    (∀ d, ¬Options.filter.Holds d ',') ∧
      ∀ text, (scan .filter text).fault? = none → ∀ r : Occurrence text ',', r.StandsAlone .filter := by
  have free (d : Char) : ¬Options.filter.Holds d ',' := by
    have never : Options.filter.continuesWord ',' = false := by decide
    rintro (⟨-, -, -, -, continues⟩ | ⟨-, -, digit | point | ⟨-, continues⟩⟩)
    · exact Bool.false_ne_true (never.symm.trans continues)
    · exact absurd digit (by decide)
    · exact absurd point (by decide)
    · exact Bool.false_ne_true (never.symm.trans continues)
  exact ⟨by decide, by decide, by decide, free, (standsAlone_iff (by decide) (by decide) (by decide)).2 free⟩

theorem exists_not_standsAlone :
    let o : Options := { Options.filter with symbols := ['(', ')', ',', '.'] }
    '.' ∈ o.symbols ∧ '.' ≠ '\'' ∧ isBlank '.' = false ∧ (scan o "1.5").fault? = none ∧
      ∃ r : Occurrence "1.5" '.', ¬r.StandsAlone o := by
  intro o
  have found : o.token? '1' ['.', '5'] = some (.number, 2) := by decide
  obtain ⟨read, held⟩ := not_standsAlone_of_token (rfl : "1.5".toList = ['1', '.', '5']) found
  exact ⟨by decide, by decide, by decide, read, ⟨['1'], ['5'], rfl, rfl⟩, held _ rfl⟩

end Occurrence

end WhereClause.Token
