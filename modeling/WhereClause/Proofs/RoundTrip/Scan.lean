import WhereClause.Proofs.Literal.Token

namespace WhereClause

namespace Token

open Text

def unplaced (t : Token) : Token := ⟨t.kind, t.text, .start⟩

def Scan.said? (s : Scan) : Option (List Token) :=
  if s.unterminated.isSome then none else some ((significant s.tokens).map unplaced)

theorem Scan.said?_cons (t : Token) (s : Scan) :
    (s.cons t).said? = s.said?.map fun ts => if t.kind.isTrivia then ts else t.unplaced :: ts := by
  unfold said? cons
  cases s.unterminated with
  | some p => rfl
  | none => cases trivia : t.kind.isTrivia <;> simp [significant, trivia]

theorem Scan.said?_full (o : Options) (cs : List Char) (p q : Position) :
    (full o p cs).said? = (full o q cs).said? := by
  induction p, cs using full.induct o generalizing q with
  | case1 p =>
    rw [full, full]
    rfl
  | case2 p c cs none =>
    rw [full, full, none]
    rfl
  | case3 p c cs kind n found taken ih =>
    rw [full, full, found]
    simp only [said?_cons]
    rw [ih (kind.advance q (c :: cs.take n))]
    rfl

def said? (cs : List Char) : Option (List Token) := (Scan.full .filter .start cs).said?

theorem said?_nil : said? [] = some [] := by
  rw [said?, Scan.full]
  rfl

theorem said?_cons {c : Char} {cs : List Char} {kind : Kind} {n : Nat}
    (h : Options.filter.token? c cs = some (kind, n)) :
    said? (c :: cs) = (said? (cs.drop n)).map fun ts =>
      if kind.isTrivia then ts else ⟨kind, String.ofList (c :: cs.take n), .start⟩ :: ts := by
  rw [said?, Scan.full, h]
  simp only [Scan.said?_cons]
  rw [said?, Scan.said?_full .filter (cs.drop n) _ .start]
  rfl

theorem said?_blank (cs : List Char) : said? (' ' :: cs) = said? cs := by
  have skipped {c : Char} (blank : isBlank c = true) (feed : c ≠ '\r' ∧ c ≠ '\n') (cs : List Char) :
      said? (c :: cs) = said? (cs.drop (Options.blankExtent cs)) := by
    have quote : c ≠ '\'' := by
      rintro rfl
      cases blank
    have first : Options.filter.token? c cs = some (.blank, Options.blankExtent cs) := by
      simp [Options.token?, quote, feed, blank]
    rw [said?_cons first]
    exact Option.map_id' ..
  rw [skipped (by decide) (by decide)]
  cases cs with
  | nil => rfl
  | cons c cs =>
    by_cases blank : isBlank c = true ∧ c ≠ '\r' ∧ c ≠ '\n'
    · rw [skipped blank.1 blank.2]
      simp [Options.blankExtent, blank]
    · have none : Options.blankExtent (c :: cs) = 0 := by
        rw [Options.blankExtent, List.takeWhile_cons_of_neg, List.length_nil]
        simpa only [Bool.and_eq_true, decide_eq_true_eq, and_assoc] using blank
      rw [none, List.drop_zero]

theorem said?_symbol {c : Char} (h : c ∈ Options.filter.symbols) (cs : List Char) :
    said? (c :: cs) = (said? cs).map (⟨.symbol, String.singleton c, .start⟩ :: ·) := by
  have first : Options.filter.token? c cs = some (.symbol, 0) := by
    simp only [Options.filter, Options.plain, List.mem_cons, List.not_mem_nil, or_false] at h
    rcases h with rfl | rfl | rfl <;> rfl
  rw [said?_cons first]
  rfl

/-- A text that the scan takes for one word. -/
def IsWord (text : List Char) : Prop :=
  ∃ c cs, text = c :: cs ∧ Options.filter.token? c cs = some (.word, cs.length)

def Ends (rest : List Char) : Prop := ∀ c ∈ rest.head?, c = ' ' ∨ c ∈ Options.filter.symbols

theorem ends_nil : Ends [] := nofun

theorem ends_cons {c : Char} (h : c = ' ' ∨ c ∈ Options.filter.symbols) (rest : List Char) :
    Ends (c :: rest) := by
  rintro _ ⟨⟩
  exact h

theorem takeWhile_append_of_head {p : Char → Bool} {rest : List Char} (stop : ∀ c ∈ rest.head?, p c = false)
    (cs : List Char) : (cs ++ rest).takeWhile p = cs.takeWhile p := by
  have none : rest.takeWhile p = [] := by
    cases rest with
    | nil => rfl
    | cons c rest => exact List.takeWhile_cons_of_neg (by simp [stop c rfl])
  rw [List.takeWhile_append, none, List.append_nil]
  split
  · next whole =>
    exact (List.takeWhile_sublist p).eq_of_length whole |>.symm
  · rfl

def Stops (rest : List Char) : Prop := ∀ c ∈ rest.head?, Options.filter.continuesWord c = false

theorem Ends.stops {rest : List Char} (ends : Ends rest) : Stops rest := by
  intro c first
  have end_or := ends c first
  simp only [Options.filter, Options.plain, List.mem_cons, List.not_mem_nil, or_false] at end_or
  rcases end_or with rfl | rfl | rfl | rfl <;> decide

namespace Options

variable {rest : List Char} (stops : Stops rest) (cs : List Char)

theorem continuesWord_of_isDigit {c : Char} (digit : isDigit c = true) : filter.continuesWord c = true := by
  simp [continuesWord, digit, filter]

theorem wordExtent_le (o : Options) : o.wordExtent cs ≤ cs.length :=
  (List.takeWhile_sublist _).length_le

theorem digitExtent_le : digitExtent cs ≤ cs.length := (List.takeWhile_sublist _).length_le

theorem fractionExtent_le : fractionExtent cs ≤ cs.length := by
  unfold fractionExtent
  split
  · next cs =>
    have inside := digitExtent_le cs
    split <;> simp [inside]
  · exact Nat.zero_le _

theorem numberExtent_le (o : Options) : (o.numberExtent cs).2 ≤ cs.length := by
  have digits := digitExtent_le cs
  have fraction := fractionExtent_le (cs.drop (digitExtent cs))
  have word := wordExtent_le (cs.drop (digitExtent cs + fractionExtent (cs.drop (digitExtent cs)))) o
  simp only [List.length_drop] at fraction word
  simp only [numberExtent]
  split
  · dsimp only
    omega
  · dsimp only
    omega

include stops

theorem wordExtent_append : filter.wordExtent (cs ++ rest) = filter.wordExtent cs := by
  rw [wordExtent, takeWhile_append_of_head stops, wordExtent]

theorem digitExtent_append : digitExtent (cs ++ rest) = digitExtent cs := by
  have other (c : Char) (first : c ∈ rest.head?) : isDigit c = false := by
    rw [Bool.eq_false_iff]
    exact fun digit => Bool.eq_false_iff.1 (stops c first) (continuesWord_of_isDigit digit)
  rw [digitExtent, takeWhile_append_of_head other, digitExtent]

theorem fractionExtent_append : fractionExtent (cs ++ rest) = fractionExtent cs := by
  have other {c : Char} (point : c ≠ '.') (cs : List Char) : fractionExtent (c :: cs) = 0 := by
    unfold fractionExtent
    split
    · next same => exact absurd (List.cons.inj same).1 point
    · rfl
  cases cs with
  | nil =>
    cases rest with
    | nil => rfl
    | cons c rest =>
      refine other ?_ rest
      rintro rfl
      exact absurd (stops '.' rfl) (by decide)
  | cons c cs =>
    by_cases point : c = '.'
    · subst point
      simp only [List.cons_append, fractionExtent, digitExtent_append stops]
    · rw [List.cons_append, other point, other point]

theorem numberExtent_append : filter.numberExtent (cs ++ rest) = filter.numberExtent cs := by
  have digits : (cs ++ rest).drop (digitExtent cs) = cs.drop (digitExtent cs) ++ rest :=
    List.drop_append_of_le_length (digitExtent_le cs)
  have fraction := fractionExtent_le (cs.drop (digitExtent cs))
  have number : digitExtent cs + fractionExtent (cs.drop (digitExtent cs)) ≤ cs.length := by
    have own := digitExtent_le cs
    rw [List.length_drop] at fraction
    omega
  have after : (cs ++ rest).drop (digitExtent cs + fractionExtent (cs.drop (digitExtent cs))) =
      cs.drop (digitExtent cs + fractionExtent (cs.drop (digitExtent cs))) ++ rest :=
    List.drop_append_of_le_length number
  have runs (ds : List Char) :
      (ds ++ rest).head?.any filter.continuesWord = ds.head?.any filter.continuesWord := by
    cases ds with
    | cons d ds => rfl
    | nil =>
      cases rest with
      | nil => rfl
      | cons c rest => simp [stops c rfl]
  simp only [numberExtent, digitExtent_append stops, digits, fractionExtent_append stops, after, runs,
    wordExtent_append stops]

omit stops

theorem token?_of_word {c : Char} {cs : List Char} {n : Nat} (h : filter.token? c cs = some (.word, n)) :
    (c ≠ ' ' ∧ c ∉ filter.symbols) ∧ ∀ ds, filter.token? c ds =
      some (if isDigit c then filter.numberExtent ds else (.word, filter.wordExtent ds)) := by
  -- That a word starts is decided by the first character alone.
  unfold token? at h
  split at h
  · obtain ⟨_, -, same⟩ := Option.map_eq_some_iff.1 h
    cases same
  next quote =>
  split at h
  · cases h
  next back =>
  split at h
  · cases h
  next feed =>
  split at h
  · cases h
  next blank =>
  split at h
  · cases h
  next symbol =>
  constructor
  · constructor
    · rintro rfl
      exact blank (by decide)
    · simpa using symbol
  · intro ds
    rw [token?, if_neg quote, if_neg back, if_neg feed, if_neg blank, if_neg symbol]
    split
    · rfl
    · rw [if_pos (by simp [filter, plain])]

theorem token?_append {c : Char} {cs rest : List Char} {n : Nat}
    (h : filter.token? c cs = some (.word, n)) (ends : Ends rest) :
    filter.token? c (cs ++ rest) = some (.word, n) := by
  obtain ⟨-, all⟩ := token?_of_word h
  rw [all] at h ⊢
  rw [numberExtent_append ends.stops, wordExtent_append ends.stops]
  exact h

theorem extent_le {c : Char} {cs : List Char} {n : Nat} (h : filter.token? c cs = some (.word, n)) :
    n ≤ cs.length := by
  obtain ⟨-, all⟩ := token?_of_word h
  rw [all] at h
  have whole := Option.some.inj h
  split at whole
  · have bound := numberExtent_le cs filter
    rwa [whole] at bound
  · cases whole
    exact wordExtent_le cs filter

end Options

theorem said?_word {w rest : List Char} (word : IsWord w) (ends : Ends rest) :
    said? (w ++ rest) = (said? rest).map (⟨.word, String.ofList w, .start⟩ :: ·) := by
  obtain ⟨c, cs, rfl, first⟩ := word
  rw [List.cons_append, said?_cons (Options.token?_append first ends), List.drop_left, List.take_left]
  rfl

theorem IsWord.not_mem {w : List Char} (word : IsWord w) {p : Char} (ends : p ∈ Options.filter.symbols) :
    p ∉ w := by
  obtain ⟨c, cs, rfl, first⟩ := word
  have own := (Options.token?_of_word first).1.2
  intro member
  rcases List.mem_cons.1 member with rfl | member
  · exact own ends
  · obtain ⟨before, after, rfl⟩ := List.append_of_mem member
    have stops : Stops (p :: after) := (ends_cons (Or.inr ends) after).stops
    -- The word would be no longer if it were cut before the symbol.
    obtain ⟨-, all⟩ := Options.token?_of_word first
    have cut : Options.filter.token? c before = some (.word, (before ++ p :: after).length) := by
      rw [← first, all, all, Options.numberExtent_append stops, Options.wordExtent_append stops]
    have short := Options.extent_le cut
    simp only [List.length_append, List.length_cons] at short
    omega

def isParenthesis (c : Char) : Bool := c = '(' || c = ')'

/-- Wherever the text stands before an end of words, it is cut into these tokens. -/
structure Spells (text : String) (ts : List Token) : Prop where
  said : ∀ rest, Ends rest → said? (text.toList ++ rest) = (said? rest).map (ts ++ ·)
  parentheses : text.toList.filter isParenthesis = ts.flatMap (·.text.toList.filter isParenthesis)

namespace Spells

variable {a b : String} {ts us : List Token}

theorem word (h : IsWord a.toList) : Spells a [⟨.word, a, .start⟩] where
  said rest ends := by
    rw [said?_word h ends, String.ofList_toList]
    rfl
  parentheses := by simp

theorem symbol {c : Char} (h : c ∈ Options.filter.symbols) :
    Spells (String.singleton c) [⟨.symbol, String.singleton c, .start⟩] where
  said rest _ := by
    rw [String.toList_singleton, List.singleton_append, said?_symbol h]
    rfl
  parentheses := by simp

theorem append (first : Spells a ts) (second : Spells b us)
    (apart : ∀ rest, Ends rest → Ends (b.toList ++ rest)) : Spells (a ++ b) (ts ++ us) where
  said rest ends := by
    rw [String.toList_append, List.append_assoc, first.said _ (apart rest ends), second.said rest ends,
      Option.map_map]
    congr 1
    funext rest
    exact (List.append_assoc ..).symm
  parentheses := by
    rw [String.toList_append, List.filter_append, List.flatMap_append, first.parentheses,
      second.parentheses]

theorem blank (h : Spells b us) : Spells (" " ++ b) us where
  said rest ends := by
    rw [String.toList_append, List.append_assoc]
    exact (said?_blank _).trans (h.said rest ends)
  parentheses := by
    rw [String.toList_append, List.filter_append, h.parentheses]
    rfl

theorem between (first : Spells a ts) (second : Spells b us) : Spells (a ++ " " ++ b) (ts ++ us) := by
  rw [String.append_assoc]
  refine first.append second.blank fun rest _ => ?_
  rw [String.toList_append, List.append_assoc]
  exact ends_cons (Or.inl rfl) _

theorem symbol_append {c : Char} (h : c ∈ Options.filter.symbols) (second : Spells b us) :
    Spells (String.singleton c ++ b) (⟨.symbol, String.singleton c, .start⟩ :: us) where
  said rest ends := by
    rw [String.toList_append, String.toList_singleton, List.append_assoc, List.singleton_append,
      said?_symbol h, second.said rest ends, Option.map_map]
    rfl
  parentheses := by
    rw [String.toList_append, List.filter_append, List.flatMap_cons, second.parentheses]

theorem ends_symbol {c : Char} (h : c ∈ Options.filter.symbols) (b : String) (rest : List Char) :
    Ends ((String.singleton c ++ b).toList ++ rest) := by
  rw [String.toList_append, String.toList_singleton, List.append_assoc]
  exact ends_cons (Or.inr h) _

end Spells

theorem said?_eq (text : String) : said? text.toList =
    (scan .filter text).complete.toOption.map fun tokens => (significant tokens).map unplaced := by
  have kept (ts : List Token) :
      significant (ts.filter fun t => t.kind ≠ .blank && t.kind ≠ .lineEnd) = significant ts := by
    rw [significant, List.filter_filter, significant]
    congr 1
    funext t
    cases t.kind <;> rfl
  have own : scan .filter text = (Scan.full .filter .start text.toList).withoutBlanks := rfl
  rw [own, said?, Scan.said?, Scan.complete, Scan.fault?, Scan.withoutBlanks]
  cases (Scan.full .filter .start text.toList).unterminated with
  | some p => rfl
  | none => exact congrArg (fun ts => some (ts.map unplaced)) (kept _).symm

theorem Scan.tokens_of_complete {s : Scan} {tokens : List Token} (h : s.complete = .ok tokens) :
    s.tokens = tokens := by
  unfold complete at h
  split at h
  · cases h
  · exact Except.ok.inj h

theorem exists_of_said? {text : String} {ts : List Token} (h : said? text.toList = some ts) :
    ∃ tokens, (scan .filter text).complete = .ok tokens ∧ (significant tokens).map unplaced = ts := by
  rw [said?_eq] at h
  obtain ⟨tokens, scanned, same⟩ := Option.map_eq_some_iff.1 h
  cases found : (scan .filter text).complete with
  | error fault =>
    rw [found] at scanned
    cases scanned
  | ok others =>
    rw [found] at scanned
    cases scanned
    exact ⟨_, rfl, same⟩

theorem said?_of_complete {text : String} {tokens : List Token}
    (h : (scan .filter text).complete = .ok tokens) :
    said? text.toList = some ((significant tokens).map unplaced) := by
  rw [said?_eq, h]
  rfl

theorem said?_cases {c : Char} {cs : List Char} {ts : List Token} (h : said? (c :: cs) = some ts) :
    ∃ kind n us, Options.filter.token? c cs = some (kind, n) ∧ said? (cs.drop n) = some us ∧
      (ts = us ∨ ts = ⟨kind, String.ofList (c :: cs.take n), .start⟩ :: us) := by
  cases found : Options.filter.token? c cs with
  | none =>
    rw [said?, Scan.full, found] at h
    cases h
  | some first =>
    obtain ⟨kind, n⟩ := first
    rw [said?_cons found] at h
    obtain ⟨us, rest, same⟩ := Option.map_eq_some_iff.1 h
    refine ⟨kind, n, us, rfl, rest, ?_⟩
    split at same
    · exact Or.inl same.symm
    · exact Or.inr same.symm

theorem length_le_of_said? {cs : List Char} {ts : List Token} (h : said? cs = some ts) :
    ∀ t ∈ ts, t.text.toList.length ≤ cs.length := by
  induction size : cs.length using Nat.strongRecOn generalizing cs ts with
  | ind size ih =>
    subst size
    cases cs with
    | nil =>
      rw [said?_nil] at h
      cases h
      nofun
    | cons c cs =>
      obtain ⟨kind, n, us, -, rest, whole⟩ := said?_cases h
      have shorter : (cs.drop n).length < (c :: cs).length := by
        simp only [List.length_drop, List.length_cons]
        omega
      have later : ∀ t ∈ us, t.text.toList.length ≤ (c :: cs).length := fun t member =>
        Nat.le_trans (ih _ shorter rest rfl t member) (Nat.le_of_lt shorter)
      rcases whole with rfl | rfl
      · exact later
      · refine List.forall_mem_cons.2 ⟨?_, later⟩
        simp only [String.toList_ofList, List.length_cons, List.length_take]
        omega

theorem isWord_of_said? {text : String} (h : said? text.toList = some [⟨.word, text, .start⟩]) :
    IsWord text.toList := by
  cases whole : text.toList with
  | nil =>
    rw [whole, said?_nil] at h
    cases h
  | cons c cs =>
    rw [whole] at h
    obtain ⟨kind, n, us, first, rest, same | same⟩ := said?_cases h
    · have short := length_le_of_said? rest ⟨.word, text, .start⟩ (same ▸ List.mem_singleton_self _)
      simp only [whole, List.length_drop, List.length_cons] at short
      omega
    · simp only [List.cons.injEq, Token.mk.injEq] at same
      obtain ⟨⟨rfl, written, -⟩, -⟩ := same
      rw [written, String.toList_ofList] at whole
      have covered := congrArg List.length (List.cons.inj whole).2
      have bound := Options.extent_le first
      rw [List.length_take, Nat.min_eq_left bound] at covered
      exact ⟨c, cs, rfl, by rw [first, covered]⟩

end Token

end WhereClause
