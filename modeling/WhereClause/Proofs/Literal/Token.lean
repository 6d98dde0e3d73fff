import WhereClause.Lexeme
import WhereClause.Proofs.Literal.Number
import WhereClause.Proofs.Scan.First

namespace WhereClause

namespace Text

theorem take_takeWhile_length {α : Type} (p : α → Bool) (xs : List α) :
    xs.take (xs.takeWhile p).length = xs.takeWhile p := by
  have whole := @List.take_left α (xs.takeWhile p) (xs.dropWhile p)
  rwa [List.takeWhile_append_dropWhile] at whole

def IsNumber (cs : List Char) : Prop :=
  ∃ whole fraction, whole ≠ [] ∧ allDigits whole = true ∧ allDigits fraction = true ∧
    (cs = whole ∨ cs = whole ++ '.' :: fraction)

end Text

namespace Token

open Text

def IsLiteral (t : Token) : Prop :=
  (t.kind = .quoted → ∃ s, t.text = Quoted.write s) ∧ (t.kind = .number → IsNumber t.text.toList)

theorem Options.isNumber_of_extent {o : Options} {c : Char} {cs : List Char} {n : Nat}
    (digit : isDigit c = true) (h : o.numberExtent cs = (.number, n)) : IsNumber (c :: cs.take n) := by
  have extent : n = digitExtent cs + fractionExtent (cs.drop (digitExtent cs)) := by
    simp only [numberExtent] at h
    split at h
    · cases h
    · exact (Prod.mk.inj h).2.symm
  have front : cs.take (digitExtent cs) = cs.takeWhile isDigit := take_takeWhile_length isDigit cs
  have digits : allDigits (c :: cs.takeWhile isDigit) = true := by
    simp [allDigits, digit]
  rw [extent, List.take_add, front]
  generalize cs.drop (digitExtent cs) = rest
  rcases rest with _ | ⟨point, ds⟩
  · exact ⟨c :: cs.takeWhile isDigit, [], by simp, digits, rfl, Or.inl (by simp)⟩
  · by_cases separated : point = '.' ∧ digitExtent ds ≠ 0
    · obtain ⟨rfl, some⟩ := separated
      have back : ds.take (digitExtent ds) = ds.takeWhile isDigit := take_takeWhile_length isDigit ds
      refine ⟨c :: cs.takeWhile isDigit, ds.takeWhile isDigit, by simp, digits, by simp [allDigits], ?_⟩
      exact Or.inr (by simp [fractionExtent, some, back])
    · have none : fractionExtent (point :: ds) = 0 := by
        unfold fractionExtent
        split
        · next same =>
          obtain ⟨rfl, rfl⟩ := List.cons.inj same
          simpa using separated
        · rfl
      exact ⟨c :: cs.takeWhile isDigit, [], by simp, digits, rfl, Or.inl (by simp [none])⟩

theorem Scan.cases_of_mem_full {o : Options} {p : Position} {text : List Char} {t : Token}
    (h : t ∈ (full o p text).tokens) :
    (t.kind = .finish ∧ t.text = "") ∨
      ∃ c cs n, o.token? c cs = some (t.kind, n) ∧ t.text.toList = c :: cs.take n := by
  induction p, text using full.induct o with
  | case1 p =>
    rw [full] at h
    obtain rfl := List.mem_singleton.1 h
    exact Or.inl ⟨rfl, rfl⟩
  | case2 p c cs none =>
    rw [full, none] at h
    cases h
  | case3 p c cs kind n found taken ih =>
    rw [full, found] at h
    rcases List.mem_cons.1 h with rfl | later
    · exact Or.inr ⟨c, cs, n, found, String.toList_ofList⟩
    · exact ih later

theorem mem_full_of_mem_scan {o : Options} {text : String} {t : Token} (h : t ∈ (scan o text).tokens) :
    t ∈ (Scan.full o .start text.toList).tokens := by
  unfold scan at h
  split at h
  · exact (List.mem_filter.1 h).1
  · exact h

theorem cases_of_mem_scan {o : Options} {text : String} {t : Token} (h : t ∈ (scan o text).tokens) :
    (t.kind = .finish ∧ t.text = "") ∨
      ∃ c cs n, o.token? c cs = some (t.kind, n) ∧ t.text.toList = c :: cs.take n :=
  Scan.cases_of_mem_full (mem_full_of_mem_scan h)

theorem isLiteral_of_scan {o : Options} {text : String} {t : Token} (h : t ∈ (scan o text).tokens) :
    t.IsLiteral := by
  rcases cases_of_mem_scan h with ⟨finish, -⟩ | ⟨c, cs, n, found, whole⟩
  · exact ⟨by simp [finish], by simp [finish]⟩
  · have first := Options.first_of_token? found
    refine ⟨fun kind => ?_, fun kind => ?_⟩
    · rw [kind] at first
      cases first with
      | quoted closed =>
        obtain ⟨inner, rest, rfl, -, rfl⟩ := Quoted.extent_eq_some_iff.1 closed
        refine ⟨String.ofList inner, String.toList_inj.1 ?_⟩
        rw [whole, List.take_length_add_append]
        simp [Quoted.write]
      | number _ _ counted => rcases Options.kind_of_numberExtent counted with other | other <;> cases other
    · rw [kind] at first
      cases first with
      | number _ digit counted =>
        rw [whole]
        exact Options.isNumber_of_extent digit counted

end Token

theorem Text.IsNumber.exists_numeral {cs : List Char} (h : IsNumber cs) : ∃ n : Numeral, n.text = String.ofList cs := by
  obtain ⟨whole, fraction, nonempty, digits, moreDigits, written⟩ := h
  rw [allDigits_iff] at digits moreDigits
  rcases written with rfl | rfl
  · have all : ∀ c ∈ cs ++ [], isDigit c = true := by simpa using digits
    exact ⟨⟨none, cs, none, nofun, all, by simpa using nonempty⟩, by simp [Numeral.text, Numeral.body]⟩
  · have all := List.forall_mem_append.2 ⟨digits, moreDigits⟩
    exact ⟨⟨none, whole, some fraction, nofun, all, by simp [nonempty]⟩, by simp [Numeral.text, Numeral.body]⟩

theorem Token.literal?_of_isLiteral {t : Token} (h : t.IsLiteral)
    (kind : t.kind = .quoted ∨ t.kind = .number) : t.literal?.isSome = true := by
  unfold literal?
  rcases kind with quoted | number
  · obtain ⟨s, written⟩ := h.1 quoted
    simp [quoted, written, Text.Quoted.read_write]
  · obtain ⟨n, text⟩ := (h.2 number).exists_numeral
    obtain ⟨v, read, -⟩ := n.exists_readNumber?
    rw [String.ofList_toList] at text
    rw [text] at read
    simp [number, read]

end WhereClause
