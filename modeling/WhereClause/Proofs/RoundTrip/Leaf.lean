import WhereClause.Compile
import WhereClause.Proofs.RoundTrip.Keyword

namespace WhereClause

theorem Value.readNumber?_of_mark (cs : List Char) : readNumber? (String.ofList ('@' :: cs)) = none := by
  have sign : Text.splitSign ('@' :: cs) = (false, '@' :: cs) := rfl
  have digit : Text.isDigit '@' = false := by decide
  have integer : Text.readInteger ('@' :: cs) = none := by
    simp [Text.readInteger, sign, Text.allDigits, digit]
  have decimal : isPlainDecimal ('@' :: cs) = false := by
    simp [isPlainDecimal, sign, Text.splitPoint, Text.allDigits, digit]
  have single : startsLikeNumber ('@' :: cs) = false := by
    simp [startsLikeNumber, sign, digit]
  rw [readNumber?, String.toList_ofList, integer, readDecimal?, decimal, readFinite?, single]
  rfl

theorem Operator.find?_of_mark (cs : List Char) : find? (String.ofList ('@' :: cs)) = none := by
  have other : (implemented.all fun op => op.keyword.toList.head? != some '@') = true := by decide +kernel
  refine List.find?_eq_none.2 fun op known same => ?_
  have own := List.all_eq_true.1 other op known
  have lower : (Text.lower (String.ofList ('@' :: cs))).toList.head? = some '@' := by
    rw [Text.lower, String.toList_ofList, String.toList_ofList, Text.lowerAfter, if_neg (by decide)]
    rfl
  rw [of_decide_eq_true same, lower] at own
  cases own

theorem Token.junction?_of_mark (cs : List Char) : (Token.word (String.ofList ('@' :: cs))).junction? = none := by
  have other (t : String) (first : (t.toList.map Char.toLower).head? ≠ some '@') :
      Text.sameLetters (String.ofList ('@' :: cs)) t = false := by
    rw [Text.sameLetters, String.toList_ofList, beq_eq_false_iff_ne]
    intro same
    rw [← same] at first
    exact first rfl
  have all := other "and" (by decide)
  have any := other "or" (by decide)
  have kind : (Token.word (String.ofList ('@' :: cs))).kind = .word := rfl
  have text : (Token.word (String.ofList ('@' :: cs))).text = String.ofList ('@' :: cs) := rfl
  rw [junction?, if_neg (fun other => other kind), text, all, any]
  rfl

theorem Token.isWord_of_mark {cs : List Char} (word : ∀ c ∈ cs, Options.filter.continuesWord c = true) :
    IsWord ('@' :: cs) := by
  refine ⟨'@', cs, rfl, ?_⟩
  have whole : cs.takeWhile Options.filter.continuesWord = cs := by
    have rest : (cs ++ []).takeWhile Options.filter.continuesWord = cs ++ [] :=
      List.takeWhile_append_of_pos word
    simpa using rest
  have extent : Options.filter.wordExtent cs = cs.length := by rw [Options.wordExtent, whole]
  rw [← extent]
  rfl

theorem Parameter.render_numbered (p : Parameter) {stem : String} {n : Nat} (h : p.name = numbered stem n) :
    p.render .filter = String.ofList ('@' :: (stem.toList ++ Text.digitsOf n)) := by
  apply String.toList_inj.1
  simp [render, h, numbered, Text.digitsOf, Nat.repr]

theorem Parameter.isWord_numbered {stem : String}
    (word : ∀ c ∈ stem.toList, Token.Options.filter.continuesWord c = true) (n : Nat) :
    Token.IsWord ('@' :: (stem.toList ++ Text.digitsOf n)) := by
  refine Token.isWord_of_mark (List.forall_mem_append.2 ⟨word, fun c member => ?_⟩)
  have digit : Text.isDigit c = true := Nat.isDigit_of_mem_toDigits (by decide) (by decide) member
  simp [Token.Options.continuesWord, digit, Token.Options.filter]

/-- The text is one word, nothing else of the filter language, and names a field with this column. -/
structure Vocabulary.Names (v : Vocabulary) (word : String) (c : Column) : Prop where
  scanned : ∃ p, (Token.scan .filter word).complete = .ok [Token.word word, ⟨.finish, "", p⟩]
  keyword : Operator.find? word = none
  junction : (Token.word word).junction? = none
  number : Value.readNumber? word = none
  field : ∃ f, v.field? word = some f ∧ f.column = c

def Vocabulary.ReadsColumn (v : Vocabulary) (c : Column) : Prop := v.Names c.dotted c

/-- The text of the parameter stands for no field, and for its value. -/
structure Vocabulary.ReadsParameter (v : Vocabulary) (p : Parameter) : Prop where
  field : v.field? (p.render .filter) = none
  constant : v.constant? (p.render .filter) = some p.value

def Atom.lexeme (a : Atom) : Lexeme := ⟨⟨if a.isComma then .symbol else .word, a.render .filter, .start⟩, a⟩

/-- A token that a vocabulary reads as its atom, under the name that the atom has as a parameter. -/
structure Lexeme.Leaf (v : Vocabulary) (x : Lexeme) : Prop where
  event : Event.ofToken x.token = .leaf x.token
  spells : Token.Spells x.token.text [x.token]
  bare : x.token.text.toList.filter Token.isParenthesis = []
  reads : ∀ name, (∀ p, x.atom = .parameter p → p.name = name) → Atom.ofToken v name x.token = x.atom

namespace Atom

variable {v : Vocabulary}

theorem leaf_comma : Lexeme.Leaf v Atom.comma.lexeme where
  event := rfl
  spells := Token.Spells.symbol (c := ',') (by decide)
  bare := by decide
  reads _ _ := rfl

theorem leaf_word {a : Atom} (plain : a.isComma = false) (word : Token.IsWord (a.render .filter).toList)
    (junction : (Token.word (a.render .filter)).junction? = none)
    (reads : ∀ name, (∀ p, a = .parameter p → p.name = name) →
      ofToken v name (Token.word (a.render .filter)) = a) : a.lexeme.Leaf v := by
  have token : a.lexeme.token = Token.word (a.render .filter) := by simp [lexeme, plain, Token.word]
  have text : a.lexeme.token.text = a.render .filter := rfl
  refine ⟨?_, ?_, ?_, ?_⟩
  · rw [token, Event.ofToken, junction]
    rfl
  · rw [token]
    exact Token.Spells.word word
  · rw [text, List.filter_eq_nil_iff]
    intro c member parenthesis
    have listed : c ∈ Token.Options.filter.symbols := by
      simp only [Token.isParenthesis, Bool.or_eq_true, decide_eq_true_eq] at parenthesis
      rcases parenthesis with rfl | rfl <;> decide
    exact word.not_mem listed member
  · rw [token]
    exact reads

theorem leaf_operator {op : Operator} (known : op ∈ Operator.implemented) (spoken : op.isSpoken = true) :
    (Atom.operator op).lexeme.Leaf v := by
  obtain ⟨found, junction, word⟩ := Operator.reads_keyword known spoken
  refine leaf_word rfl word junction fun name _ => ?_
  have operator : (Token.word op.keyword).operator? = some op := found
  have own : (Atom.operator op).render .filter = op.keyword := rfl
  rw [own, ofToken, operator]

theorem namesFunction_operator {op : Operator} (known : op ∈ Operator.implemented)
    (spoken : op.isSpoken = true) : (Atom.operator op).lexeme.namesFunction = op.isFunction := by
  have named : (Atom.operator op).lexeme.namesFunction =
      (Operator.find? op.keyword).any Operator.isFunction := rfl
  rw [named, (Operator.reads_keyword known spoken).1]
  rfl

theorem ofToken_of_names {word : String} {c : Column} (h : v.Names word c) (name : String) :
    ofToken v name (Token.word word) = .column c := by
  obtain ⟨f, field, rfl⟩ := h.field
  have operator : (Token.word word).operator? = none := h.keyword
  have literal : (Token.word word).literal? = none := h.number
  have text : (Token.word word).text = word := rfl
  rw [ofToken, operator, literal, text, field]
  rfl

theorem leaf_column {c : Column} (h : v.ReadsColumn c) : (Atom.column c).lexeme.Leaf v := by
  obtain ⟨p, scanned⟩ := h.scanned
  have word := Token.isWord_of_said? (Token.said?_of_complete scanned)
  exact leaf_word rfl word h.junction fun name _ => ofToken_of_names h name

theorem leaf_parameter {p : Parameter} {n : Nat} (numbered : p.name = Parameter.numbered Settings.default.stem n)
    (h : v.ReadsParameter p) : (Atom.parameter p).lexeme.Leaf v := by
  have own : (Atom.parameter p).render .filter = p.render .filter := rfl
  have spelled := p.render_numbered numbered
  refine leaf_word rfl ?_ ?_ fun name named => ?_
  · rw [own, spelled, String.toList_ofList]
    exact Parameter.isWord_numbered (List.all_eq_true.1 (by decide)) n
  · rw [own, spelled]
    exact Token.junction?_of_mark _
  · have operator : (Token.word (p.render .filter)).operator? = none := by
      rw [spelled]
      exact Operator.find?_of_mark _
    have literal : (Token.word (p.render .filter)).literal? = none := by
      rw [spelled]
      exact Value.readNumber?_of_mark _
    have text : (Token.word (p.render .filter)).text = p.render .filter := rfl
    rw [own, ofToken, operator, literal, text, h.field, h.constant, ← named p rfl]
    rfl

end Atom

end WhereClause
