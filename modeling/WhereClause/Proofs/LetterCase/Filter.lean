import WhereClause.Proofs.LetterCase.Text
import WhereClause.Proofs.Outline.Overlook

namespace WhereClause

theorem Operator.find?_folded (word : String) : find? (Text.folded word) = find? word := by
  rw [find?, Text.lower_folded, find?]

namespace Token

/-- Tokens of one kind and text, the texts of words up to the case of the letters of ASCII. -/
structure SameLetters (t u : Token) : Prop where
  kind : t.kind = u.kind
  text : if t.kind = .word then Text.sameLetters t.text u.text = true else t.text = u.text

instance (t u : Token) : Decidable (SameLetters t u) :=
  decidable_of_iff (t.kind = u.kind ∧
    if t.kind = .word then Text.sameLetters t.text u.text = true else t.text = u.text)
    ⟨fun h => ⟨h.1, h.2⟩, fun h => ⟨h.kind, h.text⟩⟩

def folded (t : Token) : Token := ⟨t.kind, if t.kind = .word then Text.folded t.text else t.text, .start⟩

theorem SameLetters.folded {t u : Token} (h : SameLetters t u) : t.folded = u.folded := by
  obtain ⟨kind, text⟩ := h
  rw [Token.folded, Token.folded, ← kind]
  split
  · next word => rw [Text.folded_eq_iff.2 (by simpa [word] using text)]
  · next other => rw [if_neg other] at text; rw [text]

theorem folded_text {β : Type} {f : String → β} (t : Token) (unseen : ∀ word, f (Text.folded word) = f word) :
    f t.folded.text = f t.text := by
  rw [folded]
  split
  · exact unseen t.text
  · rfl

theorem isSymbol_folded (t : Token) (symbol : String) : t.folded.isSymbol symbol = t.isSymbol symbol := by
  by_cases kind : t.kind = .symbol
  · simp [isSymbol, folded, kind]
  · simp [isSymbol, folded, kind]

theorem junction?_folded (t : Token) : t.folded.junction? = t.junction? := by
  by_cases kind : t.kind = .word
  · simp [junction?, folded, kind, Text.sameLetters_folded]
  · simp [junction?, folded, kind]

theorem namesFunction_folded (t : Token) : t.folded.namesFunction = t.namesFunction := by
  by_cases kind : t.kind = .word
  · simp [namesFunction, folded, kind, Operator.namesFunction, Operator.find?_folded]
  · simp [namesFunction, folded, kind]

theorem operator?_folded (t : Token) : t.folded.operator? = t.operator? := by
  by_cases kind : t.kind = .word
  · simp [operator?, folded, kind, Operator.find?_folded]
  · simp [operator?, folded, kind]

theorem literal?_folded (t : Token) : t.folded.literal? = t.literal? := by
  by_cases kind : t.kind = .word
  · -- A word may be a number with an exponent, and the exponent be marked by a letter of either case.
    simp [literal?, folded, kind, Value.readNumber?_folded]
  · simp [literal?, folded, kind]

end Token

namespace Catalog

variable (c : Catalog)

theorem field?_folded (name : String) : c.field? (Text.folded name) = c.field? name := by
  rw [field?, Text.lower_folded, field?]

theorem constant?_folded (name : String) : c.constant? (Text.folded name) = c.constant? name := by
  rw [constant?, Text.lower_folded, constant?]

theorem overlooks_folded : c.vocabulary.Overlooks Token.folded where
  kind _ := rfl
  opens t := t.isSymbol_folded "("
  closes t := t.isSymbol_folded ")"
  junction? := Token.junction?_folded
  namesFunction := Token.namesFunction_folded
  meaning name t := by
    have constant : (c.constant? t.folded.text).or (Value.readKeyword? t.folded.text) =
        (c.constant? t.text).or (Value.readKeyword? t.text) := by
      rw [t.folded_text c.constant?_folded, t.folded_text Value.readKeyword?_folded]
    exact Atom.ofToken_change t.operator?_folded (t.isSymbol_folded ",") t.literal?_folded
      (t.folded_text c.field?_folded) constant (fun _ => rfl) rfl

end Catalog

theorem Token.map_folded_eq {ts us : List Token} (h : List.Forall₂ SameLetters ts us) :
    ts.map folded = us.map folded := by
  have images : List.Forall₂ (· = ·) (ts.map folded) (us.map folded) := by
    rw [List.forall₂_map_left_iff, List.forall₂_map_right_iff]
    exact h.imp fun _ _ => SameLetters.folded
  rwa [List.forall₂_eq_eq_eq] at images

namespace Condition

theorem compile_of_unterminated {s : Settings} {v : Vocabulary} {filter : String} {p : Position}
    (h : (Token.scan s.tokens filter).unterminated = some p) :
    compile s v filter = .fail (.lexical .unterminatedString p) := by
  rw [compile_eq_ofTokens, Token.Scan.complete, Token.Scan.fault?, h]
  exact Outcome.fail_andThen _ _

theorem compile_folded (c : Catalog) (s : Settings) {filter : String}
    (h : (Token.scan s.tokens filter).unterminated = none) :
    Outcome.Mirrors (change (.onTokens Token.folded)) (compile s c.vocabulary filter)
      (ofTokens c.vocabulary s.stem
        ((Token.significant (Token.scan s.tokens filter).tokens).map Token.folded)) := by
  rw [compile_of_complete (Token.Scan.complete_of_unterminated h)]
  exact ofTokens_map c.overlooks_folded (Node.unseen_kind _ _) s.stem _

/-- Texts, under any rules for tokens, whose significant tokens are the same up to the case of the letters of
    words compile to the same condition with the same warnings, or are refused for reasons of one kind. -/
theorem compile_sameLetters (c : Catalog) (stem : String) {o p : Token.Options} {text other : String}
    (complete : (Token.scan o text).unterminated.isSome = (Token.scan p other).unterminated.isSome)
    (same : List.Forall₂ Token.SameLetters (Token.significant (Token.scan o text).tokens)
      (Token.significant (Token.scan p other).tokens)) :
    (compile ⟨o, stem⟩ c.vocabulary text).warnings = (compile ⟨p, stem⟩ c.vocabulary other).warnings ∧
      ((∃ d, (compile ⟨o, stem⟩ c.vocabulary text).result = .ok d ∧
          (compile ⟨p, stem⟩ c.vocabulary other).result = .ok d) ∨
        ∃ f g, (compile ⟨o, stem⟩ c.vocabulary text).result = .error f ∧
          (compile ⟨p, stem⟩ c.vocabulary other).result = .error g ∧ f.kind = g.kind) := by
  cases first : (Token.scan o text).unterminated with
  | some place =>
    rw [first] at complete
    obtain ⟨otherPlace, second⟩ := Option.isSome_iff_exists.1 complete.symm
    rw [compile_of_unterminated first, compile_of_unterminated second]
    exact ⟨rfl, Or.inr ⟨_, _, rfl, rfl, rfl⟩⟩
  | none =>
    have second : (Token.scan p other).unterminated = none := by simpa [first] using complete
    have one := compile_folded c ⟨o, stem⟩ first
    have two := compile_folded c ⟨p, stem⟩ second
    rw [← Token.map_folded_eq same] at two
    refine one.agree two fun a b compiled alsoCompiled image => ?_
    rwa [onTokens_of_compile compiled, onTokens_of_compile alsoCompiled] at image

theorem compile_sameLetters_spaced :
    let c := Catalog.ofLists [("Name", ⟨⟨none, "name"⟩, .string⟩)] [("Limit", .int 3)]
    let plain : Token.Options := { Token.Options.filter with skipBlanks := false }
    let text := "Length(NAME) GT 1E5\n  And name EQ limit"
    let other := "length(name)gt 1e5 and NAME eq LIMIT"
    (Token.scan plain text).unterminated.isSome = (Token.scan .filter other).unterminated.isSome ∧
      List.Forall₂ Token.SameLetters (Token.significant (Token.scan plain text).tokens)
        (Token.significant (Token.scan .filter other).tokens) ∧
      (compile ⟨plain, "Filter"⟩ c.vocabulary text).warnings =
        (compile ⟨.filter, "Filter"⟩ c.vocabulary other).warnings ∧
      ((∃ d, (compile ⟨plain, "Filter"⟩ c.vocabulary text).result = .ok d ∧
          (compile ⟨.filter, "Filter"⟩ c.vocabulary other).result = .ok d) ∨
        ∃ f g, (compile ⟨plain, "Filter"⟩ c.vocabulary text).result = .error f ∧
          (compile ⟨.filter, "Filter"⟩ c.vocabulary other).result = .error g ∧ f.kind = g.kind) := by
  intro c plain text other
  have complete : (Token.scan plain text).unterminated.isSome =
      (Token.scan .filter other).unterminated.isSome := by decide +kernel
  have same : List.Forall₂ Token.SameLetters (Token.significant (Token.scan plain text).tokens)
      (Token.significant (Token.scan .filter other).tokens) := by decide +kernel
  exact ⟨complete, same, compile_sameLetters c "Filter" complete same⟩

end Condition

end WhereClause
