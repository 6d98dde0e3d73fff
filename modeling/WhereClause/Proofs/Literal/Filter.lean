import Mathlib.Data.List.Forall2
import WhereClause.Proofs.Literal.Token
import WhereClause.Proofs.Outline.Mirror

namespace WhereClause

namespace Token

structure Alike (t u : Token) : Prop where
  kind : t.kind = u.kind
  text : t.text = u.text ∨ (t.kind = .quoted ∨ t.kind = .number) ∧ t.IsLiteral ∧ u.IsLiteral

def masked (t : Token) : Token :=
  ⟨t.kind, if t.kind = .quoted ∨ t.kind = .number then "" else t.text, .start⟩

theorem Alike.masked {t u : Token} (h : Alike t u) : t.masked = u.masked := by
  obtain ⟨kind, text⟩ := h
  rcases text with text | ⟨literal, -, -⟩
  · rw [Token.masked, Token.masked, kind, text]
  · rw [Token.masked, Token.masked, if_pos literal, if_pos (kind ▸ literal), kind]

theorem isSymbol_masked (t : Token) (symbol : String) : t.masked.isSymbol symbol = t.isSymbol symbol := by
  by_cases kind : t.kind = .symbol
  · simp [isSymbol, masked, kind]
  · simp [isSymbol, masked, kind]

theorem junction?_masked (t : Token) : t.masked.junction? = t.junction? := by
  by_cases kind : t.kind = .word
  · simp [junction?, masked, kind]
  · simp [junction?, masked, kind]

theorem namesFunction_masked (t : Token) : t.masked.namesFunction = t.namesFunction := by
  by_cases kind : t.kind = .word
  · simp [namesFunction, masked, kind]
  · simp [namesFunction, masked, kind]

namespace Alike

variable {t u : Token}

theorem opens (h : Alike t u) : t.opens = u.opens := by
  rw [Token.opens, ← isSymbol_masked, h.masked, isSymbol_masked, Token.opens]

theorem closes (h : Alike t u) : t.closes = u.closes := by
  rw [Token.closes, ← isSymbol_masked, h.masked, isSymbol_masked, Token.closes]

theorem junction? (h : Alike t u) : t.junction? = u.junction? := by
  rw [← junction?_masked, h.masked, junction?_masked]

end Alike

theorem alike_of_masked {t u : Token} (first : t.IsLiteral) (second : u.IsLiteral)
    (same : t.masked = u.masked) : Alike t u := by
  have kind : t.masked.kind = u.masked.kind := by rw [same]
  refine ⟨kind, ?_⟩
  by_cases literal : t.kind = .quoted ∨ t.kind = .number
  · exact Or.inr ⟨literal, first, second⟩
  · have text := congrArg Token.text same
    rw [Token.masked, Token.masked, if_neg literal, if_neg (kind ▸ literal)] at text
    exact Or.inl text

theorem alike_of_scan {o p : Options} {text other : String}
    (same : (scan o text).tokens.map masked = (scan p other).tokens.map masked) :
    List.Forall₂ Alike (scan o text).tokens (scan p other).tokens := by
  have first : ∀ t ∈ (scan o text).tokens, t.IsLiteral := fun _ => isLiteral_of_scan
  have second : ∀ u ∈ (scan p other).tokens, u.IsLiteral := fun _ => isLiteral_of_scan
  generalize (scan o text).tokens = ts at first same
  generalize (scan p other).tokens = us at second same
  induction ts generalizing us with
  | nil =>
    obtain rfl := List.map_eq_nil_iff.1 same.symm
    exact .nil
  | cons t ts ih =>
    obtain ⟨u, us, rfl, image, rest⟩ := List.map_eq_cons_iff.1 same.symm
    obtain ⟨here, later⟩ := List.forall_mem_cons.1 first
    obtain ⟨also, further⟩ := List.forall_mem_cons.1 second
    exact .cons (alike_of_masked here also image.symm) (ih later us further rest.symm)

theorem significant_alike {ts us : List Token} (h : List.Forall₂ Alike ts us) :
    List.Forall₂ Alike (significant ts) (significant us) := by
  refine List.rel_filter ?_ h
  intro t u alike
  simp only [alike.kind]

end Token

theorem Balance.checkFrom_alike {ts us : List Token} (h : List.Forall₂ Token.Alike ts us)
    {opened others : List Token} (same : opened.length = others.length) :
    Mirrors id (checkFrom opened ts) (checkFrom others us) := by
  induction h generalizing opened others with
  | nil =>
    cases opened with
    | nil =>
      obtain rfl := List.length_eq_zero_iff.1 same.symm
      exact .ok ()
    | cons t opened =>
      obtain ⟨u, others, rfl⟩ := List.exists_cons_of_length_eq_add_one same.symm
      exact .error rfl
  | cons alike _ ih =>
    rw [checkFrom.eq_def, checkFrom.eq_def]
    simp only [← alike.opens, ← alike.closes, ← same]
    split
    · split
      · exact .error rfl
      · exact ih (congrArg Nat.succ same)
    · split
      · cases opened with
        | nil =>
          obtain rfl := List.length_eq_zero_iff.1 same.symm
          exact .error rfl
        | cons t opened =>
          obtain ⟨u, others, rfl⟩ := List.exists_cons_of_length_eq_add_one same.symm
          exact ih (Nat.succ.inj same)
      · exact ih same

def Change.withoutValues : Change := ⟨fun p => ⟨p.name, .null⟩, fun t => ⟨t.kind, t.text, .start⟩⟩

namespace Atom

theorem isParameter_change (χ : Change) (a : Atom) : (a.change χ).isParameter = a.isParameter := by
  cases a <;> rfl

-- Every literal is read as some value, so only the value of the parameter depends on its text.
theorem ofToken_of_isLiteral (v : Vocabulary) (name : String) {t : Token} (h : t.IsLiteral)
    (kind : t.kind = .quoted ∨ t.kind = .number) : ∃ x, ofToken v name t = .parameter ⟨name, x⟩ := by
  obtain ⟨x, read⟩ := Option.isSome_iff_exists.1 (Token.literal?_of_isLiteral h kind)
  have operator : t.operator? = none := by rcases kind with kind | kind <;> simp [Token.operator?, kind]
  have comma : t.isComma = false := by
    rcases kind with kind | kind <;> simp [Token.isComma, Token.isSymbol, kind]
  exact ⟨x, by simp [ofToken, operator, comma, read]⟩

theorem ofToken_change {χ : Change} {v : Vocabulary} {name other : String} {t u : Token}
    (operator : u.operator? = t.operator?) (comma : u.isComma = t.isComma) (literal : u.literal? = t.literal?)
    (field : v.field? u.text = v.field? t.text)
    (constant : (v.constant? u.text).or (Value.readKeyword? u.text) =
      (v.constant? t.text).or (Value.readKeyword? t.text))
    (parameter : ∀ x, χ.parameter ⟨name, x⟩ = ⟨other, x⟩) (token : χ.token t = u) :
    ofToken v other u = (ofToken v name t).change χ := by
  have value (x : Value) : Atom.parameter ⟨other, x⟩ = (Atom.parameter ⟨name, x⟩).change χ :=
    congrArg Atom.parameter (parameter x).symm
  rw [ofToken, ofToken, operator, comma, literal, field, constant]
  cases t.operator? with
  | some op => rfl
  | none =>
    cases t.isComma with
    | true => rfl
    | false =>
      cases t.literal? with
      | some x => exact value x
      | none =>
        cases v.field? t.text with
        | some f => rfl
        | none =>
          cases (v.constant? t.text).or (Value.readKeyword? t.text) with
          | some x => exact value x
          | none => exact congrArg Atom.unknown token.symm

theorem ofToken_position (v : Vocabulary) (name : String) (kind : Token.Kind) (text : String)
    (p q : Position) : (ofToken v name ⟨kind, text, p⟩).change .withoutValues =
      (ofToken v name ⟨kind, text, q⟩).change .withoutValues := by
  have operator : Token.operator? ⟨kind, text, p⟩ = Token.operator? ⟨kind, text, q⟩ := rfl
  have comma : Token.isComma ⟨kind, text, p⟩ = Token.isComma ⟨kind, text, q⟩ := rfl
  have literal : Token.literal? ⟨kind, text, p⟩ = Token.literal? ⟨kind, text, q⟩ := rfl
  simp only [ofToken, operator, comma, literal]
  split
  · rfl
  · split
    · rfl
    · split
      · rfl
      · split
        · rfl
        · split <;> rfl

theorem ofToken_alike (v : Vocabulary) (name : String) {t u : Token} (h : t.Alike u) :
    (ofToken v name t).change .withoutValues = (ofToken v name u).change .withoutValues := by
  obtain ⟨kind, text | ⟨literal, first, second⟩⟩ := h
  · obtain ⟨_, _, p⟩ := t
    obtain ⟨_, _, q⟩ := u
    cases kind
    cases text
    exact ofToken_position v name _ _ p q
  · obtain ⟨x, left⟩ := ofToken_of_isLiteral v name first literal
    obtain ⟨y, right⟩ := ofToken_of_isLiteral v name second (kind ▸ literal)
    rw [left, right]
    rfl

end Atom

theorem Lexeme.read_alike (v : Vocabulary) (stem : String) (n : Nat) {t u : Token} (h : t.Alike u) :
    (read v stem n t).change .withoutValues Token.masked =
      (read v stem n u).change .withoutValues Token.masked := by
  rw [change, change, read, read, h.masked, Atom.ofToken_alike v _ h]

theorem Lexeme.next_alike (v : Vocabulary) (stem : String) (n : Nat) {t u : Token} (h : t.Alike u) :
    (read v stem n t).next n = (read v stem n u).next n := by
  have same := congrArg Atom.isParameter (Atom.ofToken_alike v (Parameter.numbered stem n) h)
  rw [Atom.isParameter_change, Atom.isParameter_change] at same
  rw [next, next, read, read, same]

theorem Event.ofToken_alike {t u : Token} (h : t.Alike u) :
    (ofToken t = .enter ∧ ofToken u = .enter) ∨ (ofToken t = .leave ∧ ofToken u = .leave) ∨
      (∃ j, ofToken t = .joint j t ∧ ofToken u = .joint j u) ∨
      (ofToken t = .leaf t ∧ ofToken u = .leaf u) := by
  unfold ofToken
  rw [← h.opens, ← h.closes, ← h.junction?]
  cases t.opens with
  | true => exact Or.inl ⟨rfl, rfl⟩
  | false =>
    cases t.closes with
    | true => exact Or.inr (Or.inl ⟨rfl, rfl⟩)
    | false =>
      cases t.junction? with
      | some j => exact Or.inr (Or.inr (Or.inl ⟨j, rfl, rfl⟩))
      | none => exact Or.inr (Or.inr (Or.inr ⟨rfl, rfl⟩))

theorem Event.resolve_alike (v : Vocabulary) (stem : String) {ts us : List Token}
    (h : List.Forall₂ Token.Alike ts us) (n : Nat) :
    (resolve v stem n (ts.map ofToken)).map
        (map (Lexeme.change .withoutValues Token.masked) Token.masked) =
      (resolve v stem n (us.map ofToken)).map
        (map (Lexeme.change .withoutValues Token.masked) Token.masked) := by
  induction h generalizing n with
  | nil => rfl
  | cons alike _ ih =>
    rw [List.map_cons, List.map_cons]
    rcases ofToken_alike alike with ⟨first, second⟩ | ⟨first, second⟩ | ⟨j, first, second⟩ |
      ⟨first, second⟩
    · rw [first, second]
      exact congrArg (Event.enter :: ·) (ih n)
    · rw [first, second]
      exact congrArg (Event.leave :: ·) (ih n)
    · rw [first, second]
      simp only [resolve, List.map_cons, map, alike.masked, ih n]
    · rw [first, second]
      simp only [resolve, List.map_cons, map, Lexeme.read_alike v stem n alike,
        Lexeme.next_alike v stem n alike, ih]

theorem Node.ofEvents?_alike (v : Vocabulary) (stem : String) {ts us : List Token}
    (h : List.Forall₂ Token.Alike ts us) :
    (ofEvents? Lexeme.namesFunction (Event.resolve v stem 0 (ts.map Event.ofToken))).map
        (change .withoutValues Token.masked) =
      (ofEvents? Lexeme.namesFunction (Event.resolve v stem 0 (us.map Event.ofToken))).map
        (change .withoutValues Token.masked) := by
  have names (x : Lexeme) : (x.change .withoutValues Token.masked).namesFunction = x.namesFunction :=
    Token.namesFunction_masked x.token
  have image (events : List (Event Lexeme)) := ofEvents?_map _ Token.masked names events
  have resolved := Event.resolve_alike v stem h 0
  unfold change
  rw [← image, ← image, resolved]

namespace Condition

def ofTokens (v : Vocabulary) (stem : String) (tokens : List Token) : Outcome Condition := do
  let events ← Event.ofTokens tokens
  let outline ← Node.ofEvents Lexeme.namesFunction (Event.resolve v stem 0 events)
  outline.compile

theorem compile_eq_ofTokens (s : Settings) (v : Vocabulary) (filter : String) :
    compile s v filter =
      (Outcome.ofExcept (Token.scan s.tokens filter).complete).andThen (ofTokens v s.stem) := by
  unfold compile Event.ofFilter
  cases (Token.scan s.tokens filter).complete with
  | error fault => rfl
  | ok tokens =>
    have read : Outcome.ofExcept (.ok tokens) = .ok tokens := rfl
    rw [read, Outcome.ok_andThen]
    simp only [ofTokens, bind, Except.bind]
    cases Event.ofTokens tokens with
    | error fault => rfl
    | ok events => rfl

theorem ofTokens_eq (v : Vocabulary) (stem : String) (tokens : List Token) :
    ofTokens v stem tokens =
      (Outcome.ofExcept (Balance.check (Token.significant tokens))).andThen fun _ =>
        (Outcome.ofExcept (Node.ofEvents Lexeme.namesFunction
          (Event.resolve v stem 0 ((Token.significant tokens).map Event.ofToken)))).andThen
            Node.compile := by
  unfold ofTokens Event.ofTokens
  cases Balance.check (Token.significant tokens) with
  | error fault => rfl
  | ok _ => rfl

theorem written_alike {c d : Condition} (h : c.change .withoutValues = d.change .withoutValues) :
    (∀ dialect, c.render dialect = d.render dialect) ∧
      c.parameters.map (·.name) = d.parameters.map (·.name) := by
  constructor
  · intro dialect
    have same := render_change .withoutValues dialect (fun _ => rfl) fun _ => rfl
    rw [← same.ofCondition c, h, same.ofCondition d]
  · have same (c : Condition) :
        c.parameters.map (·.name) = (c.change .withoutValues).parameters.map (·.name) := by
      rw [(parameters_change .withoutValues).ofCondition c, List.map_map]
      rfl
    rw [same c, same d, h]

/-- The texts of literals have no influence on what is written: two lists of tokens that are alike but
    for them both compile, to the same text in every dialect, the same names of parameters and the same
    warnings, or both have a fault of one kind. -/
theorem ofTokens_alike (v : Vocabulary) (stem : String) {ts us : List Token}
    (h : List.Forall₂ Token.Alike ts us) :
    (ofTokens v stem ts).warnings = (ofTokens v stem us).warnings ∧
      ((∃ c d, (ofTokens v stem ts).result = .ok c ∧ (ofTokens v stem us).result = .ok d ∧
          (∀ dialect, c.render dialect = d.render dialect) ∧
          c.parameters.map (·.name) = d.parameters.map (·.name)) ∨
        ∃ f g, (ofTokens v stem ts).result = .error f ∧ (ofTokens v stem us).result = .error g ∧
          f.kind = g.kind) := by
  have kept := Token.significant_alike h
  have balance : Mirrors id (Balance.check (Token.significant ts))
      (Balance.check (Token.significant us)) := Balance.checkFrom_alike kept rfl
  have outlines := Node.ofEvents?_alike v stem kept
  rw [ofTokens_eq, ofTokens_eq]
  generalize Balance.check (Token.significant ts) = first at balance
  generalize Balance.check (Token.significant us) = second at balance
  cases balance with
  | error same => exact ⟨rfl, Or.inr ⟨_, _, rfl, rfl, same⟩⟩
  | ok _ =>
    have balanced : Outcome.ofExcept (.ok ()) = .ok () := rfl
    rw [id, balanced, Outcome.ok_andThen, Outcome.ok_andThen, Node.ofEvents, Node.ofEvents]
    generalize Node.ofEvents? _ _ = left at outlines
    generalize Node.ofEvents? _ _ = right at outlines
    cases left with
    | none =>
      obtain rfl := Option.map_eq_none_iff.1 outlines.symm
      exact ⟨rfl, Or.inr ⟨_, _, rfl, rfl, rfl⟩⟩
    | some n =>
      -- The outlines are not the same, but with their literals masked they are.
      obtain ⟨m, rfl, same⟩ := Option.map_eq_some_iff.1 outlines.symm
      have one := Node.compile_change .withoutValues Token.masked n
      have other := Node.compile_change .withoutValues Token.masked m
      rw [same] at other
      have read (n : Node Lexeme) : Outcome.ofExcept (.ok n) = .ok n := rfl
      simp only [read, Outcome.ok_andThen]
      refine ⟨one.warnings.trans other.warnings.symm, ?_⟩
      rcases one.result.join other.result with ⟨c, d, compiled, alsoCompiled, written⟩ | faults
      · exact Or.inl ⟨c, d, compiled, alsoCompiled, written_alike written⟩
      · exact Or.inr faults

theorem ofTokens_alike_quoted :
    let v : Vocabulary := .ofLists [("name", ⟨⟨none, "name"⟩, .string⟩)] []
    let ts := (Token.scan .filter "indexof(name, 'x') gt 1 and name eq 'y'").tokens
    let us := (Token.scan .filter "indexof(name, ') or (') gt 2.50 and name eq 'it''s'").tokens
    List.Forall₂ Token.Alike ts us ∧
      (ofTokens v "Filter" ts).warnings = (ofTokens v "Filter" us).warnings ∧
      ((∃ c d, (ofTokens v "Filter" ts).result = .ok c ∧ (ofTokens v "Filter" us).result = .ok d ∧
          (∀ dialect, c.render dialect = d.render dialect) ∧
          c.parameters.map (·.name) = d.parameters.map (·.name)) ∨
        ∃ f g, (ofTokens v "Filter" ts).result = .error f ∧
          (ofTokens v "Filter" us).result = .error g ∧ f.kind = g.kind) := by
  intro v ts us
  have alike : List.Forall₂ Token.Alike ts us := Token.alike_of_scan (by decide +kernel)
  exact ⟨alike, ofTokens_alike v "Filter" alike⟩

end Condition

end WhereClause
