import WhereClause.Proofs.Reading.Outline

namespace WhereClause

namespace Atom

def parameter? : Atom → Option Parameter
  | .parameter p => some p
  | _ => none

theorem isParameter_eq (a : Atom) : a.isParameter = a.parameter?.isSome := by cases a <;> rfl

def isSimple : Atom → Bool
  | .comma | .expr _ => false
  | _ => true

theorem reading_of_isSimple {a : Atom} (h : a.isSimple = true) : a.reading = [a] := by
  cases a <;> first | rfl | cases h

theorem ofToken_of_isComma {t : Token} (v : Vocabulary) (name : String) (h : t.isComma = true) :
    ofToken v name t = .comma := by
  have symbol : t.kind = .symbol := by simp_all [Token.isComma, Token.isSymbol]
  simp [ofToken, Token.operator?, symbol, h]

theorem isSimple_ofToken {t : Token} (v : Vocabulary) (name : String) (h : t.isComma = false) :
    (ofToken v name t).isSimple = true := by
  unfold ofToken
  split
  · rfl
  · rw [h]
    simp only [Bool.false_eq_true, if_false]
    split
    · rfl
    · split
      · rfl
      · split <;> rfl

theorem eq_of_mem_reading_ofToken {v : Vocabulary} {name : String} {t : Token} {a : Atom}
    (h : a ∈ (ofToken v name t).reading) : a = ofToken v name t := by
  cases comma : t.isComma with
  | true =>
    rw [ofToken_of_isComma v name comma] at h
    cases h
  | false =>
    rw [reading_of_isSimple (isSimple_ofToken v name comma)] at h
    exact List.mem_singleton.1 h

end Atom

namespace Token

/-- A token that says something itself: no trivia, no parenthesis, no comma and no joining word. -/
def isContent (t : Token) : Bool :=
  !t.kind.isTrivia && !t.opens && !t.closes && !t.isComma && t.junction?.isNone

def content (ts : List Token) : List Token := ts.filter isContent

def meanings (v : Vocabulary) (stem : String) : Nat → List Token → List Atom
  | _, [] => []
  | n, t :: ts =>
    let a := Atom.ofToken v (Parameter.numbered stem n) t
    a :: meanings v stem (if a.isParameter then n + 1 else n) ts

def value? (v : Vocabulary) (t : Token) : Option Value :=
  (Atom.ofToken v "" t).parameter?.map (·.value)

theorem parameter?_ofToken (v : Vocabulary) (name : String) (t : Token) :
    (Atom.ofToken v name t).parameter? = (value? v t).map fun value => ⟨name, value⟩ := by
  unfold value? Atom.ofToken
  split
  · rfl
  · split
    · rfl
    · split
      · rfl
      · split
        · rfl
        · split <;> rfl

theorem content_cons_of_true {t : Token} (h : t.isContent = true) (ts : List Token) :
    content (t :: ts) = t :: content ts := by
  rw [content, List.filter_cons_of_pos h, content]

theorem content_cons_of_false {t : Token} (h : t.isContent = false) (ts : List Token) :
    content (t :: ts) = content ts := by
  rw [content, List.filter_cons_of_neg (by simp [h]), content]

theorem parameters_meanings (v : Vocabulary) (stem : String) (ts : List Token) (n : Nat) :
    (meanings v stem n ts).filterMap Atom.parameter? =
      (ts.filterMap (value? v)).mapIdx fun i x => ⟨Parameter.numbered stem (n + i), x⟩ := by
  induction ts generalizing n with
  | nil => rfl
  | cons t ts ih =>
    simp only [meanings]
    have first := parameter?_ofToken v (Parameter.numbered stem n) t
    cases value : value? v t with
    | none =>
      rw [value] at first
      have same : (Atom.ofToken v (Parameter.numbered stem n) t).isParameter = false := by
        rw [Atom.isParameter_eq, first]
        rfl
      rw [List.filterMap_cons_none first, List.filterMap_cons_none value, same]
      exact ih n
    | some x =>
      rw [value] at first
      have counts : (Atom.ofToken v (Parameter.numbered stem n) t).isParameter = true := by
        rw [Atom.isParameter_eq, first]
        rfl
      rw [List.filterMap_cons_some first, List.filterMap_cons_some value, counts, if_pos rfl, ih,
        List.mapIdx_cons]
      congr 2
      funext i x
      rw [show n + 1 + i = n + (i + 1) by omega]

end Token

theorem Event.ofToken_cases (t : Token) :
    ((t.opens = true ∨ t.closes = true ∨ t.junction?.isSome = true) ∧
        (ofToken t = .enter ∨ ofToken t = .leave ∨ ∃ j, ofToken t = .joint j t)) ∨
      (t.opens = false ∧ t.closes = false ∧ t.junction? = none ∧ ofToken t = .leaf t) := by
  unfold ofToken
  cases t.opens with
  | true => exact Or.inl ⟨Or.inl rfl, Or.inl rfl⟩
  | false =>
    cases t.closes with
    | true => exact Or.inl ⟨Or.inr (Or.inl rfl), Or.inr (Or.inl rfl)⟩
    | false =>
      cases t.junction? with
      | some j => exact Or.inl ⟨Or.inr (Or.inr rfl), Or.inr (Or.inr ⟨j, rfl⟩)⟩
      | none => exact Or.inr ⟨rfl, rfl, rfl, rfl⟩

theorem Event.reading_resolve (v : Vocabulary) (stem : String) (ts : List Token) (n : Nat) :
    ((leaves (resolve v stem n ((Token.significant ts).map ofToken))).flatMap fun x => x.atom.reading) =
      Token.meanings v stem n (Token.content ts) := by
  induction ts generalizing n with
  | nil => rfl
  | cons t ts ih =>
    by_cases trivia : t.kind.isTrivia = true
    · have none : t.isContent = false := by simp [Token.isContent, trivia]
      rw [Token.content_cons_of_false none, ← ih n, Token.significant,
        List.filter_cons_of_neg (by simp [trivia]), Token.significant]
    have kept : Token.significant (t :: ts) = t :: Token.significant ts := by
      rw [Token.significant, List.filter_cons_of_pos (by simp [trivia]), Token.significant]
    rw [kept, List.map_cons]
    rcases ofToken_cases t with ⟨structural, event⟩ | ⟨opens, closes, junction, event⟩
    · have none : t.isContent = false := by
        rcases structural with opens | closes | junction
        · simp [Token.isContent, opens]
        · simp [Token.isContent, closes]
        · obtain ⟨j, named⟩ := Option.isSome_iff_exists.1 junction
          simp [Token.isContent, named]
      rw [Token.content_cons_of_false none, ← ih n]
      rcases event with event | event | ⟨j, event⟩
      · rw [event]
        rfl
      · rw [event]
        rfl
      · rw [event]
        rfl
    rw [event]
    cases comma : t.isComma with
    | true =>
      have none : t.isContent = false := by simp [Token.isContent, comma]
      have atom : (Lexeme.read v stem n t).atom = .comma := Atom.ofToken_of_isComma v _ comma
      have next : (Lexeme.read v stem n t).next n = n := by simp [Lexeme.next, atom, Atom.isParameter]
      rw [Token.content_cons_of_false none, ← ih n]
      simp only [resolve, next]
      simp [leaves, atom, Atom.reading]
    | false =>
      have content : t.isContent = true := by
        simp [Token.isContent, trivia, opens, closes, comma, junction]
      have atom : (Lexeme.read v stem n t).atom = Atom.ofToken v (Parameter.numbered stem n) t := rfl
      have own := Atom.reading_of_isSimple
        (Atom.isSimple_ofToken v (Parameter.numbered stem n) comma)
      rw [Token.content_cons_of_true content]
      simp only [Token.meanings]
      rw [← ih]
      simp only [resolve, leaves, List.filterMap_cons, List.flatMap_cons]
      rw [atom, own]
      rfl

theorem parameters_eq_reading : Induction
    (fun e => e.parameters = e.reading.filterMap Atom.parameter?)
    (fun e => Expr.operandParameters e = (Expr.operandReading e).filterMap Atom.parameter?)
    (fun a => a.parameters = a.reading.filterMap Atom.parameter?)
    (fun as => Atom.allParameters as = (Atom.readingOf as).filterMap Atom.parameter?)
    (fun c => c.parameters = c.reading.filterMap Atom.parameter?)
    (fun cs => Condition.allParameters cs = (Condition.readingOf cs).filterMap Atom.parameter?) where
  apply op left right third first second last := by
    have none (as : List Atom) : (.operator op :: as : List Atom).filterMap Atom.parameter? =
        as.filterMap Atom.parameter? := List.filterMap_cons_none rfl
    rw [Expr.parameters, first, second, last, Expr.reading]
    split
    · rw [none, List.filterMap_append, List.filterMap_append]
    · rw [List.filterMap_append, none, List.filterMap_append, List.append_assoc]
  group e h := h
  run as h := h
  nested c h := h
  absent := rfl
  present e h := h
  operator op := rfl
  parameter p := rfl
  column c := rfl
  comma := rfl
  unknown t := rfl
  inner e h := h
  noAtoms := rfl
  moreAtoms a as first rest := by
    rw [Atom.allParameters, first, rest, Atom.readingOf, List.filterMap_append]
  empty := rfl
  test e h := h
  all cs h := h
  any cs h := h
  noParts := rfl
  moreParts c cs first rest := by
    rw [Condition.allParameters, first, rest, Condition.readingOf, List.filterMap_append]

theorem Parameter.numbered_inj {stem : String} {m n : Nat} (h : numbered stem m = numbered stem n) :
    m = n := by
  have same := congrArg String.toList h
  simp only [numbered, String.toList_append, List.append_cancel_left_eq, Nat.repr,
    String.toList_ofList] at same
  exact Text.digitsOf_inj same

theorem Parameter.nodup_numbered (stem : String) (values : List Value) :
    ((values.mapIdx fun i x => (⟨numbered stem i, x⟩ : Parameter)).map (·.name)).Nodup := by
  refine List.pairwise_iff_getElem.2 ?_
  intro i j first second before same
  rw [List.getElem_map, List.getElem_map, List.getElem_mapIdx, List.getElem_mapIdx] at same
  have equal := numbered_inj same
  omega

theorem Condition.exists_meanings {s : Settings} {v : Vocabulary} {filter : String} {c : Condition}
    (h : (compile s v filter).result = .ok c) :
    ∃ tokens, (Token.scan s.tokens filter).complete = .ok tokens ∧
      c.reading = Token.meanings v s.stem 0 (Token.content tokens) := by
  obtain ⟨outline, found, compiled⟩ := compile_eq_ok.1 h
  obtain ⟨tokens, scanned, -, built⟩ := Node.ofFilter_eq_ok found
  refine ⟨tokens, scanned, ?_⟩
  rw [Node.reading_of_compile compiled, Node.leaves_ofEvents? built, Event.reading_resolve]

theorem Condition.known_of_compile {s : Settings} {v : Vocabulary} {filter : String} {c : Condition}
    (h : (compile s v filter).result = .ok c) : ∀ a ∈ c.reading, a.unknown? = none := by
  intro a member
  obtain ⟨outline, found, compiled⟩ := compile_eq_ok.1 h
  obtain ⟨tokens, -, -, built⟩ := Node.ofFilter_eq_ok found
  rw [Node.reading_of_compile compiled] at member
  obtain ⟨x, leaf, inside⟩ := List.mem_flatMap.1 member
  obtain ⟨t, n, rfl⟩ := Event.mem_leaves_resolve (Node.leaves_ofEvents? built ▸ leaf)
  rw [Atom.eq_of_mem_reading_ofToken inside]
  exact Node.known_of_compile compiled _ leaf

theorem Condition.parameters_of_meanings {c : Condition} {v : Vocabulary} {stem : String} {ts : List Token}
    (h : c.reading = Token.meanings v stem 0 ts) :
    c.parameters = (ts.filterMap (Token.value? v)).mapIdx fun i x => ⟨Parameter.numbered stem i, x⟩ := by
  rw [parameters_eq_reading.ofCondition c, h, Token.parameters_meanings]
  simp only [Nat.zero_add]

/-- Read from left to right, the condition gives the meaning of every token of the filter but of
    parentheses, commas and joining words, each once and in the order of the text, and every one of them
    means something. Its parameters are the values of the text, numbered from zero. -/
theorem Condition.reading_compile {s : Settings} {v : Vocabulary} {filter : String} {c : Condition}
    (h : (compile s v filter).result = .ok c) :
    ∃ tokens, (Token.scan s.tokens filter).complete = .ok tokens ∧
      c.reading = Token.meanings v s.stem 0 (Token.content tokens) ∧
      (∀ a ∈ c.reading, a.unknown? = none) ∧
      c.parameters = ((Token.content tokens).filterMap (Token.value? v)).mapIdx
        (fun i x => ⟨Parameter.numbered s.stem i, x⟩) ∧
      (c.parameters.map (·.name)).Nodup := by
  obtain ⟨tokens, scanned, whole⟩ := exists_meanings h
  have numbered := parameters_of_meanings whole
  refine ⟨tokens, scanned, whole, known_of_compile h, numbered, ?_⟩
  rw [numbered]
  exact Parameter.nodup_numbered s.stem _

theorem Condition.reading_compile_call :
    ∃ c, (compile .default (.ofLists [("name", ⟨⟨none, "name"⟩, .string⟩)] [("limit", .int 3)])
        "indexof(name, 'x') gt 1 and (length(name) lt limit)").result = .ok c ∧
      ∃ tokens, (Token.scan .filter
          "indexof(name, 'x') gt 1 and (length(name) lt limit)").complete = .ok tokens ∧
        c.reading = Token.meanings
          (.ofLists [("name", ⟨⟨none, "name"⟩, .string⟩)] [("limit", .int 3)]) "Filter" 0
          (Token.content tokens) ∧
        (∀ a ∈ c.reading, a.unknown? = none) ∧
        c.parameters = ((Token.content tokens).filterMap (Token.value?
          (.ofLists [("name", ⟨⟨none, "name"⟩, .string⟩)] [("limit", .int 3)]))).mapIdx
          (fun i x => ⟨Parameter.numbered "Filter" i, x⟩) ∧
        (c.parameters.map (·.name)).Nodup := by
  obtain ⟨c, compiled, -⟩ := exists_of_any (show (compile .default
    (.ofLists [("name", ⟨⟨none, "name"⟩, .string⟩)] [("limit", .int 3)])
    "indexof(name, 'x') gt 1 and (length(name) lt limit)").result.toOption.any (fun _ => true) = true by
      decide +kernel)
  exact ⟨c, compiled, reading_compile compiled⟩

end WhereClause
