import WhereClause.Proofs.Fault.Outline
import WhereClause.Proofs.Outline.Overlook
import WhereClause.Proofs.Outline.Resolve
import WhereClause.Proofs.RoundTrip.Keyword

namespace WhereClause

namespace Operator

theorem keywords_long : (implemented.all fun op => op.keyword.toList.all Text.isPlain &&
    (op.keyword.toList.length ≠ 1 || op.keyword = "(" || op.keyword = ")")) = true := by
  decide +kernel

theorem find?_singleton {c : Char} (opens : c ≠ '(') (closes : c ≠ ')') : find? (String.singleton c) = none := by
  refine Option.eq_none_iff_forall_ne_some.2 fun op found => ?_
  unfold find? at found
  have keyword : op.keyword = Text.lower (String.singleton c) := by simpa using List.find?_some found
  have member := List.mem_of_find?_eq_some found
  obtain ⟨plain, long⟩ := Bool.and_eq_true_iff.1 (List.all_eq_true.1 keywords_long op member)
  have letters := Text.toLower_of_lower keyword.symm plain
  rw [String.toList_singleton, List.map_singleton] at letters
  simp only [← String.toList_inj, ← letters] at long
  have paren : c.toLower = '(' ∨ c.toLower = ')' := by simpa using long
  rcases paren with same | same
  · exact opens (Text.eq_of_toLower same (by decide))
  · exact closes (Text.eq_of_toLower same (by decide))

end Operator

namespace Token

/-- The token is a word or a symbol, and means nothing: it is not the keyword of an operator, the symbol of a comma or
    a number, and names no field, no constant and no value. -/
structure Unresolved (v : Vocabulary) (t : Token) : Prop where
  kind : t.kind = .word ∨ t.kind = .symbol
  keyword : Operator.find? t.text = none
  comma : t.isComma = false
  number : Value.readNumber? t.text = none
  field : v.field? t.text = none
  constant : v.constant? t.text = none
  value : Value.readKeyword? t.text = none

theorem singleton_of_scan {o : Options} {text : String} {t : Token} (h : t ∈ (scan o text).tokens)
    (symbol : t.kind = .symbol) : ∃ c, t.text = String.singleton c := by
  rcases cases_of_mem_scan h with ⟨finish, -⟩ | ⟨c, cs, n, found, whole⟩
  · rw [symbol] at finish
    cases finish
  · have first := Options.first_of_token? found
    rw [symbol] at first
    refine ⟨c, String.toList_inj.1 ?_⟩
    cases first with
    | symbol solid => rw [whole, String.toList_singleton, List.take_zero]
    | number _ _ counted => rcases Options.kind_of_numberExtent counted with other | other <;> cases other

theorem unresolved_of_ofToken {o : Options} {text name : String} {v : Vocabulary} {t u : Token}
    (cut : t ∈ (scan o text).tokens) (solid : t.kind.isTrivia = false) (opens : t.opens = false)
    (closes : t.closes = false) (h : Atom.ofToken v name t = .unknown u) : u = t ∧ t.Unresolved v := by
  unfold Atom.ofToken at h
  split at h
  · cases h
  next noOperator =>
  split at h
  · cases h
  next noComma =>
  split at h
  · cases h
  next noLiteral =>
  split at h
  · cases h
  next noField =>
  split at h
  · cases h
  next noValue =>
  cases h
  obtain ⟨noConstant, noKeyword⟩ := Option.or_eq_none_iff.1 noValue
  have kind : t.kind = .word ∨ t.kind = .symbol := by
    have literal := literal?_of_isLiteral (isLiteral_of_scan cut)
    rw [noLiteral] at literal
    cases same : t.kind <;> simp_all [Kind.isTrivia]
  have noNumber := (Option.or_eq_none_iff.1 noLiteral).2
  refine ⟨rfl, kind, ?_, by simpa using noComma, noNumber, noField, noConstant, noKeyword⟩
  -- Only words are looked up among the operators. A symbol is one character, and no parenthesis here.
  rcases kind with word | symbol
  · rwa [operator?, if_pos word] at noOperator
  · obtain ⟨c, single⟩ := singleton_of_scan cut symbol
    rw [single]
    refine Operator.find?_singleton ?_ ?_
    · rintro rfl
      simp [Token.opens, isSymbol, symbol, single] at opens
    · rintro rfl
      simp [Token.closes, isSymbol, symbol, single] at closes

end Token

theorem Balance.failsWith_checkFrom {listed lost : Token → Prop} {opened ts : List Token}
    (outer : ∀ t ∈ opened, listed t) (inner : ∀ t ∈ ts, listed t) :
    FailsWith (Fault.Cites listed lost) (checkFrom opened ts) := by
  induction ts generalizing opened with
  | nil =>
    cases opened with
    | nil => exact failsWith_ok ()
    | cons t opened => exact failsWith_error (Fault.cites_atToken _ (outer t List.mem_cons_self))
  | cons t ts ih =>
    obtain ⟨own, later⟩ := List.forall_mem_cons.1 inner
    rw [checkFrom.eq_def]
    dsimp only
    split
    · split
      · exact failsWith_error (Fault.cites_atToken _ own)
      · exact ih (List.forall_mem_cons.2 ⟨own, outer⟩) later
    · split
      · cases opened with
        | nil => exact failsWith_error (Fault.cites_atToken _ own)
        | cons _ opened => exact ih (List.forall_mem_cons.1 outer).2 later
      · exact ih outer later

theorem Nest.lists_node {o : Token.Options} {text : String} {v : Vocabulary} {stem : String} {n : Nest Token}
    {ts : List Token} (cut : ∀ t ∈ ts, t ∈ (Token.scan o text).tokens ∧ t.kind.isTrivia = false)
    (events : n.events = ts.map Event.ofToken) :
    Node.Lists (· ∈ ts) (fun t => t ∈ ts ∧ t.Unresolved v)
      [.run [] (Node.pruneAll [(n.resolve v stem 0).enclosed.node Lexeme.namesFunction])] := by
  have resolved : (n.resolve v stem 0).events = Event.resolve v stem 0 (ts.map Event.ofToken) := by
    rw [events_resolve, events]
  have words : Node.words Lexeme.token
      [.run [] (Node.pruneAll [(n.resolve v stem 0).enclosed.node Lexeme.namesFunction])] =
        ts.filter fun t => !t.opens && !t.closes := by
    rw [words_node, resolved, Event.words_resolve, Event.words_ofToken]
  refine ⟨fun t member => (List.mem_filter.1 (words ▸ member)).1, fun x member u own => ?_⟩
  -- A leaf is the reading of its token, and this is among the tokens that are said, so it is no parenthesis.
  obtain ⟨listed, bare⟩ := List.mem_filter.1 (words ▸ Node.mem_words_of_leaf Lexeme.token member)
  have leaves := Node.leaves_ofEvents? (ofEvents?_events Lexeme.namesFunction (n.resolve v stem 0))
  rw [Node.leavesOf, Node.leavesOf, List.append_nil, leaves, resolved] at member
  obtain ⟨t, m, rfl⟩ := Event.mem_leaves_resolve member
  obtain ⟨opens, closes⟩ : t.opens = false ∧ t.closes = false := by simpa [Lexeme.read] using bare
  obtain ⟨scanned, solid⟩ := cut t listed
  have unknown : Atom.ofToken v (Parameter.numbered stem m) t = .unknown u := by
    cases same : Atom.ofToken v (Parameter.numbered stem m) t <;> rw [Lexeme.read, same] at own <;> cases own
    rfl
  obtain ⟨rfl, lost⟩ := Token.unresolved_of_ofToken scanned solid opens closes unknown
  exact ⟨listed, lost⟩

namespace Condition

theorem failsWith_ofTokens {o : Token.Options} {text : String} (v : Vocabulary) (stem : String) {ts : List Token}
    (cut : ∀ t ∈ ts, t ∈ (Token.scan o text).tokens) :
    FailsWith (Fault.Cites (· ∈ Token.significant ts) fun t => t ∈ Token.significant ts ∧ t.Unresolved v)
      (ofTokens v stem ts).result := by
  have solid (t : Token) (h : t ∈ Token.significant ts) :
      t ∈ (Token.scan o text).tokens ∧ t.kind.isTrivia = false := by
    obtain ⟨member, kept⟩ := List.mem_filter.1 h
    exact ⟨cut t member, by simpa using kept⟩
  cases passed : Balance.check (Token.significant ts) with
  | error f =>
    rw [ofTokens_eq, passed]
    exact failsWith_error (Balance.failsWith_checkFrom nofun (fun _ member => member) f passed)
  | ok _ =>
    obtain ⟨n, events, shallow⟩ := Balance.check_iff.1 passed
    rw [ofTokens_of_events v stem events shallow]
    exact Node.failsWith_compile (fun _ h => h.1) (Nest.lists_node solid events)

theorem cites_compile {s : Settings} {v : Vocabulary} {filter : String} {tokens : List Token} {f : Fault}
    (scanned : (Token.scan s.tokens filter).complete = .ok tokens)
    (h : (compile s v filter).result = .error f) :
    f.Cites (· ∈ Token.significant tokens) fun t => t ∈ Token.significant tokens ∧ t.Unresolved v := by
  have same := Token.Scan.tokens_of_complete scanned
  rw [compile_eq_ofTokens, scanned] at h
  exact failsWith_ofTokens v s.stem (fun t member => same ▸ member) f h

/-- A fault with a place, in a filter that is cut into tokens, is about one of these tokens: the token has the text and
    the place that the fault gives. If the fault is an operand that could not be resolved, the token means nothing. -/
theorem exists_token_of_fault {s : Settings} {v : Vocabulary} {filter : String} {tokens : List Token} {f : Fault}
    {p : Position} (scanned : (Token.scan s.tokens filter).complete = .ok tokens)
    (h : (compile s v filter).result = .error f) (placed : f.position? = some p) :
    ∃ t ∈ tokens, f.token? = some t.text ∧ t.position = p ∧ (f.isUnresolved = true → t.Unresolved v) := by
  obtain ⟨t, member, text, place, lost⟩ := cites_compile scanned h p placed
  exact ⟨t, (List.mem_filter.1 member).1, text, place, fun unresolved => (lost unresolved).2⟩

theorem exists_token_of_fault_call :
    ∃ tokens f p,
      (Token.scan Settings.default.tokens "not (length(name) gt 1\nor name eq limt)").complete = .ok tokens ∧
      (compile .default (.ofLists [("name", ⟨⟨none, "name"⟩, .string⟩)] [("limit", .int 3)])
        "not (length(name) gt 1\nor name eq limt)").result = .error f ∧ f.position? = some p ∧
      ∃ t ∈ tokens, f.token? = some t.text ∧ t.position = p ∧ (f.isUnresolved = true →
        t.Unresolved (.ofLists [("name", ⟨⟨none, "name"⟩, .string⟩)] [("limit", .int 3)])) := by
  have failed : (compile .default (.ofLists [("name", ⟨⟨none, "name"⟩, .string⟩)] [("limit", .int 3)])
      "not (length(name) gt 1\nor name eq limt)").result = .error (.unresolved "limt" "eq" .right ⟨2, 12⟩) :=
    Outcome.result_of_fault? (by decide +kernel)
  have scanned := Token.Scan.complete_of_unterminated (s := Token.scan Settings.default.tokens
    "not (length(name) gt 1\nor name eq limt)") (by decide +kernel)
  exact ⟨_, _, _, scanned, failed, rfl, exists_token_of_fault scanned failed rfl⟩

end Condition

end WhereClause
