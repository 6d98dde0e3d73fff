import WhereClause.Proofs.Outline.Places
import WhereClause.Proofs.Outline.Resolve
import WhereClause.Proofs.RoundTrip.Leaf
import WhereClause.Proofs.RoundTrip.Yield
import WhereClause.Proofs.Scan.Cover

namespace WhereClause

open Text

namespace Token

def quoted (s : String) : Token := ⟨.quoted, Quoted.write s, .start⟩

theorem toList_write (s : String) : (Quoted.write s).toList = '\'' :: (Quoted.double s.toList ++ ['\'']) := by
  rw [Quoted.write, String.toList_ofList]
  rfl

theorem token?_write (o : Options) (s : String) {rest : List Char} (apart : rest.head? ≠ some '\'') :
    o.token? '\'' ((Quoted.double s.toList ++ ['\'']) ++ rest) =
      some (.quoted, (Quoted.double s.toList ++ ['\'']).length) := by
  rw [Options.token?, if_pos rfl, List.append_assoc, List.singleton_append, Quoted.extent_double apart,
    List.length_append]
  rfl

theorem scan_write (o : Options) (s : String) :
    scan o (Quoted.write s) =
      ⟨[quoted s, ⟨.finish, "", Position.start.after (Quoted.write s).toList⟩], none⟩ := by
  have first := @token?_write o s [] nofun
  rw [List.append_nil] at first
  have whole : Scan.full o .start (Quoted.write s).toList =
      ⟨[quoted s, ⟨.finish, "", Position.start.after (Quoted.write s).toList⟩], none⟩ := by
    rw [toList_write, Scan.full_cons first, List.take_length, List.drop_length, Scan.full, ← toList_write,
      String.ofList_toList]
    rfl
  unfold scan
  rw [whole]
  split <;> rfl

theorem said?_write (s : String) {rest : List Char} (ends : Ends rest) :
    said? ((Quoted.write s).toList ++ rest) = (said? rest).map (quoted s :: ·) := by
  have apart : rest.head? ≠ some '\'' := by
    intro quote
    rcases ends _ quote with blank | symbol
    · exact absurd blank (by decide)
    · exact absurd symbol (by decide)
  rw [toList_write, List.cons_append, said?_cons (token?_write .filter s apart), List.take_left, List.drop_left,
    ← toList_write, String.ofList_toList]
  rfl

theorem Spells.quoted (s : String) : Spells (Quoted.write s) [quoted s] where
  said rest ends := said?_write s ends
  parentheses := by simp [Token.quoted]

end Token

def Operator.equality : Operator := alike .logical "eq" "=" Form.between

theorem Operator.find?_equality : find? "eq" = some equality := by decide +kernel

theorem Atom.ofToken_quoted (v : Vocabulary) (name s : String) :
    ofToken v name (Token.quoted s) = .parameter ⟨name, .string s⟩ := by
  have literal : (Token.quoted s).literal? = some (.string s) := by
    simp [Token.literal?, Token.quoted, Quoted.read_write]
  have comma : (Token.quoted s).isComma = false := rfl
  have operator : (Token.quoted s).operator? = none := rfl
  rw [ofToken, operator, comma, literal]
  rfl

theorem Expr.applied_equality (left right : Expr) :
    applied .equality (some left) (some right) none = .ok (.apply .equality (some left) (some right) none) := by
  have slots : Template.takes (Operator.equality.template .filter false) .left = true ∧
      Template.takes (Operator.equality.template .filter false) .right = true ∧
      Template.takes (Operator.equality.template .filter false) .third = false := by decide +kernel
  have bare : Template.encloses (Operator.equality.template .filter false) .left = false ∧
      Template.encloses (Operator.equality.template .filter false) .right = false := by decide +kernel
  refine applied_eq_ok.2 ⟨slots, ?_⟩
  simp [stripped, strip, bare]

theorem Expr.ofAtoms_equality (c : Column) (p : Parameter) :
    ofAtoms [.column c, .operator .equality, .parameter p] =
      .ok (.apply .equality (some (.run [.column c])) (some (.run [.parameter p])) none) := by
  have split : Atom.splitAtOperator [.column c, .operator .equality, .parameter p] =
      some ([.column c], .equality, [.parameter p]) := rfl
  rw [ofAtoms_between split (by decide)]
  exact applied_equality _ _

theorem Node.compile_row {items : List Lexeme} {e : Expr} (h : Expr.ofAtoms (items.map Lexeme.atom) = .ok e)
    (operator : e.hasOperator = true) : compile (.run [] [.group [.run items []]]) = .ok (.test e) := by
  have row : atomsOf [.run items []] = .ok (items.map Lexeme.atom) := by
    simp [atomsOf, atoms, asOperand, isCall]
  have alone : ¬(Node.run items []).elided.isGrouping = true := by
    cases items <;> exact Bool.false_ne_true
  rw [compile, compile, if_neg alone, row]
  exact test_eq_mk.2 ⟨_, e, rfl, h, operator, rfl⟩

namespace Nest

def comparison (word s : String) : Nest Token :=
  .leaf (Token.word word) (.leaf (Token.word "eq") (.leaf (Token.quoted s) .nil))

variable {v : Vocabulary} {word : String} {c : Column} (h : v.Names word c) (s : String)

include h

theorem said?_comparison : Token.said? (word ++ " eq " ++ Quoted.write s).toList =
    some [Token.word word, Token.word "eq", Token.quoted s] := by
  obtain ⟨p, scanned⟩ := h.scanned
  have first : Token.IsWord word.toList := Token.isWord_of_said? (Token.said?_of_complete scanned)
  have second : Token.IsWord "eq".toList := by decide
  have text : word ++ " eq " ++ Quoted.write s = word ++ " " ++ "eq" ++ " " ++ Quoted.write s := by
    simp only [String.append_assoc]
    rfl
  have spells := ((Token.Spells.word first).between (Token.Spells.word second)).between (Token.Spells.quoted s)
  have whole := spells.said [] Token.ends_nil
  rw [List.append_nil, Token.said?_nil] at whole
  rw [text]
  exact whole

theorem events_comparison : (comparison word s).events =
    [Token.word word, Token.word "eq", Token.quoted s].map Event.ofToken := by
  have field : Event.ofToken (Token.word word) = .leaf (Token.word word) := by
    rw [Event.ofToken, h.junction]
    rfl
  have operator : Event.ofToken (Token.word "eq") = .leaf (Token.word "eq") := by decide
  rw [List.map_cons, List.map_cons, field, operator]
  rfl

theorem resolve_comparison (stem : String) : (comparison word s).resolve v stem 0 =
    .leaf ⟨Token.word word, .column c⟩ (.leaf ⟨Token.word "eq", .operator .equality⟩
      (.leaf ⟨Token.quoted s, .parameter ⟨Parameter.numbered stem 0, .string s⟩⟩ .nil)) := by
  have operator (name : String) : Atom.ofToken v name (Token.word "eq") = .operator .equality := by
    have found : (Token.word "eq").operator? = some .equality := Operator.find?_equality
    rw [Atom.ofToken, found]
  simp only [comparison, resolve, Lexeme.read, Lexeme.next, Atom.ofToken_of_names h, operator,
    Atom.ofToken_quoted, Atom.isParameter, Bool.false_eq_true, if_false]

end Nest

theorem Condition.compile_comparison {v : Vocabulary} {word : String} {c : Column} (h : v.Names word c)
    (s : String) : compile .default v (word ++ " eq " ++ Quoted.write s) =
      .ok (.test (.apply .equality (some (.run [.column c]))
        (some (.run [.parameter ⟨"Filter0", .string s⟩])) none)) := by
  have said := Nest.said?_comparison h s
  have events := Nest.events_comparison h s
  rw [← Token.significant_of_said said] at events
  have shallow : (Nest.comparison word s).depth ≤ Balance.limit := Nat.zero_le _
  refine compile_eq_of_said said ?_
  rw [ofTokens_of_events v _ events shallow, Nest.resolve_comparison h]
  exact Node.compile_row (Expr.ofAtoms_equality c _) rfl

namespace Value

/-- Every string comes back from its literal: the literal is one token under all options, reading it gives the
    string, and so does a filter that compares a field with it. Conversely the text of every quoted token is the
    literal of what is read from it. -/
theorem quoted_round_trip (s : String) :
    (∀ o, Token.scan o (Value.string s).sql =
        ⟨[⟨.quoted, (Value.string s).sql, .start⟩,
          ⟨.finish, "", Position.start.after (Value.string s).sql.toList⟩], none⟩) ∧
      Quoted.read (Value.string s).sql = some s ∧ read (Value.string s).sql = .string s ∧
      (∀ (v : Vocabulary) (word : String) (c : Column), v.Names word c →
        Condition.compile .default v (word ++ " eq " ++ (Value.string s).sql) =
          .ok (.test (.apply .equality (some (.run [.column c]))
            (some (.run [.parameter ⟨"Filter0", .string s⟩])) none))) ∧
      ∀ (o : Token.Options) (text : String), ∀ t ∈ (Token.scan o text).tokens, t.kind = .quoted →
        ∃ inner, Quoted.read t.text = some inner ∧ (Value.string inner).sql = t.text := by
  have unquoted : Quoted.read (Value.string s).sql = some s := Quoted.read_write s
  refine ⟨fun o => Token.scan_write o s, unquoted, ?_, fun v word c h => Condition.compile_comparison h s, ?_⟩
  · rw [read, unquoted]
    rfl
  · intro o text t cut kind
    obtain ⟨inner, written⟩ := (Token.isLiteral_of_scan cut).1 kind
    exact ⟨inner, written ▸ Quoted.read_write inner, written.symm⟩

theorem quoted_round_trip_quotes :
    let v : Vocabulary := .ofLists [("o.name", ⟨⟨some "o", "name"⟩, .string⟩)] []
    v.Names "o.name" ⟨some "o", "name"⟩ ∧
      Condition.compile .default v ("o.name" ++ " eq " ++ (Value.string "'' and (,\r\n'").sql) =
        .ok (.test (.apply .equality (some (.run [.column ⟨some "o", "name"⟩]))
          (some (.run [.parameter ⟨"Filter0", .string "'' and (,\r\n'"⟩])) none)) ∧
      ∃ t ∈ (Token.scan .plain "a''''b'").tokens, t.kind = .quoted ∧
        ∃ inner, Quoted.read t.text = some inner ∧ (Value.string inner).sql = t.text := by
  intro v
  obtain ⟨-, -, -, compiles, reads⟩ := quoted_round_trip "'' and (,\r\n'"
  have names : v.Names "o.name" ⟨some "o", "name"⟩ :=
    ⟨⟨⟨1, 7⟩, by decide +kernel⟩, by decide +kernel, by decide +kernel, by decide +kernel, _, rfl, rfl⟩
  have cut : (⟨.quoted, "''''", ⟨1, 2⟩⟩ : Token) ∈ (Token.scan .plain "a''''b'").tokens := by decide +kernel
  exact ⟨names, compiles v _ _ names, _, cut, rfl, reads _ _ _ cut rfl⟩

end Value

end WhereClause
