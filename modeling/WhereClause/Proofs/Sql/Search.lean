import WhereClause.Proofs.Quotation.Filter
import WhereClause.Proofs.RoundTrip.Call
import WhereClause.Proofs.Sql.Like

namespace WhereClause

namespace Operator

open Form

def search (keyword : String) (before after : List Char) : Operator :=
  call keyword "LIKE" call2 (Template.ofParts
    [Shape.mark .left, .text [' '], .mark ['o', 'p'], .text (' ' :: before), Shape.mark .right, .text after])

theorem find?_contains : find? "contains" = some (search "contains" "'%' + ".toList " + '%'".toList) := by
  decide +kernel

theorem find?_startswith : find? "startswith" = some (search "startswith" "'%' + ".toList []) := by decide +kernel

theorem find?_endswith : find? "endswith" = some (search "endswith" [] " + '%'".toList) := by decide +kernel

end Operator

namespace Expr

open Atom Operator

variable (keyword : String) (before after : List Char)

theorem render_search (front : '{' ∉ before) (back : '{' ∉ after) (x y : Expr) :
    (apply (search keyword before after) (some x) (some y) none).render .sql = x.render .sql ++ " " ++
      (search keyword before after).sql ++ " " ++ String.ofList before ++ y.render .sql ++ String.ofList after := by
  have formed : ∀ part ∈ [Shape.mark .left, .text [' '], .mark ['o', 'p'], .text (' ' :: before),
      Shape.mark .right, .text after], Template.Part.isFormed part = true := by
    simp [Template.Part.isFormed, Shape.mark, Slot.marker, front, back]
  have template : (search keyword before after).template .sql false = Template.ofParts [Shape.mark .left,
    .text [' '], .mark ['o', 'p'], .text (' ' :: before), Shape.mark .right, .text after] := rfl
  have gap : String.ofList (' ' :: before) = " " ++ String.ofList before := by
    rw [← List.singleton_append, String.ofList_append]
  rw [render, Option.isSome_none, template, Template.fill_ofParts _ formed]
  simp [Text.concat, Template.Part.filled, Shape.mark, slotText, Slot.marker, renderOperand, spelling, gap,
    String.append_assoc]

theorem ofAtoms_search {x y : Atom} (first : x.isOperand = true) (second : y.isOperand = true) :
    ofAtoms [.operator (search keyword before after), x, .comma, y] =
      .ok (.apply (search keyword before after) (some (.run [x])) (some (.run [y])) none) := by
  have split : splitAtOperator [.operator (search keyword before after), x, .comma, y] =
      some ([], search keyword before after, [x, .comma, y]) := rfl
  have read : Arguments.read (search keyword before after) [x, .comma, y] = .ok ⟨[x], [y], []⟩ :=
    @read_listed [[x], [y]] _ (by simp [isComma_of_isOperand first, isComma_of_isOperand second]) (by simp)
  have operand {a : Atom} (own : a.isOperand = true) (slot : Slot) :
      argument (search keyword before after) slot [a] (ofAtoms [a]) = .ok (some (.run [a])) := by
    rw [argument, if_neg (by simp [isOperator_of_isOperand own]), plainOperand_of_isOperand own]
  have slots : Template.takes Form.call2 .left = true ∧ Template.takes Form.call2 .right = true ∧
      Template.takes Form.call2 .third = false := by decide +kernel
  have bare : Template.encloses Form.call2 .left = false ∧ Template.encloses Form.call2 .right = false := by
    decide +kernel
  rw [ofAtoms_call split rfl, read]
  refine bind_eq_ok.2 ⟨_, rfl, bind_eq_ok.2 ⟨_, operand first .left, bind_eq_ok.2 ⟨_, operand second .right,
    bind_eq_ok.2 ⟨none, rfl, applied_eq_ok.2 ⟨slots, ?_⟩⟩⟩⟩⟩
  have kept : stripped (search keyword before after) (some (.run [x])) (some (.run [y])) none =
      .apply (search keyword before after) (some (strip Form.call2 .left (.run [x])))
        (some (strip Form.call2 .right (.run [y]))) none := rfl
  rw [kept, strip_open bare.1, strip_open bare.2]

end Expr

namespace Nest

def searching (keyword word s : String) : Nest Token :=
  .leaf (Token.word keyword)
    (.pair (.leaf (Token.word word) (.leaf ⟨.symbol, ",", .start⟩ (.leaf (Token.quoted s) .nil))) .nil)

variable {v : Vocabulary} {keyword word : String} {c : Column} (letters : Token.IsWord keyword.toList)
  (unjoined : (Token.word keyword).junction? = none) (h : v.Names word c) (s : String)

include letters h in
theorem said?_searching : Token.said? (keyword ++ "(" ++ word ++ "," ++ Text.Quoted.write s ++ ")").toList =
    some (Token.word keyword :: ⟨.symbol, "(", .start⟩ :: [Token.word word, ⟨.symbol, ",", .start⟩,
      Token.quoted s, ⟨.symbol, ")", .start⟩]) := by
  obtain ⟨p, scanned⟩ := h.scanned
  have first := Token.Spells.word (Token.isWord_of_said? (Token.said?_of_complete scanned))
  have opens : '(' ∈ Token.Options.filter.symbols := by decide
  have parts : ',' ∈ Token.Options.filter.symbols := by decide
  have closes : ')' ∈ Token.Options.filter.symbols := by decide
  have close := (Token.Spells.quoted s).append (Token.Spells.symbol closes) fun rest _ =>
    Token.ends_cons (Or.inr closes) rest
  have second := first.append (Token.Spells.symbol_append parts close) fun rest _ =>
    Token.Spells.ends_symbol parts _ rest
  have spells := (Token.Spells.word letters).append (Token.Spells.symbol_append opens second) fun rest _ =>
    Token.Spells.ends_symbol opens _ rest
  have whole := spells.said [] Token.ends_nil
  rw [List.append_nil, Token.said?_nil] at whole
  simp only [String.append_assoc]
  exact whole

include unjoined h in
theorem events_searching : (searching keyword word s).events =
    (Token.word keyword :: ⟨.symbol, "(", .start⟩ :: [Token.word word, ⟨.symbol, ",", .start⟩,
      Token.quoted s, ⟨.symbol, ")", .start⟩]).map Event.ofToken := by
  have field : Event.ofToken (Token.word word) = .leaf (Token.word word) := by
    rw [Event.ofToken, h.junction]
    rfl
  have function : Event.ofToken (Token.word keyword) = .leaf (Token.word keyword) := by
    rw [Event.ofToken, unjoined]
    rfl
  rw [List.map_cons, List.map_cons, List.map_cons, field, function]
  rfl

theorem resolve_searching (h : v.Names word c) {op : Operator} (found : Operator.find? keyword = some op)
    (stem : String) : (searching keyword word s).resolve v stem 0 = .leaf ⟨Token.word keyword, .operator op⟩
      (.pair (.leaf ⟨Token.word word, .column c⟩ (.leaf ⟨⟨.symbol, ",", .start⟩, .comma⟩
        (.leaf ⟨Token.quoted s, .parameter ⟨Parameter.numbered stem 0, .string s⟩⟩ .nil))) .nil) := by
  have operator (name : String) : Atom.ofToken v name (Token.word keyword) = .operator op := by
    have known : (Token.word keyword).operator? = some op := found
    rw [Atom.ofToken, known]
  have comma (name : String) : Atom.ofToken v name ⟨.symbol, ",", .start⟩ = .comma := rfl
  simp only [searching, resolve, Lexeme.read, Lexeme.next, Atom.ofToken_of_names h, operator, comma,
    Atom.ofToken_quoted, Atom.isParameter, Bool.false_eq_true, if_false]

theorem compile_searching {name : Lexeme} (named : name.namesFunction = true) {items : List Lexeme}
    {inner : Nest Lexeme} (leaves : inner.children Lexeme.namesFunction = [.run items []]) (filled : items ≠ [])
    {e : Expr} (built : Expr.ofAtoms (name.atom :: items.map Lexeme.atom) = .ok e) (operator : e.hasOperator = true) :
    Nest.compile (.leaf name (.pair inner .nil)) = .ok (.test e) := by
  -- Without a joining word, and without pairs among the arguments, the outline is a group that holds the call.
  have nodes : Node.pruneAll [Nest.node Lexeme.namesFunction (.leaf name (.pair inner .nil))] =
      [.group [.run [] [.call name [.run items []]]]] := by
    have unjoined : (Nest.leaf name (.pair inner .nil)).hasJoint = false := rfl
    rw [node, unjoined, children, outline_call named, leaves]
    simp [Node.pruneAll, Node.prune, Node.isBare, outline, filled]
  have enclosed : (Nest.leaf name (.pair inner .nil)).enclosed = .leaf name (.pair inner .nil) := rfl
  have below : Node.atomsOf [.run items []] = .ok (items.map Lexeme.atom) := by
    simp [Node.atomsOf, Node.atoms, Node.asOperand, Node.isCall]
  have whole : Node.atomsOf [.run [] [.call name [.run items []]]] = .ok [.expr e] := by
    have lifted : (liftM (Expr.ofAtoms (name.atom :: items.map Lexeme.atom)) : Outcome Expr) = .ok e := by
      rw [built]
      rfl
    simp [Node.atomsOf, Node.atoms, Node.asOperand, Node.isCall, lifted]
  have call : Node.compile (.group [.run [] [.call name [.run items []]]]) = .ok (.test e) := by
    rw [Node.compile, if_neg (by simp [Node.elided, Node.isGrouping]), whole]
    exact Node.test_eq_mk.2 ⟨_, e, rfl, Expr.ofAtoms_alone rfl, operator, rfl⟩
  rw [compile, enclosed, nodes, Node.compile]
  exact call

end Nest

theorem Condition.compile_searching {v : Vocabulary} {word : String} {c : Column} (h : v.Names word c) (s : String)
    {keyword : String} {op : Operator} (found : Operator.find? keyword = some op) (function : op.isFunction = true)
    (letters : Token.IsWord keyword.toList) (unjoined : (Token.word keyword).junction? = none) {e : Expr}
    (built : Expr.ofAtoms [.operator op, .column c, .comma, .parameter ⟨"Filter0", .string s⟩] = .ok e)
    (operator : e.hasOperator = true) :
    compile .default v (keyword ++ "(" ++ word ++ "," ++ Text.Quoted.write s ++ ")") = .ok (.test e) := by
  have said := Nest.said?_searching letters h s
  have events := Nest.events_searching unjoined h s
  rw [← Token.significant_of_said said] at events
  have shallow : (Nest.searching keyword word s).depth ≤ Balance.limit := Nat.le_of_lt (by decide : 1 < 64)
  have named : Lexeme.namesFunction ⟨Token.word keyword, .operator op⟩ = true := by
    simp [Lexeme.namesFunction, Token.namesFunction, Token.word, Operator.namesFunction, found, function]
  have leaves : Nest.children Lexeme.namesFunction (.leaf ⟨Token.word word, .column c⟩
      (.leaf ⟨⟨.symbol, ",", .start⟩, .comma⟩ (.leaf ⟨Token.quoted s, .parameter ⟨"Filter0", .string s⟩⟩ .nil))) =
    [.run [⟨Token.word word, .column c⟩, ⟨⟨.symbol, ",", .start⟩, .comma⟩,
      ⟨Token.quoted s, .parameter ⟨"Filter0", .string s⟩⟩] []] := rfl
  refine compile_eq_of_said said ?_
  rw [ofTokens_of_events v _ events shallow, Nest.resolve_searching s h found]
  exact Nest.compile_searching named leaves (List.cons_ne_nil _ _) built operator

namespace Sql

namespace Database

/-- The operand is written as a name, and the name stands for the string. -/
structure Binds (db : Database) (a : Atom) (s : String) : Prop where
  operand : a.isOperand = true
  name : Lexeme.IsName (a.render .sql)
  value : db.value? (a.render .sql) = some s

/-- What the SQL of a function with two arguments decides. -/
def answer? (db : Database) (keyword : String) (x y : Atom) : Option Bool := do
  let op ← Operator.find? keyword
  let e ← (Expr.ofAtoms [.operator op, x, .comma, y]).toOption
  db.test? (e.render .sql)

theorem answer?_eq_test? {db : Database} {keyword : String} {x y : Atom} {op : Operator} {e : Expr}
    (found : Operator.find? keyword = some op) (built : Expr.ofAtoms [.operator op, x, .comma, y] = .ok e) :
    db.answer? keyword x y = db.test? (e.render .sql) := by
  rw [answer?, found, Option.bind_eq_bind, Option.bind_some, built]
  rfl

variable {db : Database} {x y : Atom} {s p : String} (first : db.Binds x s) (second : db.Binds y p)

include first second

theorem answer?_like {keyword : String} {before after : List Char}
    (found : Operator.find? keyword = some (.search keyword before after)) (front : '{' ∉ before)
    (back : '{' ∉ after) {right : List Lexeme} {pattern : String}
    (spells : Lexeme.Spells (String.ofList before ++ y.render .sql ++ String.ofList after) right)
    (sum : db.sum? right = some pattern) :
    db.answer? keyword x y = some (db.like pattern.toList s.toList) := by
  have alone (a : Atom) : (Expr.run [a]).render .sql = a.render .sql := by simp [Expr.render, Text.concat]
  have rendered : (Expr.apply (.search keyword before after) (some (.run [x])) (some (.run [y])) none).render .sql =
      x.render .sql ++ " " ++ "LIKE" ++ " " ++ (String.ofList before ++ y.render .sql ++ String.ofList after) := by
    rw [Expr.render_search keyword before after front back, alone, alone]
    simp only [String.append_assoc]
    rfl
  -- The operands are names, so that the only LIKE is the one that the operator writes.
  have like : Lexeme.Spells "LIKE" [.word "LIKE"] := .word ⟨by decide, by decide⟩
  have read := (((Lexeme.Spells.word first.name.isWord).between like).between spells).read_eq
  have text : db.sum? [.word (x.render .sql)] = some s := first.value
  have names : ∀ l ∈ [Lexeme.word (x.render .sql)], l.isLike = false := by simpa using first.name.isLike
  rw [answer?_eq_test? found (Expr.ofAtoms_search keyword before after first.operand second.operand), rendered]
  exact test?_like db read names text sum

variable (plain : ∀ c ∈ p.toList, isWildcard c = false)

include plain

theorem answer?_contains : db.answer? "contains" x y = some (decide (p.toList <:+: s.toList)) := by
  have any : Lexeme.Spells "'%'" [.text "%"] := .literal "%"
  have spells := (((any.between .plus).between (.word second.name.isWord)).between .plus).between any
  have text : "'%'" ++ " " ++ "+" ++ " " ++ y.render .sql ++ " " ++ "+" ++ " " ++ "'%'" =
      String.ofList "'%' + ".toList ++ y.render .sql ++ String.ofList " + '%'".toList := by
    simp only [String.append_assoc]
    rfl
  have sum : db.sum? [.text "%", .plus, .word (y.render .sql), .plus, .text "%"] = some ("%" ++ (p ++ "%")) := by
    simp [sum?, operand?, second.value]
  rw [text] at spells
  rw [answer?_like first second Operator.find?_contains (by decide) (by decide) spells sum, ← like_within db plain]
  simp only [String.toList_append]
  rfl

theorem answer?_startswith : db.answer? "startswith" x y = some (decide (p.toList <:+ s.toList)) := by
  have any : Lexeme.Spells "'%'" [.text "%"] := .literal "%"
  have spells := (any.between .plus).between (.word second.name.isWord)
  have text : "'%'" ++ " " ++ "+" ++ " " ++ y.render .sql =
      String.ofList "'%' + ".toList ++ y.render .sql ++ String.ofList [] := by
    simp only [String.append_assoc, String.ofList_nil, String.append_empty]
    rfl
  have sum : db.sum? [.text "%", .plus, .word (y.render .sql)] = some ("%" ++ p) := by
    simp [sum?, operand?, second.value]
  rw [text] at spells
  rw [answer?_like first second Operator.find?_startswith (by decide) (by decide) spells sum,
    ← like_ending db plain, String.toList_append]
  rfl

theorem answer?_endswith : db.answer? "endswith" x y = some (decide (p.toList <+: s.toList)) := by
  have spells := ((Lexeme.Spells.word second.name.isWord).between .plus).between (.literal "%")
  have text : y.render .sql ++ " " ++ "+" ++ " " ++ Text.Quoted.write "%" =
      String.ofList [] ++ y.render .sql ++ String.ofList " + '%'".toList := by
    simp only [String.append_assoc, String.ofList_nil, String.empty_append]
    rfl
  have sum : db.sum? [.word (y.render .sql), .plus, .text "%"] = some (p ++ "%") := by
    simp [sum?, operand?, second.value]
  rw [text] at spells
  rw [answer?_like first second Operator.find?_endswith (by decide) (by decide) spells sum,
    ← like_starting db plain, String.toList_append]
  rfl

/-- The functions search one string for the other as far as LIKE tells them apart: `contains` anywhere, but
    `startswith` at the end and `endswith` at the start. So these two mean what they are called for just those strings
    of which the one stands at both ends of the other, or at neither. -/
theorem answer?_search :
    db.answer? "contains" x y = some (decide (p.toList <:+: s.toList)) ∧
      db.answer? "startswith" x y = some (decide (p.toList <:+ s.toList)) ∧
      db.answer? "endswith" x y = some (decide (p.toList <+: s.toList)) :=
  ⟨answer?_contains first second plain, answer?_startswith first second plain, answer?_endswith first second plain⟩

omit first second plain

theorem answer?_search_jim :
    let db : Database := ⟨fun w => [("[o].[Name]", "Jim"), ("@Filter0", "J")].lookup w, fun _ _ => false⟩
    let x : Atom := .column ⟨some "o", "Name"⟩
    let y : Atom := .parameter ⟨"Filter0", .string "J"⟩
    db.Binds x "Jim" ∧ db.Binds y "J" ∧ (∀ c ∈ "J".toList, isWildcard c = false) ∧
      db.answer? "contains" x y = some true ∧ db.answer? "startswith" x y = some false ∧
      db.answer? "endswith" x y = some true := by
  intro db x y
  have first : db.Binds x "Jim" := ⟨rfl, Lexeme.isName_column (by decide +kernel), by decide +kernel⟩
  have second : db.Binds y "J" := ⟨rfl, Lexeme.isName_parameter (List.all_eq_true.1 (by decide)), by decide +kernel⟩
  have plain : ∀ c ∈ "J".toList, isWildcard c = false := List.forall_mem_singleton.2 (by decide)
  exact ⟨first, second, plain, answer?_search first second plain⟩

/-- `startswith` does not find a string at the start, and `endswith` finds one that is not at the end. -/
theorem exists_answer?_ne :
    ∃ (db : Database) (x y : Atom) (s p : String), db.Binds x s ∧ db.Binds y p ∧
      (∀ c ∈ p.toList, isWildcard c = false) ∧
      db.answer? "startswith" x y ≠ some (decide (p.toList <+: s.toList)) ∧
      db.answer? "endswith" x y ≠ some (decide (p.toList <:+ s.toList)) := by
  let db : Database := ⟨fun w => [("[Name]", "Jim"), ("@Filter0", "J")].lookup w, fun _ _ => false⟩
  let x : Atom := .column ⟨none, "Name"⟩
  let y : Atom := .parameter ⟨"Filter0", .string "J"⟩
  have first : db.Binds x "Jim" := ⟨rfl, Lexeme.isName_column (by decide +kernel), by decide +kernel⟩
  have second : db.Binds y "J" := ⟨rfl, Lexeme.isName_parameter (List.all_eq_true.1 (by decide)), by decide +kernel⟩
  have plain : ∀ c ∈ "J".toList, isWildcard c = false := List.forall_mem_singleton.2 (by decide)
  refine ⟨db, x, y, "Jim", "J", first, second, plain, ?_, ?_⟩
  · rw [answer?_startswith first second plain]
    decide
  · rw [answer?_endswith first second plain]
    decide

end Database

end Sql

theorem Condition.test?_compile_search {v : Vocabulary} {word : String} {c : Column} (h : v.Names word c)
    {db : Sql.Database} {s p : String} (first : db.Binds (.column c) s) (value : db.value? "@Filter0" = some p)
    (plain : ∀ c ∈ p.toList, Sql.Database.isWildcard c = false) :
    ∀ call ∈ [("contains", decide (p.toList <:+: s.toList)), ("startswith", decide (p.toList <:+ s.toList)),
        ("endswith", decide (p.toList <+: s.toList))],
      ∃ t, compile .default v (call.1 ++ "(" ++ word ++ "," ++ Text.Quoted.write p ++ ")") = .ok t ∧
        db.test? (t.render .sql) = some call.2 := by
  have letters : "Filter0".toList.all Sql.Lexeme.continuesWord = true := by decide
  have second : db.Binds (.parameter ⟨"Filter0", .string p⟩) p :=
    ⟨rfl, Sql.Lexeme.isName_parameter (List.all_eq_true.1 letters), value⟩
  have compiled {keyword : String} {before after : List Char} {b : Bool}
      (found : Operator.find? keyword = some (.search keyword before after)) (letters : Token.IsWord keyword.toList)
      (unjoined : (Token.word keyword).junction? = none)
      (answer : db.answer? keyword (.column c) (.parameter ⟨"Filter0", .string p⟩) = some b) :
      ∃ t, compile .default v (keyword ++ "(" ++ word ++ "," ++ Text.Quoted.write p ++ ")") = .ok t ∧
        db.test? (t.render .sql) = some b := by
    have built := Expr.ofAtoms_search keyword before after first.operand second.operand
    exact ⟨_, compile_searching h p found rfl letters unjoined built rfl,
      (Sql.Database.answer?_eq_test? found built).symm.trans answer⟩
  simp only [List.forall_mem_cons, List.not_mem_nil, false_implies, implies_true, and_true]
  have within := Sql.Database.answer?_contains first second plain
  have ending := Sql.Database.answer?_startswith first second plain
  have starting := Sql.Database.answer?_endswith first second plain
  exact ⟨compiled Operator.find?_contains (by decide) (by decide) within,
    compiled Operator.find?_startswith (by decide) (by decide) ending,
    compiled Operator.find?_endswith (by decide) (by decide) starting⟩

end WhereClause
