import Mathlib.Data.List.Chain
import WhereClause.Proofs.RoundTrip.Clause

namespace WhereClause

namespace Operator

def IsBinary (op : Operator) : Prop := op ∈ table ∧ op.templates.filter = Form.between

def negation : Operator := alike .logical "not" "NOT" (Form.op ++ " " ++ Form.rhs)

theorem find?_negation : find? "not" = some negation := by decide +kernel

theorem binaries : (table.all fun op => op.templates.filter ≠ Form.between ||
    !op.isFunction && op.overload.isNone && op.templates = ⟨Shape.between.form, Shape.between.form⟩) = true := by
  decide +kernel

theorem IsBinary.isInfix {op : Operator} (h : op.IsBinary) : op.IsInfix .between := by
  have own := List.all_eq_true.1 binaries op h.1
  simp only [h.2, ne_eq, not_true_eq_false, decide_false, Bool.false_or, Bool.and_eq_true, Bool.not_eq_true',
    Option.isNone_iff_eq_none, decide_eq_true_eq] at own
  obtain ⟨⟨function, overload⟩, templates⟩ := own
  refine ⟨function, by simp [Shape.infixes], fun d third => ?_⟩
  rw [template, overload, templates]
  cases d <;> rfl

theorem isInfix_negation : negation.IsInfix .before := by
  have templates : negation.templates = ⟨Shape.before.form, Shape.before.form⟩ := by decide +kernel
  refine ⟨rfl, by simp [Shape.infixes], fun d third => ?_⟩
  have bare : negation.overload = none := rfl
  rw [template, bare, templates]
  cases d <;> rfl

end Operator

namespace Atom

/-- Operands, binary operators and negations; no operand directly follows another one. -/
structure Row (atoms : List Atom) : Prop where
  pieces : ∀ a ∈ atoms, a.isOperand = true ∨ ∃ op, a = .operator op ∧ (op.IsBinary ∨ op = .negation)
  apart : atoms.IsChain fun a b => ¬(a.isOperand = true ∧ b.isOperand = true)

inductive Phrase : List Atom → Prop where
  | operand {a : Atom} (operand : a.isOperand = true) : Phrase [a]
  | negated {as : List Atom} (phrase : Phrase as) : Phrase (.operator .negation :: as)

/-- Phrases with binary operators between them. -/
inductive Chain : List Atom → Prop where
  | phrase {as : List Atom} (phrase : Phrase as) : Chain as
  | joined {as bs : List Atom} {op : Operator} (chain : Chain as) (binary : op.IsBinary) (phrase : Phrase bs) :
      Chain (as ++ .operator op :: bs)

theorem Chain.negated {as : List Atom} (h : Chain as) : Chain (.operator .negation :: as) := by
  induction h with
  | phrase phrase => exact .phrase (.negated phrase)
  | joined chain binary phrase ih => exact .joined ih binary phrase

theorem Chain.follow {a : Atom} {op : Operator} {as : List Atom} (operand : a.isOperand = true)
    (binary : op.IsBinary) (h : Chain as) : Chain (a :: .operator op :: as) := by
  induction h with
  | phrase phrase => exact .joined (.phrase (.operand operand)) binary phrase
  | joined chain own phrase ih => exact .joined ih own phrase

theorem Chain.cases_first {as : List Atom} (h : Chain as) :
    (∃ a, a.isOperand = true ∧ as = [a]) ∨ (∃ rest, Chain rest ∧ as = .operator .negation :: rest) ∨
      ∃ a op rest, a.isOperand = true ∧ op.IsBinary ∧ Chain rest ∧ as = a :: .operator op :: rest := by
  induction h with
  | phrase phrase =>
    cases phrase with
    | operand operand => exact Or.inl ⟨_, operand, rfl⟩
    | negated phrase => exact Or.inr (Or.inl ⟨_, .phrase phrase, rfl⟩)
  | @joined as bs op chain binary phrase ih =>
    rcases ih with ⟨a, operand, rfl⟩ | ⟨rest, later, rfl⟩ | ⟨a, next, rest, operand, own, later, rfl⟩
    · exact Or.inr (Or.inr ⟨a, op, bs, operand, binary, .phrase phrase, rfl⟩)
    · exact Or.inr (Or.inl ⟨_, .joined later binary phrase, rfl⟩)
    · exact Or.inr (Or.inr ⟨a, next, _, operand, own, .joined later binary phrase, rfl⟩)

theorem Phrase.clause {as : List Atom} (h : Phrase as) : Clause as := by
  induction h with
  | operand operand => exact .operand operand
  | negated phrase ih => exact .before Operator.isInfix_negation ih

theorem Chain.clause {as : List Atom} (h : Chain as) : Clause as := by
  induction h with
  | phrase phrase => exact phrase.clause
  | joined chain binary phrase ih => exact ih.append binary.isInfix phrase.clause

theorem Row.of_append {as bs : List Atom} (h : Row (as ++ bs)) : Row as ∧ Row bs := by
  obtain ⟨first, second⟩ := List.forall_mem_append.1 h.pieces
  exact ⟨⟨first, h.apart.left_of_append⟩, ⟨second, h.apart.right_of_append⟩⟩

theorem Row.tail {a : Atom} {as : List Atom} (h : Row (a :: as)) : Row as := by
  have whole : Row ([a] ++ as) := h
  exact whole.of_append.2

theorem Row.kind {op : Operator} {as : List Atom} (h : Row (.operator op :: as)) :
    op.IsBinary ∨ op = .negation := by
  rcases h.pieces _ List.mem_cons_self with operand | ⟨other, same, kind⟩
  · cases operand
  · cases same
    exact kind

theorem Row.not_function {op : Operator} {as : List Atom} (h : Row (.operator op :: as)) :
    op.isFunction = false := by
  rcases h.kind with binary | rfl
  · exact binary.isInfix.function
  · rfl

theorem Row.single {as : List Atom} (h : Row as) (plain : ∀ a ∈ as, a.isPlain = true) :
    as = [] ∨ ∃ a, a.isOperand = true ∧ as = [a] := by
  have operand (a : Atom) (member : a ∈ as) : a.isOperand = true := by
    rcases h.pieces a member with operand | ⟨op, rfl, -⟩
    · exact operand
    · cases plain _ member
  rcases as with _ | ⟨a, _ | ⟨b, rest⟩⟩
  · exact Or.inl rfl
  · exact Or.inr ⟨a, operand a List.mem_cons_self, rfl⟩
  · have apart := (List.isChain_cons_cons.1 h.apart).1
    exact absurd ⟨operand a (by simp), operand b (by simp)⟩ apart

theorem Row.extend {op : Operator} {before after : List Atom} {right : Option Expr}
    (h : Row (before ++ .operator op :: after)) (plain : ∀ a ∈ before, a.isPlain = true)
    (fits : Expr.Fits op (Expr.operand before) right none) :
    right.isSome = true ∧ ∀ {as}, Chain as → Chain (before ++ .operator op :: as) := by
  obtain ⟨first, second⟩ := h.of_append
  obtain ⟨left, places, -⟩ := fits
  rcases second.kind with binary | rfl
  · rw [Expr.takes_infix binary.isInfix] at left places
    rcases first.single plain with rfl | ⟨a, operand, rfl⟩
    · cases left
    · exact ⟨places.symm, fun chain => .follow operand binary chain⟩
  · rw [Expr.takes_infix Operator.isInfix_negation] at left places
    rcases first.single plain with rfl | ⟨a, operand, rfl⟩
    · exact ⟨places.symm, fun chain => .negated chain⟩
    · cases left

theorem Row.cons {a : Atom} {op : Operator} {as : List Atom} (operand : a.isOperand = true)
    (h : Row (.operator op :: as)) : Row (a :: .operator op :: as) where
  pieces := List.forall_mem_cons.2 ⟨Or.inl operand, h.pieces⟩
  apart := List.isChain_cons_cons.2 ⟨fun both => (by cases both.2), h.apart⟩

theorem Row.chain {atoms : List Atom} {e : Expr} (formed : Expr.Formed atoms e) (row : Row atoms) :
    Chain atoms := by
  induction formed with
  | expr e => exact .phrase (.operand rfl)
  | parameter p => exact .phrase (.operand rfl)
  | column c => exact .phrase (.operand rfl)
  | call inner function =>
    rw [row.not_function] at function
    cases function
  | between function left right fits =>
    obtain ⟨present, extend⟩ := row.extend left fits
    have rest := row.of_append.2.tail
    rcases rest.single fun a member => (right a member).1 with rfl | ⟨b, operand, rfl⟩
    · cases present
    · exact extend (.phrase (.operand operand))
  | inner function left formed fits ih =>
    exact (row.extend left fits).2 (ih row.of_append.2.tail)
  | chain function left right nonempty fits formed ih =>
    obtain ⟨first, second⟩ := row.of_append.2.tail.of_append
    obtain ⟨b, operand, rfl⟩ := (first.single fun a member => (right a member).1).resolve_left nonempty
    -- What has been applied stands for a single operand, so the next operator takes one on its left.
    rcases (ih (second.cons rfl)).cases_first with
      ⟨a, -, same⟩ | ⟨rest, -, same⟩ | ⟨a, next, rest, -, binary, chain, same⟩
    · cases same
    · cases same
    · cases same
      exact (row.extend left fits).2 (chain.follow operand binary)

def alternating (first : Atom) (rest : List (Operator × Atom)) : List Atom :=
  first :: rest.flatMap fun x => [.operator x.1, x.2]

def joinedWith (left : Atom) (x : Operator × Atom) : Atom :=
  .expr (.apply x.1 (some (.run [left])) (some (.run [x.2])) none)

theorem Phrase.operand_of_not_mem {as : List Atom} (h : Phrase as) (positive : .operator .negation ∉ as) :
    ∃ a, a.isOperand = true ∧ as = [a] := by
  cases h with
  | operand operand => exact ⟨_, operand, rfl⟩
  | negated phrase => exact absurd List.mem_cons_self positive

theorem Chain.exists_alternating {as : List Atom} (h : Chain as) (positive : .operator .negation ∉ as) :
    ∃ first rest, first.isOperand = true ∧
      (∀ x ∈ rest, x.1.IsBinary ∧ x.2.isOperand = true) ∧ as = alternating first rest := by
  induction h with
  | phrase phrase =>
    obtain ⟨a, operand, rfl⟩ := phrase.operand_of_not_mem positive
    exact ⟨a, [], operand, nofun, rfl⟩
  | @joined as bs op chain binary phrase ih =>
    simp only [List.mem_append, List.mem_cons, not_or] at positive
    obtain ⟨b, operand, rfl⟩ := phrase.operand_of_not_mem positive.2.2
    obtain ⟨first, rest, own, pieces, rfl⟩ := ih positive.1
    refine ⟨first, rest ++ [(op, b)], own, ?_, by simp [alternating]⟩
    exact List.forall_mem_append.2 ⟨pieces, by simpa using ⟨binary, operand⟩⟩

end Atom

namespace Expr

open Atom

theorem fits_binary {op : Operator} (binary : op.IsBinary) (a b : Atom) :
    Fits op (some (.run [a])) (some (.run [b])) none := (applies_between (a := a) binary.isInfix (.run [b])).1

theorem stripped_binary {op : Operator} (binary : op.IsBinary) (a b : Atom) :
    Atom.expr (stripped op (some (.run [a])) (some (.run [b])) none) = joinedWith a (op, b) :=
  congrArg Atom.expr (stripped_between binary.isInfix a (.run [b]))

theorem ofAtoms_follow {a : Atom} {op : Operator} (operand : a.isOperand = true) (binary : op.IsBinary)
    (rest : List Atom) : ofAtoms (a :: .operator op :: rest) = Expr.between op rest (some (.run [a])) := by
  have split : splitAtOperator (a :: .operator op :: rest) = some ([a], op, rest) :=
    splitAtOperator_append [a] (by simp [isOperator_of_isOperand operand]) op rest
  rw [ofAtoms_between split binary.isInfix.function, plainOperand_of_isOperand operand]
  rfl

theorem ofAtoms_alternating {first : Atom} {x : Operator × Atom} {rest : List (Operator × Atom)}
    (operand : first.isOperand = true) (pieces : ∀ y ∈ x :: rest, y.1.IsBinary ∧ y.2.isOperand = true) :
    ∃ e, ofAtoms (alternating first (x :: rest)) = .ok e ∧
      .expr e = (x :: rest).foldl joinedWith first := by
  induction rest generalizing first x with
  | nil =>
    obtain ⟨binary, right⟩ := pieces x List.mem_cons_self
    have fits := fits_binary binary first x.2
    exact ⟨_, (ofAtoms_follow operand binary [x.2]).trans (between_operand right fits),
      stripped_binary binary first x.2⟩
  | cons y rest ih =>
    obtain ⟨⟨binary, right⟩, later⟩ := List.forall_mem_cons.1 pieces
    have fits := fits_binary binary first x.2
    have applied : (joinedWith first x).isOperand = true := rfl
    obtain ⟨e, built, folded⟩ := ih applied later
    refine ⟨e, (ofAtoms_follow operand binary _).trans (between_next right fits ?_), folded⟩
    rw [stripped_binary binary]
    exact built

/-- A row of operands, binary operators and negations forms an expression exactly if it is a chain: negated
    operands with binary operators between them. The expression is written as what stands in the row, with
    blanks in between. Without negations each operator is applied to what the ones before it have formed. -/
theorem ofAtoms_row {atoms : List Atom} (row : Row atoms) :
    ((∃ e, ofAtoms atoms = .ok e) ↔ Chain atoms) ∧
      ∀ e, ofAtoms atoms = .ok e →
        (∀ d, e.render d = Text.join " " (atoms.map (Atom.render d))) ∧
          (.operator .negation ∉ atoms → (∃ op, .operator op ∈ atoms) →
            ∃ first rest, atoms = alternating first rest ∧ .expr e = rest.foldl joinedWith first) := by
  refine ⟨⟨fun ⟨e, built⟩ => row.chain (formed_of_ofAtoms built), fun chain => ?_⟩, fun e built => ⟨?_, ?_⟩⟩
  · obtain ⟨e, built, -⟩ := chain.clause.formed
    exact ⟨e, built⟩
  · obtain ⟨f, also, written⟩ := (row.chain (formed_of_ofAtoms built)).clause.formed
    cases built.symm.trans also
    exact written.render
  · intro positive ⟨op, member⟩
    obtain ⟨first, rest, operand, pieces, rfl⟩ :=
      (row.chain (formed_of_ofAtoms built)).exists_alternating positive
    cases rest with
    | nil =>
      cases List.mem_singleton.1 member
      cases operand
    | cons x rest =>
      obtain ⟨f, also, folded⟩ := ofAtoms_alternating operand pieces
      cases built.symm.trans also
      exact ⟨first, x :: rest, rfl, folded⟩

theorem ofAtoms_row_negated :
    let add := Operator.alike .arithmetic "add" "+" Operator.Form.between
    let equal := Operator.alike .logical "eq" "=" Operator.Form.between
    let a : Column := ⟨none, "a"⟩
    let p : Parameter := ⟨"p", .int 1⟩
    let plain := [.column a, .operator add, .parameter p, .operator equal, .column a]
    let negated := [.operator .negation, .column a, .operator equal, .operator .negation, .operator .negation,
      .parameter p]
    (Row plain ∧ ∃ e, ofAtoms plain = .ok e ∧
      ∃ first rest, plain = alternating first rest ∧ .expr e = rest.foldl joinedWith first) ∧
      Row negated ∧ Chain negated ∧ ∃ e, ofAtoms negated = .ok e ∧
        e.render .filter = Text.join " " (negated.map (Atom.render .filter)) := by
  intro add equal a p plain negated
  have binaryAdd : add.IsBinary := ⟨by decide +kernel, rfl⟩
  have binaryEqual : equal.IsBinary := ⟨by decide +kernel, rfl⟩
  have rowPlain : Row plain :=
    ⟨by simp [plain, Atom.isOperand, binaryAdd, binaryEqual], by simp [plain, Atom.isOperand]⟩
  have rowNegated : Row negated :=
    ⟨by simp [negated, Atom.isOperand, binaryEqual], by simp [negated, Atom.isOperand]⟩
  obtain ⟨e, built⟩ := exists_of_toBool (show (ofAtoms plain).toBool = true by decide +kernel)
  obtain ⟨f, joined⟩ := exists_of_toBool (show (ofAtoms negated).toBool = true by decide +kernel)
  have others : Operator.negation ≠ add ∧ Operator.negation ≠ equal := by decide +kernel
  have positive : .operator .negation ∉ plain := by simpa [plain] using others
  have some : ∃ op, .operator op ∈ plain := ⟨add, by simp [plain]⟩
  obtain ⟨-, onPlain⟩ := ofAtoms_row rowPlain
  obtain ⟨chain, onNegated⟩ := ofAtoms_row rowNegated
  exact ⟨⟨rowPlain, e, built, (onPlain e built).2 positive some⟩, rowNegated, chain.1 ⟨f, joined⟩, f, joined,
    (onNegated f joined).1 .filter⟩

end Expr

end WhereClause
