import WhereClause.Proofs.Outline.Filled
import WhereClause.Proofs.Resolution.Basic
import WhereClause.Proofs.RoundTrip.Call
import WhereClause.Proofs.RoundTrip.Leaf

namespace WhereClause

mutual

/-- Whether what is written for an expression can be read again: every operand is a single one, and every word is
    read back by the vocabulary. -/
def Expr.Written (v : Vocabulary) : Expr → Prop
  | .apply op left right third =>
    op ∈ Operator.implemented ∧ op.isSpoken = true ∧ Expr.Fits op left right third ∧
      (∀ slot, Template.encloses (op.template .filter third.isSome) slot = true →
        ∀ e ∈ Expr.slotted left right third slot, e.isGrouped = false) ∧
      Expr.OperandWritten v left ∧ Expr.OperandWritten v right ∧ Expr.OperandWritten v third
  | .group inner => inner.Written v
  | .run atoms => Atom.AloneWritten v atoms
  | .nested c => c.IsJoined ∧ c.Written v

def Expr.OperandWritten (v : Vocabulary) : Option Expr → Prop
  | none => True
  | some e => e.Written v

def Atom.Written (v : Vocabulary) : Atom → Prop
  | .expr e => e.Written v
  | a => a.isOperand = true ∧ a.lexeme.Leaf v

def Atom.AloneWritten (v : Vocabulary) : List Atom → Prop
  | [a] => a.Written v
  | _ => False

def Condition.Written (v : Vocabulary) : Condition → Prop
  | .empty => True
  | .test e => e.Written v
  | .all parts => 2 ≤ parts.length ∧ (∀ c ∈ parts, c.Proper) ∧ Condition.AllWritten v parts
  | .any parts => 2 ≤ parts.length ∧ (∀ c ∈ parts, c.Proper) ∧ Condition.AllWritten v parts

def Condition.AllWritten (v : Vocabulary) : List Condition → Prop
  | [] => True
  | c :: cs => c.Written v ∧ Condition.AllWritten v cs

end

def Atom.IsRead (v : Vocabulary) : Atom → Prop
  | .operator op => op.isSpoken = true
  | .parameter p => (Atom.parameter p).lexeme.Leaf v
  | .column c => (Atom.column c).lexeme.Leaf v
  | _ => True

structure Legible (v : Vocabulary) (runs : List (List Atom)) (joins : List (Junction × List Condition))
    (reading : List Atom) : Prop where
  runs : ∀ run ∈ runs, Atom.isSingle run = true ∧ ∀ a ∈ run, a.isPlain = true
  joins : ∀ join ∈ joins, 2 ≤ join.2.length ∧ ∀ c ∈ join.2, c.Proper
  reading : ∀ a ∈ reading, a.IsRead v

theorem legible_append {v : Vocabulary} {runs others : List (List Atom)}
    {joins further : List (Junction × List Condition)} {reading rest : List Atom} :
    Legible v (runs ++ others) (joins ++ further) (reading ++ rest) ↔
      Legible v runs joins reading ∧ Legible v others further rest := by
  constructor
  · rintro ⟨runs, joins, reading⟩
    rw [List.forall_mem_append] at runs joins reading
    exact ⟨⟨runs.1, joins.1, reading.1⟩, ⟨runs.2, joins.2, reading.2⟩⟩
  · rintro ⟨first, second⟩
    exact ⟨List.forall_mem_append.2 ⟨first.runs, second.runs⟩,
      List.forall_mem_append.2 ⟨first.joins, second.joins⟩,
      List.forall_mem_append.2 ⟨first.reading, second.reading⟩⟩

theorem Expr.legible_apply {v : Vocabulary} {op : Operator} {left right third : Option Expr}
    (h : Legible v (Expr.apply op left right third).runs (Expr.apply op left right third).joins
      (Expr.apply op left right third).reading) :
    op.isSpoken = true ∧ Legible v (operandRuns left) (operandJoins left) (operandReading left) ∧
      Legible v (operandRuns right) (operandJoins right) (operandReading right) ∧
      Legible v (operandRuns third) (operandJoins third) (operandReading third) := by
  -- Where the operator stands among its operands makes no difference to which atoms are read.
  have order : ∀ a, a ∈ (Expr.apply op left right third).reading ↔
      a ∈ .operator op :: (operandReading left ++ operandReading right ++ operandReading third) := by
    intro a
    rw [reading]
    split
    · rfl
    · simp only [List.mem_append, List.mem_cons]
      grind
  have words := fun a member => h.reading a ((order a).2 member)
  obtain ⟨spoken, rest⟩ := List.forall_mem_cons.1 words
  have all : Legible v (operandRuns left ++ operandRuns right ++ operandRuns third)
      (operandJoins left ++ operandJoins right ++ operandJoins third)
      (operandReading left ++ operandReading right ++ operandReading third) := ⟨h.runs, h.joins, rest⟩
  rw [legible_append, legible_append] at all
  exact ⟨spoken, all.1.1, all.1.2, all.2⟩

theorem written_of_legible (v : Vocabulary) : Induction
    (fun e => e.Filled → e.Tidy → Legible v e.runs e.joins e.reading → e.Written v)
    (fun e => Expr.OperandFilled e → Expr.OperandTidy e →
      Legible v (Expr.operandRuns e) (Expr.operandJoins e) (Expr.operandReading e) → Expr.OperandWritten v e)
    (fun a => a.isPlain = true → a.isComma = false → a.Filled → a.Tidy →
      Legible v a.runs a.joins a.reading → a.Written v)
    (fun as => Atom.isSingle as = true → (∀ a ∈ as, a.isPlain = true) → Atom.AllFilled as →
      Atom.AllTidy as → Legible v (Atom.runsOf as) (Atom.joinsOf as) (Atom.readingOf as) →
      Atom.AloneWritten v as)
    (fun c => c.Filled → c.Tidy → Legible v c.runs c.joins c.reading → c.Written v)
    (fun cs => Condition.AllFilled cs → Condition.AllTidy cs →
      Legible v (Condition.runsOf cs) (Condition.joinsOf cs) (Condition.readingOf cs) →
      Condition.AllWritten v cs) where
  apply op left right third first second last := by
    rintro ⟨known, fits, leftFilled, rightFilled, thirdFilled⟩ ⟨bare, leftTidy, rightTidy, thirdTidy⟩ h
    obtain ⟨spoken, leftRead, rightRead, thirdRead⟩ := Expr.legible_apply h
    exact ⟨known, spoken, fits, bare, first leftFilled leftTidy leftRead,
      second rightFilled rightTidy rightRead, last thirdFilled thirdTidy thirdRead⟩
  group e h := h
  run as ih filled tidy h := by
    obtain ⟨own, below⟩ := List.forall_mem_cons.1 h.runs
    exact ih own.1 own.2 filled tidy ⟨below, h.joins, h.reading⟩
  nested c ih filled tidy h := ⟨tidy.1, ih filled tidy.2 h⟩
  absent _ _ _ := trivial
  present e h := h
  operator op plain := by cases plain
  parameter p _ _ _ _ h := ⟨rfl, h.reading _ List.mem_cons_self⟩
  column c _ _ _ _ h := ⟨rfl, h.reading _ List.mem_cons_self⟩
  comma _ comma := by cases comma
  unknown t plain := by cases plain
  inner e ih _ _ filled tidy h := ih filled tidy.1 h
  noAtoms single := by cases single
  moreAtoms a as ih _ single plain filled tidy h := by
    cases as with
    | nil =>
      have comma : a.isComma = false := by simpa [Atom.isSingle] using single
      refine ih (plain a List.mem_cons_self) comma filled.1 tidy.1 ?_
      simpa [Atom.runsOf, Atom.joinsOf, Atom.readingOf] using h
    | cons b as => cases single
  empty _ _ _ := trivial
  test e h := h
  all cs ih filled tidy h := by
    obtain ⟨own, below⟩ := List.forall_mem_cons.1 h.joins
    exact ⟨own.1, own.2, ih filled tidy ⟨h.runs, below, h.reading⟩⟩
  any cs ih filled tidy h := by
    obtain ⟨own, below⟩ := List.forall_mem_cons.1 h.joins
    exact ⟨own.1, own.2, ih filled tidy ⟨h.runs, below, h.reading⟩⟩
  noParts _ _ _ := trivial
  moreParts c cs first rest filled tidy h := by
    obtain ⟨own, later⟩ := legible_append.1 h
    exact ⟨first filled.1 tidy.1 own, rest filled.2 tidy.2 later⟩

theorem Atom.operator?_of_ofToken {v : Vocabulary} {name : String} {t : Token} {op : Operator}
    (h : ofToken v name t = .operator op) : t.operator? = some op := by
  unfold ofToken at h
  split at h
  · next found =>
    cases h
    exact found
  · split at h
    · cases h
    · split at h
      · cases h
      · split at h
        · cases h
        · split at h <;> cases h

theorem Token.operator?_of_mem_meanings {v : Vocabulary} {stem : String} {op : Operator} {ts : List Token}
    {n : Nat} (h : .operator op ∈ meanings v stem n ts) : ∃ t ∈ ts, t.operator? = some op := by
  induction ts generalizing n with
  | nil => cases h
  | cons t ts ih =>
    rcases List.mem_cons.1 h with same | later
    · refine ⟨t, List.mem_cons_self, ?_⟩
      exact Atom.operator?_of_ofToken same.symm
    · obtain ⟨u, member, found⟩ := ih later
      exact ⟨u, List.mem_cons_of_mem _ member, found⟩

namespace Condition

variable {v : Vocabulary} {filter : String} {c : Condition} (h : (compile .default v filter).result = .ok c)

include h

theorem isSpoken_of_compile : ∀ op, .operator op ∈ c.reading → op.isSpoken = true := by
  obtain ⟨tokens, scanned, whole⟩ := exists_meanings h
  intro op member
  rw [whole] at member
  obtain ⟨t, inside, found⟩ := Token.operator?_of_mem_meanings member
  obtain ⟨listed, content⟩ := List.mem_filter.1 inside
  have junction : t.junction? = none := by
    have all := content
    simp only [Token.isContent, Bool.and_eq_true, Option.isNone_iff_eq_none] at all
    exact all.2
  exact Operator.isSpoken_of_find? (Token.Scan.tokens_of_complete scanned ▸ listed) found junction

theorem numbered_of_compile :
    ∀ i p, c.parameters[i]? = some p → p.name = Parameter.numbered Settings.default.stem i := by
  obtain ⟨tokens, -, whole⟩ := exists_meanings h
  intro i p found
  rw [parameters_of_meanings whole, List.getElem?_mapIdx] at found
  obtain ⟨x, -, rfl⟩ := Option.map_eq_some_iff.1 found
  rfl

theorem written_of_compile (lone : c.Lone) {reader : Vocabulary}
    (columns : ∀ column, .column column ∈ c.reading → reader.ReadsColumn column)
    (parameters : ∀ p ∈ c.parameters, reader.ReadsParameter p) : c.Written reader := by
  refine (written_of_legible reader).ofCondition c (filled_of_compile h) (tidy_of_compile h) ⟨?_, ?_, ?_⟩
  · exact fun run member => ⟨lone run member, resolved_of_compile h run member⟩
  · exact (joins_of_compile h).2
  · intro a member
    cases a with
    | operator op => exact isSpoken_of_compile h op member
    | parameter p =>
      have listed : p ∈ c.parameters := by
        rw [parameters_eq_reading.ofCondition c]
        exact List.mem_filterMap.2 ⟨_, member, rfl⟩
      obtain ⟨i, found⟩ := List.mem_iff_getElem?.1 listed
      exact Atom.leaf_parameter (numbered_of_compile h i p found) (parameters p listed)
    | column column => exact Atom.leaf_column (columns column member)
    | _ => trivial

end Condition

end WhereClause
