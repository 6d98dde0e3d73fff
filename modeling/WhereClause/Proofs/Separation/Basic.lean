import WhereClause.Proofs.Expr.Formed
import WhereClause.Proofs.Expr.Induction

namespace WhereClause

inductive Sign where
  | operand
  | operator
  | comma
deriving DecidableEq

namespace Sign

def glued : List Sign → Bool
  | [] => false
  | s :: rest => (s = .operand && rest.head? = some .operand) || glued rest

def strayComma : List Sign → Bool
  | [] => false
  | .operator :: _ => false
  | .comma :: _ => true
  | .operand :: rest => strayComma rest

def Separated (signs : List Sign) : Prop := glued signs = false ∧ strayComma signs = false

instance (signs : List Sign) : Decidable (Separated signs) := inferInstanceAs (Decidable (_ ∧ _))

@[simp] theorem separated_nil : Separated [] := ⟨rfl, rfl⟩

@[simp] theorem separated_operand : Separated [.operand] := ⟨rfl, rfl⟩

theorem glued_append {s : Sign} (apart : s ≠ .operand) (before after : List Sign) :
    glued (before ++ s :: after) = (glued before || glued after) := by
  induction before with
  | nil => simp [glued, apart]
  | cons first before ih =>
    cases before with
    | nil => simp [glued, apart]
    | cons second before =>
      have whole : glued (first :: (second :: before)) =
          ((first = .operand && second = .operand) || glued (second :: before)) := by simp [glued]
      rw [whole, List.cons_append, glued, ih]
      simp [Bool.or_assoc]

end Sign

namespace Atom

def sign : Atom → Sign
  | .operator _ => .operator
  | .comma => .comma
  | _ => .operand

def isSingle : List Atom → Bool
  | [a] => !a.isComma
  | _ => false

theorem sign_of_isComma {a : Atom} (h : a.isComma = true) : a.sign = .comma := by
  cases a <;> first | rfl | cases h

theorem sign_ne_comma {a : Atom} (h : a.isComma = false) : a.sign ≠ .comma := by
  cases a <;> simp_all [sign, isComma]

theorem sign_eq_operand {a : Atom} (operator : a.isOperator = false) (comma : a.isComma = false) :
    a.sign = .operand := by
  cases a <;> simp_all [sign, isComma, isOperator, operator?]

theorem separated_iff {atoms : List Atom} (operators : ∀ a ∈ atoms, a.isOperator = false) :
    Sign.glued (atoms.map sign) = false ∧ atoms.any isComma = false ↔
      atoms = [] ∨ isSingle atoms = true := by
  cases atoms with
  | nil => simp [Sign.glued]
  | cons a as =>
    cases as with
    | nil => simp [Sign.glued, isSingle]
    | cons b bs =>
      simp only [isSingle, reduceCtorEq, Bool.false_eq_true, or_self, iff_false, not_and]
      intro apart
      have first := operators a List.mem_cons_self
      have second := operators b (List.mem_cons_of_mem _ List.mem_cons_self)
      cases left : a.isComma with
      | true => simp [left]
      | false =>
        cases right : b.isComma with
        | true => simp [right]
        | false =>
          have glued : Sign.glued ((a :: b :: bs).map sign) = true := by
            simp [Sign.glued, sign_eq_operand first left, sign_eq_operand second right]
          rw [glued] at apart
          cases apart

theorem strayComma_append {before : List Atom} (operators : ∀ a ∈ before, a.isOperator = false)
    (after : List Sign) :
    Sign.strayComma (before.map sign ++ .operator :: after) = before.any isComma := by
  induction before with
  | nil => rfl
  | cons a as ih =>
    have rest := ih fun b member => operators b (List.mem_cons_of_mem _ member)
    have own := operators a List.mem_cons_self
    cases comma : a.isComma with
    | true => simp [sign_of_isComma comma, Sign.strayComma, comma]
    | false => simp [sign_eq_operand own comma, Sign.strayComma, comma, rest]

theorem strayComma_of_none {atoms : List Atom} (h : ∀ a ∈ atoms, a.isComma = false) :
    Sign.strayComma (atoms.map sign) = false := by
  induction atoms with
  | nil => rfl
  | cons a as ih =>
    have rest := ih fun b member => h b (List.mem_cons_of_mem _ member)
    have own := sign_ne_comma (h a List.mem_cons_self)
    cases sign : a.sign with
    | operand => simpa [sign, Sign.strayComma] using rest
    | operator => simp [sign, Sign.strayComma]
    | comma => exact absurd sign own

theorem isComma_of_mem_commaParts {atoms part : List Atom} (h : part ∈ commaParts atoms) :
    ∀ a ∈ part, a.isComma = false := by
  induction atoms generalizing part with
  | nil => simp_all [commaParts]
  | cons a as ih =>
    simp only [commaParts] at h
    split at h
    · rcases List.mem_cons.1 h with rfl | later
      · simp
      · exact ih later
    · next comma =>
      split at h
      · simp_all
      · next first rest found =>
        rw [found] at ih
        rcases List.mem_cons.1 h with rfl | later
        · intro b member
          rcases List.mem_cons.1 member with rfl | member
          · simpa using comma
          · exact ih List.mem_cons_self b member
        · exact ih (List.mem_cons_of_mem _ later)

theorem head_commaParts {atoms first : List Atom} {rest : List (List Atom)}
    (h : commaParts atoms = first :: rest) :
    (first.map sign).head? = some .operand ↔ (atoms.map sign).head? = some .operand := by
  cases atoms with
  | nil => simp_all [commaParts]
  | cons a as =>
    simp only [commaParts] at h
    split at h
    · next comma =>
      cases h
      simp [sign_of_isComma comma]
    · split at h
      · cases h
        simp
      · cases h
        simp

theorem glued_commaParts (atoms : List Atom) :
    Sign.glued (atoms.map sign) = false ↔
      ∀ part ∈ commaParts atoms, Sign.glued (part.map sign) = false := by
  induction atoms with
  | nil => simp [commaParts, Sign.glued]
  | cons a as ih =>
    simp only [commaParts]
    split
    · next comma => simp [Sign.glued, sign_of_isComma comma, ih]
    · next comma =>
      split
      · next none => exact absurd none (commaParts_ne_nil as)
      · next first rest found =>
        rw [found] at ih
        simp only [List.map_cons, Sign.glued, Bool.or_eq_false_iff, ih, List.forall_mem_cons,
          and_assoc, head_commaParts found]

end Atom

mutual

def Expr.runs : Expr → List (List Atom)
  | .apply _ left right third =>
    Expr.operandRuns left ++ Expr.operandRuns right ++ Expr.operandRuns third
  | .group inner => inner.runs
  | .run atoms => atoms :: Atom.runsOf atoms
  | .nested c => c.runs

def Expr.operandRuns : Option Expr → List (List Atom)
  | none => []
  | some e => e.runs

def Atom.runs : Atom → List (List Atom)
  | .expr e => e.runs
  | _ => []

def Atom.runsOf : List Atom → List (List Atom)
  | [] => []
  | a :: as => a.runs ++ Atom.runsOf as

def Condition.runs : Condition → List (List Atom)
  | .empty => []
  | .test e => e.runs
  | .all parts => Condition.runsOf parts
  | .any parts => Condition.runsOf parts

def Condition.runsOf : List Condition → List (List Atom)
  | [] => []
  | c :: cs => c.runs ++ Condition.runsOf cs

end

@[simp] theorem Atom.runsOf_eq (as : List Atom) : runsOf as = as.flatMap runs := by
  induction as with
  | nil => rfl
  | cons a as ih => simp [runsOf, ih]

@[simp] theorem Condition.runsOf_eq (cs : List Condition) : runsOf cs = cs.flatMap runs := by
  induction cs with
  | nil => rfl
  | cons c cs ih => simp [runsOf, ih]

/-- Every run in it is a single atom that is no comma. -/
def Expr.Lone (e : Expr) : Prop := ∀ run ∈ e.runs, Atom.isSingle run = true

def Expr.OperandLone (e : Option Expr) : Prop := ∀ inner ∈ e, inner.Lone

def Atom.Lone (a : Atom) : Prop := ∀ run ∈ a.runs, isSingle run = true

def Condition.Lone (c : Condition) : Prop := ∀ run ∈ c.runs, Atom.isSingle run = true

namespace Expr

open Atom

theorem lone_run {atoms : List Atom} :
    (Expr.run atoms).Lone ↔ isSingle atoms = true ∧ ∀ a ∈ atoms, a.Lone := by
  simp only [Lone, runs, runsOf_eq, List.forall_mem_cons, List.mem_flatMap, Atom.Lone]
  exact and_congr_right fun _ =>
    ⟨fun h a member run inside => h run ⟨a, member, inside⟩,
      fun h run ⟨a, member, inside⟩ => h a member run inside⟩

theorem operandLone_operand {atoms : List Atom} :
    OperandLone (operand atoms) ↔ (atoms = [] ∨ isSingle atoms = true) ∧ ∀ a ∈ atoms, a.Lone := by
  unfold operand
  cases atoms with
  | nil => simp [OperandLone]
  | cons a as => simp [OperandLone, lone_run]

theorem lone_ungrouped (e : Expr) : e.ungrouped.Lone ↔ e.Lone := by
  induction e using Expr.ungrouped.induct with
  | case1 inner ih => simpa [ungrouped, Lone, runs] using ih
  | case2 e single => rw [ungrouped]; simpa using single

theorem lone_strip (template : String) (slot : Slot) (e : Expr) :
    (strip template slot e).Lone ↔ e.Lone := by
  unfold strip
  split
  · split
    · next inner =>
      rw [lone_ungrouped, lone_run]
      simp [isSingle, isComma, Atom.Lone, Atom.runs, Lone, runs]
    · next inner =>
      rw [lone_ungrouped]
      simp [Lone, runs]
    · rfl
  · rfl

theorem lone_stripped (op : Operator) (left right third : Option Expr) :
    (stripped op left right third).Lone ↔
      OperandLone left ∧ OperandLone right ∧ OperandLone third := by
  have operand (template : String) (slot : Slot) (e : Option Expr) :
      (∀ run ∈ operandRuns (e.map (strip template slot)), isSingle run = true) ↔ OperandLone e := by
    cases e with
    | none => simp [operandRuns, OperandLone]
    | some inner =>
      have same := lone_strip template slot inner
      simpa [operandRuns, OperandLone, Lone] using same
  simp only [stripped, Lone, runs, List.forall_mem_append, operand, and_assoc]

theorem lone_argument {atoms : List Atom} {inner : Expr}
    (commas : ∀ a ∈ atoms, a.isComma = false)
    (formed : atoms.any isOperator = true →
      (inner.Lone ↔ (∀ a ∈ atoms, a.Lone) ∧ Sign.Separated (atoms.map sign))) :
    OperandLone (argumentOf atoms inner) ↔
      (∀ a ∈ atoms, a.Lone) ∧ Sign.glued (atoms.map sign) = false := by
  unfold argumentOf
  split
  · next operators =>
    have stray := strayComma_of_none commas
    simp [OperandLone, formed operators, Sign.Separated, stray]
  · next operators =>
    have none : atoms.any isComma = false := by simpa using commas
    have bare : ∀ a ∈ atoms, a.isOperator = false := by simpa using operators
    rw [operandLone_operand, ← separated_iff bare, none]
    simp [and_comm]

theorem operandLone_plain {atoms : List Atom} (operators : ∀ a ∈ atoms, a.isOperator = false) :
    OperandLone (operand atoms) ↔
      (∀ a ∈ atoms, a.Lone) ∧ Sign.glued (atoms.map sign) = false ∧ atoms.any isComma = false := by
  rw [operandLone_operand, ← separated_iff operators, and_comm]

theorem bare_of_plain {atoms : List Atom} (h : ∀ a ∈ atoms, a.isPlain = true) :
    ∀ a ∈ atoms, a.isOperator = false := fun a member => by simp_all [isPlain]

theorem separated_operator {before : List Atom} (plain : ∀ a ∈ before, a.isPlain = true)
    (op : Operator) (after : List Atom) :
    Sign.Separated ((before ++ .operator op :: after).map sign) ↔
      (Sign.glued (before.map sign) = false ∧ before.any isComma = false) ∧
        Sign.glued (after.map sign) = false := by
  have parted := Sign.glued_append (s := .operator) (by decide) (before.map sign) (after.map sign)
  have stray := strayComma_append (bare_of_plain plain) (after.map sign)
  rw [List.map_append, List.map_cons, show (Atom.operator op).sign = .operator from rfl]
  rw [Sign.Separated, parted, stray, Bool.or_eq_false_iff]
  exact and_right_comm

theorem forall_operator (before after : List Atom) (op : Operator) :
    (∀ a ∈ before ++ .operator op :: after, a.Lone) ↔ (∀ a ∈ before, a.Lone) ∧ ∀ a ∈ after, a.Lone := by
  have own : (Atom.operator op).Lone := nofun
  simp only [List.forall_mem_append, List.forall_mem_cons, own, true_and]

theorem separated_leading (op : Operator) (after : List Atom) :
    Sign.Separated ((.operator op :: after).map sign) ↔ Sign.glued (after.map sign) = false := by
  simp [Sign.Separated, Sign.glued, Sign.strayComma, sign]

theorem lone_call {op : Operator} {after : List Atom} {args : Arguments} {inner : Slot → Expr}
    (read : Arguments.read op after = .ok args)
    (formed : ∀ slot, (args.get slot).any isOperator = true →
      ((inner slot).Lone ↔
        (∀ a ∈ args.get slot, a.Lone) ∧ Sign.Separated ((args.get slot).map sign))) :
    (stripped op (argumentOf args.left (inner .left)) (argumentOf args.right (inner .right))
        (argumentOf args.third (inner .third))).Lone ↔
      (∀ a ∈ .operator op :: after, a.Lone) ∧ Sign.Separated ((.operator op :: after).map sign) := by
  have commas (slot : Slot) : ∀ a ∈ args.get slot, a.isComma = false :=
    (Arguments.forall_parts read (p := fun part => ∀ a ∈ part, a.isComma = false)
      (by simp)).1 (fun _ => isComma_of_mem_commaParts) slot
  have slots (slot : Slot) := lone_argument (commas slot) (formed slot)
  have comma (a : Atom) (h : a.isComma = true) : a.Lone := by
    cases a with
    | comma => nofun
    | _ => cases h
  have alone := Arguments.forall_atoms read comma
  have apart := Arguments.forall_parts read (p := fun part => Sign.glued (part.map sign) = false) rfl
  have every : (∀ a ∈ .operator op :: after, a.Lone) ↔ ∀ a ∈ after, a.Lone :=
    (forall_operator [] after op).trans (by simp)
  rw [lone_stripped, every, separated_leading, glued_commaParts, apart, ← alone]
  constructor
  · rintro ⟨left, right, third⟩
    have both (slot : Slot) : OperandLone (argumentOf (args.get slot) (inner slot)) := by
      cases slot <;> assumption
    exact ⟨fun slot => ((slots slot).1 (both slot)).1, fun slot => ((slots slot).1 (both slot)).2⟩
  · rintro ⟨alone, apart⟩
    have both (slot : Slot) := (slots slot).2 ⟨alone slot, apart slot⟩
    exact ⟨both .left, both .right, both .third⟩

theorem lone_between {op : Operator} {before after : List Atom}
    (left : ∀ a ∈ before, a.isPlain = true)
    (right : ∀ a ∈ after, a.isPlain = true ∧ a.isComma = false) :
    (stripped op (operand before) (operand after) none).Lone ↔
      ((∀ a ∈ before, a.Lone) ∧ ∀ a ∈ after, a.Lone) ∧
        (Sign.glued (before.map sign) = false ∧ before.any isComma = false) ∧
        Sign.glued (after.map sign) = false := by
  have absent : OperandLone none := nofun
  have commas : after.any isComma = false := by simpa using fun a member => (right a member).2
  have bare := bare_of_plain fun a member => (right a member).1
  rw [lone_stripped, operandLone_plain (bare_of_plain left), operandLone_plain bare, commas]
  simp only [absent, and_true]
  exact and_and_and_comm

/-- An expression has no runs of several atoms exactly if no atoms stand side by side without an operator
    and no comma stands on the left of one. -/
theorem Formed.lone_iff {atoms : List Atom} {e : Expr} (h : Formed atoms e) :
    e.Lone ↔ (∀ a ∈ atoms, a.Lone) ∧ Sign.Separated (atoms.map sign) := by
  induction h with
  | expr e =>
    simp [Atom.Lone, Atom.runs, Lone, Sign.Separated, Sign.glued, Sign.strayComma, sign]
  | parameter p =>
    simp [lone_run, isSingle, isComma, Sign.Separated, Sign.glued, Sign.strayComma, sign]
  | column c =>
    simp [lone_run, isSingle, isComma, Sign.Separated, Sign.glued, Sign.strayComma, sign]
  | call inner function read given formed fits ih => exact lone_call read ih
  | between function left right fits =>
    rw [lone_between left right, forall_operator, separated_operator left]
  | @inner op next before further right function left formed fits ih =>
    have absent : OperandLone none := nofun
    have delegated := ih.trans (and_congr_right fun _ => separated_leading next further)
    have operand : OperandLone (some right) ↔ right.Lone := by simp [OperandLone]
    have first : Sign.glued ((Atom.operator next :: further).map sign) =
      Sign.glued (further.map sign) := by simp [Sign.glued, sign]
    rw [lone_stripped, operandLone_plain (bare_of_plain left), operand, delegated,
      separated_operator left, forall_operator, first]
    simp only [absent, and_true]
    exact and_and_and_comm
  | @chain op next before middle further e function left right nonempty fits formed ih =>
    -- What the first operator is applied to counts as one operand from here on.
    have current : (Atom.expr (stripped op (operand before) (operand middle) none)).Lone ↔ _ :=
      lone_between left right
    have every := forall_operator [.expr (stripped op (operand before) (operand middle) none)] further next
    simp only [List.cons_append, List.nil_append, List.forall_mem_singleton, current] at every
    have rest : Sign.Separated ((.expr (stripped op (operand before) (operand middle) none) ::
        .operator next :: further).map sign) ↔ Sign.glued (further.map sign) = false := by
      simp [Sign.Separated, Sign.glued, Sign.strayComma, sign]
    have parted := Sign.glued_append (s := .operator) (by decide) (middle.map sign) (further.map sign)
    have later : Sign.glued ((middle ++ .operator next :: further).map sign) = false ↔
        Sign.glued (middle.map sign) = false ∧ Sign.glued (further.map sign) = false := by
      rw [List.map_append, List.map_cons, ← Bool.or_eq_false_iff, ← parted]
      rfl
    rw [ih, rest, every, separated_operator left, forall_operator, forall_operator, later]
    grind

end Expr

end WhereClause
