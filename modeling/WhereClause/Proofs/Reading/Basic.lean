import WhereClause.Expr.Parameters
import WhereClause.Proofs.Expr.Gather
import WhereClause.Proofs.Expr.Induction

namespace WhereClause

mutual

/-- The operators, parameters and columns of an expression from left to right. A function stands before
    its operands, any other operator after the left one. -/
def Expr.reading : Expr → List Atom
  | .apply op left right third =>
    if op.isFunction then
      .operator op ::
        (Expr.operandReading left ++ Expr.operandReading right ++ Expr.operandReading third)
    else
      Expr.operandReading left ++
        .operator op :: (Expr.operandReading right ++ Expr.operandReading third)
  | .group inner => inner.reading
  | .run atoms => Atom.readingOf atoms
  | .nested c => c.reading

def Expr.operandReading : Option Expr → List Atom
  | none => []
  | some e => e.reading

def Atom.reading : Atom → List Atom
  | .comma => []
  | .expr e => e.reading
  | a => [a]

def Atom.readingOf : List Atom → List Atom
  | [] => []
  | a :: as => a.reading ++ Atom.readingOf as

def Condition.reading : Condition → List Atom
  | .empty => []
  | .test e => e.reading
  | .all parts => Condition.readingOf parts
  | .any parts => Condition.readingOf parts

def Condition.readingOf : List Condition → List Atom
  | [] => []
  | c :: cs => c.reading ++ Condition.readingOf cs

end

@[simp] theorem Atom.readingOf_eq (as : List Atom) : readingOf as = as.flatMap reading := by
  induction as with
  | nil => rfl
  | cons a as ih => simp [readingOf, ih]

@[simp] theorem Condition.readingOf_eq (cs : List Condition) : readingOf cs = cs.flatMap reading := by
  induction cs with
  | nil => rfl
  | cons c cs ih => simp [readingOf, ih]

theorem gathers_reading : Gathers Expr.reading Expr.operandReading Atom.reading where
  function op left right third function := by simp [Expr.reading, function, Atom.reading]
  between op left right third function := by simp [Expr.reading, function, Atom.reading]
  group _ := rfl
  run as := Atom.readingOf_eq as
  absent := rfl
  present _ := rfl
  comma := rfl
  inner _ := rfl

theorem Expr.Formed.reading {atoms : List Atom} {e : Expr} (h : Formed atoms e) :
    e.reading = atoms.flatMap Atom.reading := gathers_reading.formed h

theorem Expr.known_around {op : Operator} {before after : List Atom}
    (left : ∀ a ∈ before, a.isPlain = true) (right : ∀ a ∈ after, a.unknown? = none) :
    ∀ a ∈ before ++ .operator op :: after, a.unknown? = none := by
  intro a member
  rcases List.mem_append.1 member with before | rest
  · exact Atom.known_of_isPlain (left a before)
  · rcases List.mem_cons.1 rest with rfl | after
    · rfl
    · exact right a after

theorem Expr.Formed.known {atoms : List Atom} {e : Expr} (h : Formed atoms e) :
    ∀ a ∈ atoms, a.unknown? = none := by
  induction h with
  | expr e => simp [Atom.unknown?]
  | parameter p => simp [Atom.unknown?]
  | column c => simp [Atom.unknown?]
  | @call op after args inner function read left formed fits ih =>
    intro a member
    rcases List.mem_cons.1 member with rfl | member
    · rfl
    · have comma (a : Atom) (h : a.isComma = true) : a.unknown? = none := by
        cases a <;> first | rfl | cases h
      refine (Arguments.forall_atoms read comma).1 (fun slot b inside => ?_) a member
      cases operators : (args.get slot).any Atom.isOperator with
      | true => exact ih slot operators b inside
      | false => exact Atom.known_of_isPlain (left slot operators b inside)
  | between function left right fits =>
    exact known_around left fun a member => Atom.known_of_isPlain (right a member).1
  | inner function left formed fits ih => exact known_around left ih
  | chain function left right nonempty fits formed ih =>
    refine known_around left fun a member => ?_
    rcases List.mem_append.1 member with middle | further
    · exact Atom.known_of_isPlain (right a middle).1
    · exact ih a (List.mem_cons_of_mem _ further)

/-- Atoms that form an expression all mean something, and the expression reads as they do: every operator, parameter
    and column comes once and in the order of the atoms, and a comma is not read. -/
theorem Expr.reading_ofAtoms {atoms : List Atom} {e : Expr} (h : ofAtoms atoms = .ok e) :
    e.reading = atoms.flatMap Atom.reading ∧ ∀ a ∈ atoms, a.unknown? = none := by
  have formed := formed_of_ofAtoms h
  exact ⟨formed.reading, formed.known⟩

theorem Expr.reading_ofAtoms_call :
    let add := Operator.alike .arithmetic "add" "+" Operator.Form.between
    let greater := Operator.alike .logical "gt" ">" Operator.Form.between
    let indexof := Operator.alike .function "indexof" "CHARINDEX" Operator.Form.call2
    let a : Column := ⟨none, "a"⟩
    let b : Column := ⟨some "t", "b"⟩
    let p : Parameter := ⟨"p", .int 1⟩
    let q : Parameter := ⟨"q", .string "x"⟩
    let atoms : List Atom := [.expr (.group (.run [.column a])), .operator add, .parameter p, .operator greater,
      .operator indexof, .column b, .comma, .parameter q, .operator add,
      .expr (.nested (.any [.test (.run [.column a])]))]
    ∃ e, ofAtoms atoms = .ok e ∧
      e.reading = [.column a, .operator add, .parameter p, .operator greater, .operator indexof, .column b,
        .parameter q, .operator add, .column a] ∧
      ∀ a ∈ atoms, a.unknown? = none := by
  intro add greater indexof a b p q atoms
  obtain ⟨e, built⟩ := exists_of_toBool (show (ofAtoms atoms).toBool = true by decide +kernel)
  exact ⟨e, built, reading_ofAtoms built⟩

end WhereClause
