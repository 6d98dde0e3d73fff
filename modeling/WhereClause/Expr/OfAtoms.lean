import WhereClause.Expr.Render
import WhereClause.Fault

namespace WhereClause

namespace Atom

def splitAtOperator : List Atom → Option (List Atom × Operator × List Atom)
  | [] => none
  | a :: as =>
    match a.operator? with
    | some op => some ([], op, as)
    | none => (splitAtOperator as).map fun s => (a :: s.1, s.2)

def commaParts : List Atom → List (List Atom)
  | [] => [[]]
  | a :: as =>
    if a.isComma then [] :: commaParts as
    else
      match commaParts as with
      | [] => [[a]]
      | first :: rest => (a :: first) :: rest

def firstUnknown? (atoms : List Atom) : Option Token := atoms.findSome? unknown?

theorem eq_append_of_splitAtOperator {atoms before after : List Atom} {op : Operator}
    (h : splitAtOperator atoms = some (before, op, after)) :
    atoms = before ++ .operator op :: after := by
  induction atoms generalizing before with
  | nil => simp [splitAtOperator] at h
  | cons a as ih =>
    simp only [splitAtOperator] at h
    split at h
    · next found =>
      cases a <;> simp_all [operator?]
    · obtain ⟨⟨first, second⟩, found, same⟩ := Option.map_eq_some_iff.1 h
      obtain ⟨rfl, rfl⟩ := Prod.mk.inj same
      simp [ih found]

theorem length_commaParts {atoms part : List Atom} (h : part ∈ commaParts atoms) :
    part.length ≤ atoms.length := by
  induction atoms generalizing part with
  | nil => simp_all [commaParts]
  | cons a as ih =>
    simp only [commaParts] at h
    split at h
    · rcases List.mem_cons.1 h with rfl | member
      · simp
      · exact Nat.le_succ_of_le (ih member)
    · split at h
      · simp_all
      · next first rest found =>
        rw [found] at ih
        rcases List.mem_cons.1 h with rfl | member
        · simpa using ih List.mem_cons_self
        · exact Nat.le_succ_of_le (ih (List.mem_cons_of_mem _ member))

end Atom

structure Arguments where
  left : List Atom
  right : List Atom
  third : List Atom

def Arguments.parts (atoms : List Atom) : List (List Atom) :=
  if atoms.isEmpty then [] else Atom.commaParts atoms

def Arguments.ofParts (op : Operator) : List (List Atom) → Except Fault Arguments
  | [] => .ok ⟨[], [], []⟩
  | [left] => .ok ⟨left, [], []⟩
  | [left, right] => .ok ⟨left, right, []⟩
  | [left, right, third] => .ok ⟨left, right, third⟩
  | _ => .error (.unplaced (.tooManyArguments op.keyword))

def Arguments.read (op : Operator) (atoms : List Atom) : Except Fault Arguments :=
  let parts := parts atoms
  if 1 < parts.length && parts.any List.isEmpty then
    .error (.unplaced (.emptyArgument op.keyword))
  else ofParts op parts

theorem Arguments.length_parts {atoms part : List Atom} (h : part ∈ parts atoms) :
    part.length ≤ atoms.length := by
  unfold parts at h
  split at h
  · cases h
  · exact Atom.length_commaParts h

theorem Arguments.length_ofParts {op : Operator} {parts : List (List Atom)} {args : Arguments}
    {bound : Nat} (h : ofParts op parts = .ok args) (short : ∀ part ∈ parts, part.length ≤ bound) :
    args.left.length ≤ bound ∧ args.right.length ≤ bound ∧ args.third.length ≤ bound := by
  unfold ofParts at h
  split at h <;> cases h <;> simp_all

theorem Arguments.length_read {op : Operator} {atoms : List Atom} {args : Arguments}
    (h : read op atoms = .ok args) :
    args.left.length ≤ atoms.length ∧ args.right.length ≤ atoms.length ∧
      args.third.length ≤ atoms.length := by
  simp only [read] at h
  split at h
  · cases h
  · exact length_ofParts h fun _ => length_parts

namespace Expr

open Atom

def withoutOperator (atoms : List Atom) : Fault :=
  match firstUnknown? atoms with
  | some t => .missingOperator t.text t.position
  | none => .missingOperator (atoms.head?.map (Atom.render .filter)) none

/-- Atoms without an operator mean something only if they are a single operand. -/
def alone : List Atom → Except Fault Expr
  | [.expr e] => .ok e
  | [.parameter p] => .ok (.run [.parameter p])
  | [.column c] => .ok (.run [.column c])
  | atoms => .error (withoutOperator atoms)

def plainOperand (op : Operator) (slot : Slot) (atoms : List Atom) : Except Fault (Option Expr) :=
  match firstUnknown? atoms with
  | some t => .error (.unresolved t.text op.keyword slot t.position)
  | none => .ok (operand atoms)

def argument (op : Operator) (slot : Slot) (atoms : List Atom) (built : Except Fault Expr) :
    Except Fault (Option Expr) :=
  if atoms.any isOperator then built.map some else plainOperand op slot atoms

def checkSlot (op : Operator) (template : String) (slot : Slot) (e : Option Expr) :
    Except Fault Unit :=
  if Template.takes template slot && e.isNone then .error (.unplaced (.missingOperand op.keyword slot))
  else if e.isSome && !Template.takes template slot then .error (.unplaced (.extraOperand op.keyword slot))
  else .ok ()

/-- Drops the parentheses around an operand that the template encloses already. -/
def strip (template : String) (slot : Slot) (e : Expr) : Expr :=
  if Template.encloses template slot then
    match e with
    | .run [.expr (.group inner)] => inner.ungrouped
    | .group inner => inner.ungrouped
    | e => e
  else e

def applied (op : Operator) (left right third : Option Expr) : Except Fault Expr := do
  let template := op.template .filter third.isSome
  checkSlot op template .left left
  checkSlot op template .right right
  checkSlot op template .third third
  return .apply op (left.map (strip template .left)) (right.map (strip template .right))
    (third.map (strip template .third))

def strayFault (op : Operator) (stray : Atom) : Fault :=
  let cause := Fault.Structural.strayBeforeCall stray.describe op.keyword
  match stray.unknown? with
  | some t => .atToken cause t
  | none => .unplaced cause

/-- The first operator among the atoms decides the shape: a function takes what follows it as arguments, any other
    operator takes what stands before it on its left and what follows, up to the next operator, on its right. -/
def ofAtoms (atoms : List Atom) : Except Fault Expr :=
  match _whole : splitAtOperator atoms with
  | none => alone atoms
  | some (before, op, after) =>
    if op.isFunction then
      match before with
      | stray :: _ => .error (strayFault op stray)
      | [] =>
        match _called : Arguments.read op after with
        | .error fault => .error fault
        | .ok args => do
          let left ← argument op .left args.left (ofAtoms args.left)
          let right ← argument op .right args.right (ofAtoms args.right)
          let third ← argument op .third args.third (ofAtoms args.third)
          applied op left right third
    else do
      let left ← plainOperand op .left before
      match _rest : splitAtOperator after with
      | none =>
        if after.any isComma then .error (.unplaced (.commaAfter op.keyword))
        else do
          let right ← plainOperand op .right after
          applied op left right none
      | some (middle, next, further) =>
        if middle.any isComma then .error (.unplaced (.commaAfter op.keyword))
        -- An operator that directly follows is part of the right operand; a later one is applied to the result.
        else if _adjacent : middle = [] then do
          let right ← ofAtoms after
          applied op left (some right) none
        else do
          let right ← plainOperand op .right middle
          let current ← applied op left right none
          ofAtoms (.expr current :: .operator next :: further)
termination_by atoms.length
decreasing_by
  all_goals
    have length := congrArg List.length (eq_append_of_splitAtOperator _whole)
    simp only [List.length_append, List.length_cons] at length
  · have bound := Arguments.length_read _called
    omega
  · have bound := Arguments.length_read _called
    omega
  · have bound := Arguments.length_read _called
    omega
  · omega
  · have inner := congrArg List.length (eq_append_of_splitAtOperator _rest)
    have positive := List.length_pos_iff.2 _adjacent
    simp only [List.length_append, List.length_cons] at inner ⊢
    omega

end Expr

end WhereClause
