import WhereClause.Proofs.Expr.Formed

namespace WhereClause.Expr

open Atom

/-- What is kept from atoms by operands and by whole expressions. -/
structure Keeps (atom : Atom → Prop) (operand : Option Expr → Prop) (whole : Expr → Prop) : Prop where
  comma : ∀ a, a.isComma = true → atom a
  expr : ∀ e, atom (.expr e) ↔ whole e
  parameter : ∀ p, whole (.run [.parameter p])
  column : ∀ c, whole (.run [.column c])
  absent : operand none
  run : ∀ as, (∀ a ∈ as, a.isPlain = true) → (∀ a ∈ as, atom a) → operand (some (.run as))
  present : ∀ e, whole e → operand (some e)
  stripped : ∀ op left right third, atom (.operator op) → Fits op left right third → operand left →
    operand right → operand third → whole (stripped op left right third)

namespace Keeps

variable {atom : Atom → Prop} {operand : Option Expr → Prop} {whole : Expr → Prop}

theorem plain (k : Keeps atom operand whole) {as : List Atom} (plain : ∀ a ∈ as, a.isPlain = true)
    (h : ∀ a ∈ as, atom a) : operand (Expr.operand as) := by
  unfold Expr.operand
  split
  · exact k.absent
  · exact k.run as plain h

theorem argument (k : Keeps atom operand whole) {as : List Atom} {inner : Expr}
    (plain : as.any isOperator = false → ∀ a ∈ as, a.isPlain = true)
    (formed : as.any isOperator = true → whole inner) (h : ∀ a ∈ as, atom a) :
    operand (argumentOf as inner) := by
  cases operators : as.any isOperator with
  | true =>
    rw [argumentOf, if_pos operators]
    exact k.present inner (formed operators)
  | false =>
    rw [argumentOf, if_neg (by simp [operators])]
    exact k.plain (plain operators) h

theorem formed (k : Keeps atom operand whole) {atoms : List Atom} {e : Expr} (h : Formed atoms e)
    (all : ∀ a ∈ atoms, atom a) : whole e := by
  induction h with
  | expr e => exact (k.expr e).1 (all _ List.mem_cons_self)
  | parameter p => exact k.parameter p
  | column c => exact k.column c
  | @call op after args inner function read plain formed fits ih =>
    obtain ⟨own, rest⟩ := List.forall_mem_cons.1 all
    have parts := (Arguments.forall_atoms read k.comma).2 rest
    have slots (slot : Slot) :=
      k.argument (plain slot) (fun operators => ih slot operators (parts slot)) (parts slot)
    exact k.stripped op _ _ _ own fits (slots .left) (slots .right) (slots .third)
  | between function left right fits =>
    obtain ⟨before, rest⟩ := List.forall_mem_append.1 all
    obtain ⟨own, after⟩ := List.forall_mem_cons.1 rest
    exact k.stripped _ _ _ _ own fits (k.plain left before) (k.plain (fun a member => (right a member).1) after)
      k.absent
  | inner function left formed fits ih =>
    obtain ⟨before, rest⟩ := List.forall_mem_append.1 all
    obtain ⟨own, after⟩ := List.forall_mem_cons.1 rest
    exact k.stripped _ _ _ _ own fits (k.plain left before) (k.present _ (ih after)) k.absent
  | chain function left right nonempty fits formed ih =>
    obtain ⟨before, rest⟩ := List.forall_mem_append.1 all
    obtain ⟨own, after⟩ := List.forall_mem_cons.1 rest
    obtain ⟨middle, further⟩ := List.forall_mem_append.1 after
    -- What the first operator is applied to stands before the next one as a single atom.
    have current := k.stripped _ _ _ _ own fits (k.plain left before)
      (k.plain (fun a member => (right a member).1) middle) k.absent
    exact ih (List.forall_mem_cons.2 ⟨(k.expr _).2 current, further⟩)

end Keeps

end WhereClause.Expr
