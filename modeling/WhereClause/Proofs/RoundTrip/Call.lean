import Mathlib.Data.List.Forall2
import WhereClause.Proofs.RoundTrip.Clause

namespace WhereClause

theorem map_eq_of_forall₂ {α β γ : Type} {f : α → γ} {g : β → γ} {as : List α} {bs : List β}
    (h : List.Forall₂ (fun a b => f a = g b) as bs) : as.map f = bs.map g := by
  induction h with
  | nil => rfl
  | cons own _ ih => rw [List.map_cons, List.map_cons, own, ih]

theorem exists_forall₂ {α β : Type} {r : α → β → Prop} {as : List α} (h : ∀ a ∈ as, ∃ b, r a b) :
    ∃ bs, List.Forall₂ r as bs := by
  induction as with
  | nil => exact ⟨[], .nil⟩
  | cons a as ih =>
    obtain ⟨⟨b, own⟩, rest⟩ := List.forall_mem_cons.1 h
    obtain ⟨bs, later⟩ := ih rest
    exact ⟨b :: bs, .cons own later⟩

namespace Atom

def listed : List (List Atom) → List Atom
  | [] => []
  | [as] => as
  | as :: bs :: rest => as ++ .comma :: listed (bs :: rest)

theorem commaParts_append {as : List Atom} (plain : ∀ a ∈ as, a.isComma = false) (bs : List Atom) :
    commaParts (as ++ .comma :: bs) = as :: commaParts bs := by
  induction as with
  | nil => simp [commaParts, isComma]
  | cons a as ih =>
    obtain ⟨own, rest⟩ := List.forall_mem_cons.1 plain
    simp [commaParts, own, ih rest]

theorem commaParts_of_noComma {as : List Atom} (plain : ∀ a ∈ as, a.isComma = false) :
    commaParts as = [as] := by
  induction as with
  | nil => rfl
  | cons a as ih =>
    obtain ⟨own, rest⟩ := List.forall_mem_cons.1 plain
    simp [commaParts, own, ih rest]

theorem parts_listed {ass : List (List Atom)} (plain : ∀ as ∈ ass, ∀ a ∈ as, a.isComma = false)
    (full : ∀ as ∈ ass, as ≠ []) : Arguments.parts (listed ass) = ass := by
  have cut : ass ≠ [] → commaParts (listed ass) = ass := by
    induction ass using listed.induct with
    | case1 => exact fun none => absurd rfl none
    | case2 as => exact fun _ => commaParts_of_noComma (plain as List.mem_cons_self)
    | case3 as bs rest ih =>
      obtain ⟨own, later⟩ := List.forall_mem_cons.1 plain
      intro _
      rw [listed, commaParts_append own, ih later (List.forall_mem_cons.1 full).2 (by simp)]
  cases ass with
  | nil => rfl
  | cons as rest =>
    have some : (listed (as :: rest)).isEmpty = false := by
      have own := full as List.mem_cons_self
      cases rest <;> cases as <;> simp_all [listed]
    rw [Arguments.parts, some]
    exact cut (by simp)

theorem read_listed {ass : List (List Atom)} (op : Operator)
    (plain : ∀ as ∈ ass, ∀ a ∈ as, a.isComma = false) (full : ∀ as ∈ ass, as ≠ []) :
    Arguments.read op (listed ass) = Arguments.ofParts op ass := by
  have none : ass.any List.isEmpty = false := by
    rw [List.any_eq_false]
    intro as member
    simpa using full as member
  rw [Arguments.read, parts_listed plain full]
  simp [none]

end Atom

namespace Expr

open Atom

/-- The atoms state the expression again: they are written as it is, and have parentheses around them only if
    it has. -/
structure Restated (e : Expr) (as : List Atom) : Prop where
  clause : Clause as
  written : e.WrittenAs as
  bare : e.isGrouped = false → ∀ g, as ≠ [.expr (.group g)]

inductive OperandRestated : Option Expr → List Atom → Prop where
  | absent : OperandRestated none []
  | present {e : Expr} {as : List Atom} (restated : e.Restated as) : OperandRestated (some e) as

theorem strip_of_applied {e : Expr} (h : e.IsApplied) (template : String) (slot : Slot) :
    strip template slot e = e := by
  cases e with
  | apply op left right third =>
    unfold strip
    split <;> rfl
  | _ => cases h

theorem strip_run {a : Atom} (bare : ∀ g, a ≠ .expr (.group g)) (template : String) (slot : Slot) :
    strip template slot (.run [a]) = .run [a] := by
  unfold strip
  split
  · cases a with
    | expr e =>
      cases e with
      | group g => exact absurd rfl (bare g)
      | _ => rfl
    | _ => rfl
  · rfl

theorem strip_open {template : String} {slot : Slot} (h : Template.encloses template slot = false) (e : Expr) :
    strip template slot e = e := by
  unfold strip
  rw [h]
  rfl

theorem exists_argument {as : List Atom} (h : Clause as) (op : Operator) (slot : Slot) :
    ∃ g, argument op slot as (ofAtoms as) = .ok (some g) ∧ g.WrittenAs as ∧
      ((∀ e, as ≠ [.expr (.group e)]) → ∀ template, strip template slot g = g) := by
  obtain ⟨e, built, written⟩ := h.formed
  cases operators : as.any isOperator with
  | true =>
    have applied : e.IsApplied := by
      rcases (formed_of_ofAtoms built).applied_or with applied | ⟨a, rfl, operand, -⟩
      · exact applied
      · simp [operand] at operators
    refine ⟨e, ?_, written, fun _ template => strip_of_applied applied template slot⟩
    rw [argument, if_pos operators, built]
    rfl
  | false =>
    cases h with
    | @operand a operand =>
      refine ⟨.run [a], ?_, writtenAs_run a, fun bare template => strip_run ?_ template slot⟩
      · rw [argument, if_neg (by simp [operators])]
        exact plainOperand_eq_ok.2 ⟨by simp [unknown?_of_isOperand operand], rfl⟩
      · rintro g rfl
        exact bare g rfl
    | between => simp [isOperator, operator?] at operators
    | before => simp [isOperator, operator?] at operators
    | enclosing => simp [isOperator, operator?] at operators

theorem OperandRestated.exists_argument {e : Option Expr} {as : List Atom} (h : OperandRestated e as)
    (op : Operator) {template : String} (slot : Slot)
    (tidy : Template.encloses template slot = true → ∀ inner ∈ e, inner.isGrouped = false) :
    ∃ g : Option Expr, argument op slot as (ofAtoms as) = .ok g ∧ g.isSome = e.isSome ∧
      (∀ d, renderOperand d g = renderOperand d e) ∧ operandParameters g = operandParameters e ∧
      g.map (strip template slot) = g := by
  cases h with
  | absent => exact ⟨none, rfl, rfl, fun _ => rfl, rfl, rfl⟩
  | @present e as restated =>
    obtain ⟨g, read, written, kept⟩ := Expr.exists_argument restated.clause op slot
    refine ⟨some g, read, rfl, fun d => ?_, ?_, congrArg some ?_⟩
    · exact (written.render d).trans (restated.written.render d).symm
    · exact written.parameters.trans restated.written.parameters.symm
    · cases encloses : Template.encloses template slot with
      | false => exact strip_open encloses g
      | true => exact kept (restated.bare (tidy encloses e rfl)) template

theorem exists_arguments {op : Operator} {left right third : Option Expr} {ass : List (List Atom)}
    (known : op ∈ Operator.implemented) (function : op.isFunction = true) (fits : Fits op left right third)
    (restated : List.Forall₂ Restated (operands left right third) ass) :
    ∃ args, Arguments.read op (listed ass) = .ok args ∧
      ∀ slot, OperandRestated (slotted left right third slot) (args.get slot) := by
  have each : ∀ as ∈ ass, Clause as := forall_of_forall₂ (restated.imp fun _ _ own => own.clause)
  rw [read_listed op (fun as member => (each as member).noComma) fun as member => (each as member).ne_nil]
  obtain ⟨s, -, -, operands⟩ := fits.called known function
  rcases operands with ⟨-, rfl, rfl, rfl⟩ | ⟨-, first, rfl, rfl⟩ | ⟨-, first, second, rfl⟩ |
    ⟨-, first, second, last⟩
  · cases restated
    exact ⟨_, rfl, fun slot => by cases slot <;> exact .absent⟩
  · obtain ⟨a, rfl⟩ := Option.isSome_iff_exists.1 first
    obtain ⟨as, _, own, ⟨⟩, rfl⟩ := List.forall₂_cons_left_iff.1 restated
    refine ⟨_, rfl, fun slot => ?_⟩
    cases slot
    · exact .present own
    · exact .absent
    · exact .absent
  · obtain ⟨a, rfl⟩ := Option.isSome_iff_exists.1 first
    obtain ⟨b, rfl⟩ := Option.isSome_iff_exists.1 second
    obtain ⟨as, _, own, later, rfl⟩ := List.forall₂_cons_left_iff.1 restated
    obtain ⟨bs, _, next, ⟨⟩, rfl⟩ := List.forall₂_cons_left_iff.1 later
    refine ⟨_, rfl, fun slot => ?_⟩
    cases slot
    · exact .present own
    · exact .present next
    · exact .absent
  · obtain ⟨a, rfl⟩ := Option.isSome_iff_exists.1 first
    obtain ⟨b, rfl⟩ := Option.isSome_iff_exists.1 second
    obtain ⟨c, rfl⟩ := Option.isSome_iff_exists.1 last
    obtain ⟨as, _, own, later, rfl⟩ := List.forall₂_cons_left_iff.1 restated
    obtain ⟨bs, _, next, further, rfl⟩ := List.forall₂_cons_left_iff.1 later
    obtain ⟨cs, _, final, ⟨⟩, rfl⟩ := List.forall₂_cons_left_iff.1 further
    refine ⟨_, rfl, fun slot => ?_⟩
    cases slot
    · exact .present own
    · exact .present next
    · exact .present final

theorem ofAtoms_function {op : Operator} {left right third : Option Expr} {ass : List (List Atom)}
    (known : op ∈ Operator.implemented) (function : op.isFunction = true) (fits : Fits op left right third)
    (tidy : ∀ slot, Template.encloses (op.template .filter third.isSome) slot = true →
      ∀ e ∈ slotted left right third slot, e.isGrouped = false)
    (restated : List.Forall₂ Restated (operands left right third) ass) :
    ∃ e, ofAtoms (.operator op :: listed ass) = .ok e ∧ e.IsApplied ∧
      e.WrittenAs [.expr (.apply op left right third)] := by
  obtain ⟨args, read, given⟩ := exists_arguments known function fits restated
  obtain ⟨first, firstRead, firstSome, firstText, firstValues, firstKept⟩ :=
    (given .left).exists_argument op .left (tidy .left)
  obtain ⟨second, secondRead, secondSome, secondText, secondValues, secondKept⟩ :=
    (given .right).exists_argument op .right (tidy .right)
  obtain ⟨last, lastRead, lastSome, lastText, lastValues, lastKept⟩ :=
    (given .third).exists_argument op .third (tidy .third)
  simp only [slotted] at firstSome firstText firstValues
  simp only [slotted] at secondSome secondText secondValues
  simp only [slotted] at lastSome lastText lastValues
  have whole : stripped op first second last = .apply op first second last := by
    rw [stripped, lastSome, firstKept, secondKept, lastKept]
  have also : Fits op first second last := by
    simpa only [Fits, firstSome, secondSome, lastSome] using fits
  refine ⟨.apply op first second last, ?_, trivial, fun d => ?_, ?_⟩
  · rw [ofAtoms_call rfl function]
    refine bind_eq_ok.2 ⟨args, read, ?_⟩
    exact bind_eq_ok.2 ⟨_, firstRead, bind_eq_ok.2 ⟨_, secondRead, bind_eq_ok.2 ⟨_, lastRead,
      applied_eq_ok.2 ⟨also, whole.symm⟩⟩⟩⟩
  · rw [render, firstText, secondText, lastText, lastSome]
    rfl
  · rw [parameters, firstValues, secondValues, lastValues]
    simp [Atom.parameters, parameters]

end Expr

end WhereClause
