import WhereClause.Proofs.Expr.Filled
import WhereClause.Proofs.Junction.Basic
import WhereClause.Proofs.Rendering.Template
import WhereClause.Proofs.RoundTrip.Scan

namespace WhereClause

theorem Text.mem_concat {ss : List String} {s : String} (h : s ∈ ss) {c : Char} (inside : c ∈ s.toList) :
    c ∈ (concat ss).toList := by
  induction ss with
  | nil => cases h
  | cons t ss ih =>
    rw [concat, String.toList_append, List.mem_append]
    rcases List.mem_cons.1 h with rfl | later
    · exact Or.inl inside
    · exact Or.inr (ih later)

def Template.Part.speaks (op : Operator) : Template.Part → Bool
  | .text cs => cs.any fun c => !Token.isParenthesis c
  | .mark name => String.ofList name = "op" && (op.spelling .sql).toList.any fun c => !Token.isParenthesis c

namespace Operator

theorem implemented_speaks : (implemented.all fun op => [true, false].all fun third =>
    (Template.parts (op.template .sql third)).any (Template.Part.speaks op) ||
      Template.parts (op.template .sql third) = [.text ['(']] ||
      Template.parts (op.template .sql third) = [.text [')']]) = true := by
  decide +kernel

theorem template_speaks {op : Operator} (h : op ∈ implemented) (third : Bool) :
    (∃ part ∈ Template.parts (op.template .sql third), part.speaks op = true) ∨
      ∃ c, Template.parts (op.template .sql third) = [.text [c]] := by
  have all := List.all_eq_true.1 (List.all_eq_true.1 implemented_speaks op h) third (by cases third <;> decide)
  simp only [Bool.or_eq_true, List.any_eq_true, decide_eq_true_eq] at all
  rcases all with (speaks | opening) | closing
  · exact Or.inl speaks
  · exact Or.inr ⟨_, opening⟩
  · exact Or.inr ⟨_, closing⟩

end Operator

theorem Template.Part.exists_of_speaks {op : Operator} {part : Template.Part} (h : part.speaks op = true)
    (left right third : String) : ∃ c, Token.isParenthesis c = false ∧
      c ∈ (part.filled (op.slotText .sql left right third)).toList := by
  cases part with
  | text cs =>
    obtain ⟨c, member, other⟩ := List.any_eq_true.1 h
    exact ⟨c, by simpa using other, by rwa [filled, String.toList_ofList]⟩
  | mark name =>
    simp only [speaks, Bool.and_eq_true, decide_eq_true_eq] at h
    obtain ⟨c, member, other⟩ := List.any_eq_true.1 h.2
    refine ⟨c, by simpa using other, ?_⟩
    rwa [filled, h.1, Operator.slotText, if_pos rfl, Option.getD_some]

theorem Expr.render_ne_of_applied {e : Expr} (applied : e.IsApplied) (filled : e.Filled) :
    e.render .sql ≠ "" ∧ e.render .sql ≠ "()" := by
  cases e with
  | apply op left right third =>
    have known : op ∈ Operator.implemented := filled.1
    let value := op.slotText .sql (renderOperand .sql left) (renderOperand .sql right) (renderOperand .sql third)
    have written : (Expr.apply op left right third).render .sql =
        Text.concat ((Template.parts (op.template .sql third.isSome)).map (Template.Part.filled value)) := by
      rw [render, ← Template.fill_ofParts value (Operator.template_parts known .sql third.isSome).1,
        Template.ofParts_parts]
    rw [written]
    rcases Operator.template_speaks known third.isSome with ⟨part, member, speaks⟩ | ⟨c, single⟩
    · obtain ⟨c, other, inside⟩ := Template.Part.exists_of_speaks speaks _ _ _
      have present := Text.mem_concat (List.mem_map_of_mem member) inside
      constructor
      · intro none
        rw [none] at present
        cases present
      · intro pair
        rw [pair] at present
        have parenthesis : c = '(' ∨ c = ')' := by simpa using present
        rcases parenthesis with rfl | rfl <;> exact absurd other (by decide)
    · rw [single]
      have one : (Text.concat ([.text [c]].map (Template.Part.filled value))).length = 1 := by
        simp [Text.concat, Template.Part.filled]
      constructor <;> intro same <;> rw [same] at one <;> cases one
  | _ => cases applied

theorem Text.join_eq_empty {separator : String} (visible : separator ≠ "") {ss : List String}
    (full : ∀ s ∈ ss, s ≠ "") (h : join separator ss = "") : ss = [] := by
  cases ss with
  | nil => rfl
  | cons s ss =>
    exfalso
    cases ss with
    | nil => exact full s List.mem_cons_self h
    | cons t ss =>
      rw [join, String.append_eq_empty_iff, String.append_eq_empty_iff] at h
      exact visible h.1.2

namespace Condition

theorem separator_ne_empty (op : Operator) : op.separator .sql ≠ "" := by
  intro none
  simp [Operator.separator] at none

theorem render_ne_empty {c : Condition} (proper : c.Proper) (filled : c.Filled) : c.render .sql ≠ "" := by
  cases c with
  | empty => cases proper.1
  | test e => exact (Expr.render_ne_of_applied (proper.2 e rfl) filled).1
  | all parts => simp [render]
  | any parts => simp [render]

theorem parts_eq_nil {op : Operator} {cs : List Condition} (proper : ∀ c ∈ cs, c.Proper)
    (filled : ∀ c ∈ cs, c.Filled)
    (h : "(" ++ Text.join (op.separator .sql) (renderAll .sql cs) ++ ")" = "()") : cs = [] := by
  have inside : Text.join (op.separator .sql) (renderAll .sql cs) = "" := by
    have letters := congrArg String.toList h
    simpa using letters
  rw [renderAll_eq] at inside
  refine List.map_eq_nil_iff.1 (Text.join_eq_empty (separator_ne_empty op) ?_ inside)
  exact List.forall_mem_map.2 fun c member => render_ne_empty (proper c member) (filled c member)

/-- A condition that says nothing is written as an empty pair of parentheses, and only such a condition is. -/
theorem isEmpty_iff_render {c : Condition} (applied : ∀ e, c = .test e → e.IsApplied)
    (proper : ∀ part ∈ c.parts, part.Proper) (filled : c.Filled) :
    c.isEmpty = true ↔ c.render .sql = "()" := by
  cases c with
  | empty => exact iff_of_true rfl rfl
  | test e => exact iff_of_false nofun (Expr.render_ne_of_applied (applied e rfl) filled).2
  | all cs =>
    rw [isEmpty, List.isEmpty_iff]
    constructor
    · rintro rfl
      rfl
    · exact parts_eq_nil proper (allFilled_iff.1 filled)
  | any cs =>
    rw [isEmpty, List.isEmpty_iff]
    constructor
    · rintro rfl
      rfl
    · exact parts_eq_nil proper (allFilled_iff.1 filled)

end Condition

end WhereClause
