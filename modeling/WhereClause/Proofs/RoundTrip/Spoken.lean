import WhereClause.Proofs.Expr.Filled
import WhereClause.Proofs.Rendering.Template

namespace WhereClause

namespace Operator

inductive Shape where
  | between
  | before
  | enclosing
  | call (arguments : List Slot)
deriving DecidableEq

namespace Shape

open Template

def slots : Shape → List Slot
  | .between => [.left, .right]
  | .before | .enclosing => [.right]
  | .call arguments => arguments

def mark (slot : Slot) : Part := .mark slot.marker.toList

def commas : List Slot → List Part
  | [] => []
  | [slot] => [mark slot]
  | slot :: next :: rest => mark slot :: .text [','] :: commas (next :: rest)

def parts : Shape → List Part
  | .between => [mark .left, .text [' '], .mark ['o', 'p'], .text [' '], mark .right]
  | .before => [.mark ['o', 'p'], .text [' '], mark .right]
  | .enclosing => [.mark ['o', 'p'], .text [' ', '('], mark .right, .text [')']]
  | .call arguments => [.mark ['o', 'p'], .text ['(']] ++ commas arguments ++ [.text [')']]

def form (s : Shape) : String := ofParts s.parts

def write (s : Shape) (spelling : String) (text : Slot → String) : String :=
  match s with
  | .between => text .left ++ " " ++ spelling ++ " " ++ text .right
  | .before => spelling ++ " " ++ text .right
  | .enclosing => spelling ++ " (" ++ text .right ++ ")"
  | .call arguments => spelling ++ "(" ++ Text.join "," (arguments.map text) ++ ")"

def infixes : List Shape := [.between, .before, .enclosing]

def calls : List Shape := [[], [.left], [.left, .right], [.left, .right, .third]].map .call

theorem isFormed_mark (slot : Slot) : (mark slot).isFormed = true := by cases slot <;> decide

theorem isFormed_commas (slots : List Slot) : ∀ part ∈ commas slots, part.isFormed = true := by
  induction slots using commas.induct with
  | case1 => nofun
  | case2 slot => simp [commas, isFormed_mark]
  | case3 slot next rest ih =>
    simp only [commas, List.forall_mem_cons]
    exact ⟨isFormed_mark slot, by decide, ih⟩

theorem isFormed_parts (s : Shape) : ∀ part ∈ s.parts, part.isFormed = true := by
  cases s with
  | between => decide
  | before => decide
  | enclosing => decide
  | call arguments =>
    refine List.forall_mem_append.2 ⟨List.forall_mem_append.2 ⟨by decide, isFormed_commas arguments⟩, ?_⟩
    decide

theorem fill_form (s : Shape) (op : Operator) (d : Dialect) (text : Slot → String) :
    fill s.form (op.slotText d (text .left) (text .right) (text .third)) =
      s.write (op.spelling d) text := by
  have named : op.slotText d (text .left) (text .right) (text .third) "op" = some (op.spelling d) := rfl
  have known (slot : Slot) :
      op.slotText d (text .left) (text .right) (text .third) slot.marker = some (text slot) := by
    have other : slot.marker ≠ "op" := by cases slot <;> decide
    rw [slotText_eq, if_neg other, ofMarker?_eq_some.2 rfl, Option.map_some]
  rw [form, fill_ofParts _ s.isFormed_parts]
  generalize op.slotText d (text .left) (text .right) (text .third) = value at named known
  have marked (slot : Slot) : (mark slot).filled value = text slot := by
    simp [mark, Part.filled, known]
  have spelled : (Part.mark ['o', 'p']).filled value = op.spelling d := by
    simp [Part.filled, named]
  have plain (cs : List Char) : (Part.text cs).filled value = String.ofList cs := rfl
  have joined (slots : List Slot) :
      Text.concat ((commas slots).map (Part.filled value)) = Text.join "," (slots.map text) := by
    induction slots using commas.induct with
    | case1 => rfl
    | case2 slot => simp [commas, marked, Text.concat, Text.join]
    | case3 slot next rest ih =>
      rw [commas, List.map_cons, List.map_cons, Text.concat, Text.concat, ih, marked, plain]
      simp [Text.join, String.append_assoc]
  cases s with
  | call arguments =>
    rw [parts, List.map_append, List.map_append, Text.concat_append, Text.concat_append, joined]
    simp [spelled, plain, write, Text.concat]
  | _ => simp [parts, spelled, marked, plain, write, Text.concat, String.append_assoc]

theorem takes_form {s : Shape} (listed : s ∈ infixes ++ calls) (slot : Slot) :
    takes s.form slot = s.slots.contains slot := by
  have all : ∀ s ∈ infixes ++ calls, ∀ slot ∈ [Slot.left, .right, .third],
    takes s.form slot = s.slots.contains slot := by decide +kernel
  exact all s listed slot (by cases slot <;> decide)

def enclosed : Shape → List Slot
  | .enclosing => [.right]
  | .call [slot] => [slot]
  | _ => []

theorem encloses_form {s : Shape} (listed : s ∈ infixes ++ calls) (slot : Slot) :
    encloses s.form slot = s.enclosed.contains slot := by
  have all : ∀ s ∈ infixes ++ calls, ∀ slot ∈ [Slot.left, .right, .third],
    encloses s.form slot = s.enclosed.contains slot := by decide +kernel
  exact all s listed slot (by cases slot <;> decide)

end Shape

def isSpoken (op : Operator) : Bool := op.kind = .logical || op.kind = .arithmetic || op.kind = .function

theorem shapes : (implemented.all fun op =>
    if op.isFunction then
      (op.templates :: op.overload.toList).all fun t => Shape.calls.any (·.form = t.filter)
    else !op.isSpoken || op.overload.isNone && Shape.infixes.any fun s =>
      op.templates = ⟨s.form, s.form⟩) = true := by
  decide +kernel

theorem exists_infix {op : Operator} (known : op ∈ implemented) (spoken : op.isSpoken = true)
    (function : op.isFunction = false) :
    ∃ s ∈ Shape.infixes, ∀ d third, op.template d third = s.form := by
  have own := List.all_eq_true.1 shapes op known
  simp only [function, spoken, Bool.false_eq_true, if_false, Bool.not_true, Bool.false_or,
    Bool.and_eq_true, List.any_eq_true, decide_eq_true_eq, Option.isNone_iff_eq_none] at own
  obtain ⟨overload, s, listed, templates⟩ := own
  refine ⟨s, listed, fun d third => ?_⟩
  rw [template, overload, templates]
  cases d <;> rfl

theorem exists_call {op : Operator} (known : op ∈ implemented) (function : op.isFunction = true)
    (third : Bool) : ∃ s ∈ Shape.calls, op.template .filter third = s.form := by
  have own := List.all_eq_true.1 shapes op known
  simp only [function, if_true, List.all_cons, Bool.and_eq_true, List.all_eq_true, List.any_eq_true,
    decide_eq_true_eq] at own
  obtain ⟨⟨s, listed, same⟩, overload⟩ := own
  unfold template
  cases found : op.overload with
  | none => exact ⟨s, listed, same.symm⟩
  | some t =>
    cases third with
    | false => exact ⟨s, listed, same.symm⟩
    | true =>
      obtain ⟨u, also, other⟩ := overload t (by simp [found])
      exact ⟨u, also, other.symm⟩

end Operator

namespace Expr

variable {op : Operator} {left right third : Option Expr}

def slotted (left right third : Option Expr) : Slot → Option Expr
  | .left => left
  | .right => right
  | .third => third

theorem Fits.slots (h : Fits op left right third) {s : Operator.Shape}
    (listed : s ∈ Operator.Shape.infixes ++ Operator.Shape.calls)
    (shape : op.template .filter third.isSome = s.form) (slot : Slot) :
    s.slots.contains slot = (slotted left right third slot).isSome := by
  obtain ⟨first, second, last⟩ := h
  rw [shape, Operator.Shape.takes_form listed] at first second last
  cases slot <;> assumption

theorem render_apply {s : Operator.Shape} {d : Dialect} (shape : op.template d third.isSome = s.form) :
    (Expr.apply op left right third).render d =
      s.write (op.spelling d) fun slot => renderOperand d (slotted left right third slot) := by
  rw [render, shape, ← s.fill_form]
  rfl

theorem Fits.infixed (h : Fits op left right third) {s : Operator.Shape}
    (listed : s ∈ Operator.Shape.infixes) (shape : op.template .filter third.isSome = s.form) :
    third = none ∧ ∃ b, right = some b ∧
      ((s = .between ∧ ∃ a, left = some a) ∨ (s = .before ∨ s = .enclosing) ∧ left = none) := by
  have slots := h.slots (List.mem_append_left _ listed) shape
  have first := slots .left
  have second := slots .right
  have last := slots .third
  simp only [Operator.Shape.infixes, List.mem_cons, List.not_mem_nil, or_false] at listed
  rcases listed with rfl | rfl | rfl <;>
    cases left <;> cases right <;> cases third <;>
      simp_all [Operator.Shape.slots, slotted]

theorem Fits.called (h : Fits op left right third) (known : op ∈ Operator.implemented)
    (function : op.isFunction = true) : ∃ s ∈ Operator.Shape.calls,
      op.template .filter third.isSome = s.form ∧
      ((s = .call [] ∧ left = none ∧ right = none ∧ third = none) ∨
        (s = .call [.left] ∧ left.isSome = true ∧ right = none ∧ third = none) ∨
        (s = .call [.left, .right] ∧ left.isSome = true ∧ right.isSome = true ∧ third = none) ∨
        s = .call [.left, .right, .third] ∧ left.isSome = true ∧ right.isSome = true ∧
          third.isSome = true) := by
  obtain ⟨s, listed, shape⟩ := Operator.exists_call known function third.isSome
  have slots := h.slots (List.mem_append_right _ listed) shape
  have first := slots .left
  have second := slots .right
  have last := slots .third
  refine ⟨s, listed, shape, ?_⟩
  simp only [Operator.Shape.calls, List.map_cons, List.map_nil, List.mem_cons, List.not_mem_nil,
    or_false] at listed
  rcases listed with rfl | rfl | rfl | rfl <;> simp_all [Operator.Shape.slots, slotted]

theorem Fits.render_call (h : Fits op left right third) (known : op ∈ Operator.implemented)
    (function : op.isFunction = true) :
    (Expr.apply op left right third).render .filter =
      op.keyword ++ "(" ++ Text.join "," ((operands left right third).map (render .filter)) ++ ")" := by
  obtain ⟨s, -, shape, operands⟩ := h.called known function
  rw [render_apply shape]
  rcases operands with ⟨rfl, rfl, rfl, rfl⟩ | ⟨rfl, first, rfl, rfl⟩ | ⟨rfl, first, second, rfl⟩ |
    ⟨rfl, first, second, last⟩
  · rfl
  · obtain ⟨a, rfl⟩ := Option.isSome_iff_exists.1 first
    rfl
  · obtain ⟨a, rfl⟩ := Option.isSome_iff_exists.1 first
    obtain ⟨b, rfl⟩ := Option.isSome_iff_exists.1 second
    rfl
  · obtain ⟨a, rfl⟩ := Option.isSome_iff_exists.1 first
    obtain ⟨b, rfl⟩ := Option.isSome_iff_exists.1 second
    obtain ⟨c, rfl⟩ := Option.isSome_iff_exists.1 last
    rfl

end Expr

end WhereClause
