import WhereClause.Proofs.Expr.Change
import WhereClause.Proofs.Expr.Filled
import WhereClause.Proofs.Rendering.Template

namespace WhereClause

def Text.fillGaps : List (Option String) → List String → String
  | [], _ => ""
  | some s :: rest, values => s ++ fillGaps rest values
  | none :: rest, value :: values => value ++ fillGaps rest values
  | none :: rest, [] => fillGaps rest []

/-- A text with as many gaps as there are values, which fill it to give the result. -/
def Text.Writes (gapped : List (Option String)) (values : List String) (result : String) : Prop :=
  (gapped.filter Option.isNone).length = values.length ∧ fillGaps gapped values = result

namespace Text.Writes

theorem nil : Writes [] [] "" := ⟨rfl, rfl⟩

theorem text (s : String) : Writes [some s] [] s := ⟨rfl, by simp [fillGaps]⟩

theorem gap (value : String) : Writes [none] [value] value := ⟨rfl, by simp [fillGaps]⟩

theorem append {gapped further : List (Option String)} {values others : List String}
    {first second : String} (h : Writes gapped values first) (rest : Writes further others second) :
    Writes (gapped ++ further) (values ++ others) (first ++ second) := by
  obtain ⟨count, filled⟩ := h
  obtain ⟨restCount, rfl⟩ := rest
  refine ⟨by simp [count, restCount], ?_⟩
  -- The values that are left when the first text ends are those of the second.
  induction gapped generalizing values first with
  | nil =>
    obtain rfl := List.length_eq_zero_iff.1 count.symm
    simp [← filled, fillGaps]
  | cons piece gapped ih =>
    cases piece with
    | some s =>
      have later : fillGaps (gapped ++ further) (values ++ others) = fillGaps gapped values ++ _ :=
        ih (by simpa using count) rfl
      simp [← filled, fillGaps, later, String.append_assoc]
    | none =>
      cases values with
      | nil => simp at count
      | cons value values =>
        have later : fillGaps (gapped ++ further) (values ++ others) = fillGaps gapped values ++ _ :=
          ih (by simpa using count) rfl
        simp [← filled, fillGaps, later, String.append_assoc]

theorem enclosed {gapped : List (Option String)} {values : List String} {result : String}
    (h : Writes gapped values result) :
    Writes (some "(" :: (gapped ++ [some ")"])) values ("(" ++ result ++ ")") := by
  have whole := ((text "(").append h).append (text ")")
  rwa [List.nil_append, List.append_nil] at whole

end Text.Writes

open Text (Writes)

def Template.Part.gapped (value : String → Option (List (Option String))) :
    Template.Part → List (Option String)
  | .text cs => [some (String.ofList cs)]
  | .mark name => (value (String.ofList name)).getD [some (Template.mark (String.ofList name))]

def Operator.slotGapped (op : Operator) (d : Dialect) (left right third : List (Option String))
    (name : String) : Option (List (Option String)) :=
  if name = "op" then some [some (op.spelling d)]
  else (Slot.ofMarker? name).map fun
    | .left => left
    | .right => right
    | .third => third

mutual

def Expr.gapped (d : Dialect) : Expr → List (Option String)
  | .apply op left right third =>
    (Template.parts (op.template d third.isSome)).flatMap (Template.Part.gapped
      (op.slotGapped d (Expr.operandGapped d left) (Expr.operandGapped d right)
        (Expr.operandGapped d third)))
  | .group inner => some "(" :: (inner.gapped d ++ [some ")"])
  | .run atoms => Atom.allGapped d atoms
  | .nested c => c.gapped d

def Expr.operandGapped (d : Dialect) : Option Expr → List (Option String)
  | none => []
  | some e => e.gapped d

def Atom.gapped (d : Dialect) : Atom → List (Option String)
  | .operator op => [some (op.spelling d)]
  | .parameter _ => [none]
  | .column c => [some (c.render d)]
  | .comma => [some ","]
  | .unknown t => [some t.text]
  | .expr e => e.gapped d

def Atom.allGapped (d : Dialect) : List Atom → List (Option String)
  | [] => []
  | a :: as => a.gapped d ++ Atom.allGapped d as

def Condition.gapped (d : Dialect) : Condition → List (Option String)
  | .empty => [some "()"]
  | .test e => e.gapped d
  | .all parts =>
    some "(" :: (Condition.allGapped d (Operator.conjunction.separator d) parts ++ [some ")"])
  | .any parts =>
    some "(" :: (Condition.allGapped d (Operator.disjunction.separator d) parts ++ [some ")"])

def Condition.allGapped (d : Dialect) (separator : String) : List Condition → List (Option String)
  | [] => []
  | [c] => c.gapped d
  | c :: further :: cs =>
    c.gapped d ++ some separator :: Condition.allGapped d separator (further :: cs)

end

theorem Operator.slotGapped_eq (op : Operator) (d : Dialect) (gapped : Slot → List (Option String))
    (name : String) : op.slotGapped d (gapped .left) (gapped .right) (gapped .third) name =
      if name = "op" then some [some (op.spelling d)] else (Slot.ofMarker? name).map gapped := by
  unfold slotGapped
  congr 2
  funext slot
  cases slot <;> rfl

theorem Operator.writes_parts (op : Operator) (d : Dialect) {gapped : Slot → List (Option String)}
    {values : Slot → List String} {text : Slot → String}
    (h : ∀ slot, Writes (gapped slot) (values slot) (text slot)) (parts : List Template.Part) :
    Writes
      (parts.flatMap (Template.Part.gapped
        (op.slotGapped d (gapped .left) (gapped .right) (gapped .third))))
      ((Template.slots parts).flatMap values)
      (Text.concat (parts.map (Template.Part.filled
        (op.slotText d (text .left) (text .right) (text .third))))) := by
  induction parts with
  | nil => exact .nil
  | cons part parts ih =>
    rw [List.flatMap_cons, List.map_cons, Text.concat]
    cases part with
    | text cs => exact (Writes.text (String.ofList cs)).append ih
    | mark name =>
      simp only [Template.Part.gapped, Template.Part.filled, slotGapped_eq, slotText_eq]
      by_cases own : String.ofList name = "op"
      · have none : (Template.Part.mark name).slot? = none := by
          rw [Template.Part.slot?, own]
          decide
        rw [if_pos own, if_pos own, Template.slots, List.filterMap_cons_none none]
        exact (Writes.text (op.spelling d)).append ih
      · rw [if_neg own, if_neg own]
        cases marker : (Template.Part.mark name).slot? with
        | none =>
          rw [Template.slots, List.filterMap_cons_none marker, show Slot.ofMarker? _ = none from marker]
          exact (Writes.text (Template.mark (String.ofList name))).append ih
        | some slot =>
          rw [Template.slots, List.filterMap_cons_some marker, List.flatMap_cons,
            show Slot.ofMarker? _ = some slot from marker]
          exact (h slot).append ih

theorem Expr.writes_apply {op : Operator} {left right third : Option Expr} (d : Dialect)
    (implemented : op ∈ Operator.implemented) (fits : Fits op left right third)
    (first : Writes (operandGapped d left) ((operandParameters left).map (Parameter.render d))
      (renderOperand d left))
    (second : Writes (operandGapped d right) ((operandParameters right).map (Parameter.render d))
      (renderOperand d right))
    (last : Writes (operandGapped d third) ((operandParameters third).map (Parameter.render d))
      (renderOperand d third)) :
    Writes ((Expr.apply op left right third).gapped d)
      ((Expr.apply op left right third).parameters.map (Parameter.render d))
      ((Expr.apply op left right third).render d) := by
  let pick : Slot → Option Expr := fun
    | .left => left
    | .right => right
    | .third => third
  obtain ⟨formed, slots⟩ := Operator.template_parts implemented d third.isSome
  have taken (slot : Slot) : Template.takes (op.template .filter third.isSome) slot =
      (pick slot).isSome := by
    obtain ⟨first, second, last⟩ := fits
    cases slot <;> assumption
  have written (slot : Slot) : Writes (operandGapped d (pick slot))
      ((operandParameters (pick slot)).map (Parameter.render d)) (renderOperand d (pick slot)) := by
    cases slot <;> assumption
  -- An operand that has no place is not there, so it has no parameters.
  have kept (all : List Slot) :
      (all.filter (Template.takes (op.template .filter third.isSome))).flatMap
          (fun slot => (operandParameters (pick slot)).map (Parameter.render d)) =
        all.flatMap fun slot => (operandParameters (pick slot)).map (Parameter.render d) := by
    induction all with
    | nil => rfl
    | cons slot all ih =>
      cases present : (pick slot).isSome with
      | true => rw [List.filter_cons_of_pos ((taken slot).trans present), List.flatMap_cons, ih,
          List.flatMap_cons]
      | false =>
        have none : operandParameters (pick slot) = [] := by
          rw [Option.isSome_eq_false_iff, Option.isNone_iff_eq_none] at present
          rw [present]
          rfl
        rw [List.filter_cons_of_neg (by rw [taken, present]; decide), ih, List.flatMap_cons, none]
        rfl
  have whole := op.writes_parts d written (Template.parts (op.template d third.isSome))
  rw [slots, kept, ← Template.fill_ofParts _ formed, Template.ofParts_parts] at whole
  simpa [pick, Expr.gapped, Expr.render, Expr.parameters] using whole

theorem writes_rendering (d : Dialect) : Induction
    (fun e => e.Filled → Writes (e.gapped d) (e.parameters.map (Parameter.render d)) (e.render d))
    (fun e => Expr.OperandFilled e → Writes (Expr.operandGapped d e)
      ((Expr.operandParameters e).map (Parameter.render d)) (Expr.renderOperand d e))
    (fun a => a.Filled → Writes (a.gapped d) (a.parameters.map (Parameter.render d)) (a.render d))
    (fun as => Atom.AllFilled as → Writes (Atom.allGapped d as)
      ((Atom.allParameters as).map (Parameter.render d)) (Text.concat (Atom.renderAll d as)))
    (fun c => c.Filled → Writes (c.gapped d) (c.parameters.map (Parameter.render d)) (c.render d))
    (fun cs => Condition.AllFilled cs → ∀ separator, Writes (Condition.allGapped d separator cs)
      ((Condition.allParameters cs).map (Parameter.render d))
      (Text.join separator (Condition.renderAll d cs))) where
  apply op left right third first second last filled := by
    obtain ⟨implemented, fits, firstFilled, secondFilled, lastFilled⟩ := filled
    exact Expr.writes_apply d implemented fits (first firstFilled) (second secondFilled)
      (last lastFilled)
  group e h filled := (h filled).enclosed
  run as h := h
  nested c h := h
  absent _ := .nil
  present e h := h
  operator op _ := .text _
  parameter p _ := .gap _
  column c _ := .text _
  comma _ := .text _
  unknown t _ := .text _
  inner e h := h
  noAtoms _ := .nil
  moreAtoms a as first rest filled := by
    obtain ⟨own, further⟩ := filled
    rw [Atom.allGapped, Atom.allParameters, List.map_append, Atom.renderAll, Text.concat]
    exact (first own).append (rest further)
  empty _ := .text _
  test e h := h
  all cs h filled := (h filled _).enclosed
  any cs h filled := (h filled _).enclosed
  noParts _ _ := .nil
  moreParts c cs first rest filled separator := by
    obtain ⟨own, further⟩ := filled
    cases cs with
    | nil => simpa [Condition.allGapped, Text.join] using first own
    | cons next cs =>
      have whole := ((first own).append (.text separator)).append (rest further separator)
      simpa [Condition.allGapped, Text.join] using whole

theorem Operator.template_placeholder (op : Operator) (third : Bool) :
    op.template .placeholder third = op.template .sql third := by
  unfold template Templates.get
  split <;> rfl

theorem gapped_placeholder : Induction (fun e => e.gapped .placeholder = e.gapped .sql)
    (fun e => Expr.operandGapped .placeholder e = Expr.operandGapped .sql e)
    (fun a => a.gapped .placeholder = a.gapped .sql)
    (fun as => Atom.allGapped .placeholder as = Atom.allGapped .sql as)
    (fun c => c.gapped .placeholder = c.gapped .sql)
    (fun cs => ∀ separator, Condition.allGapped .placeholder separator cs =
      Condition.allGapped .sql separator cs) where
  apply op left right third first second last := by
    rw [Expr.gapped, Expr.gapped, first, second, last, Operator.template_placeholder]
    rfl
  group e h := by rw [Expr.gapped, Expr.gapped, h]
  run as h := h
  nested c h := h
  absent := rfl
  present e h := h
  operator op := rfl
  parameter p := rfl
  column c := rfl
  comma := rfl
  unknown t := rfl
  inner e h := h
  noAtoms := rfl
  moreAtoms a as first rest := by rw [Atom.allGapped, Atom.allGapped, first, rest]
  empty := rfl
  test e h := h
  all cs h := by
    rw [Condition.gapped, Condition.gapped, h]
    rfl
  any cs h := by
    rw [Condition.gapped, Condition.gapped, h]
    rfl
  noParts _ := rfl
  moreParts c cs first rest separator := by
    cases cs with
    | nil => exact first
    | cons next cs => rw [Condition.allGapped, Condition.allGapped, first, rest]

theorem gapped_change (d : Dialect) (χ : Change) (text : ∀ t, (χ.token t).text = t.text) : Induction
    (fun e => (e.change χ).gapped d = e.gapped d)
    (fun e => Expr.operandGapped d (Expr.changeOperand χ e) = Expr.operandGapped d e)
    (fun a => (a.change χ).gapped d = a.gapped d)
    (fun as => Atom.allGapped d (Atom.changeAll χ as) = Atom.allGapped d as)
    (fun c => (c.change χ).gapped d = c.gapped d)
    (fun cs => ∀ separator, Condition.allGapped d separator (Condition.changeAll χ cs) =
      Condition.allGapped d separator cs) where
  apply op left right third first second last := by
    rw [Expr.change, Expr.gapped, first, second, last, Expr.isSome_changeOperand, Expr.gapped]
  group e h := by rw [Expr.change, Expr.gapped, h, Expr.gapped]
  run as h := h
  nested c h := h
  absent := rfl
  present e h := h
  operator op := rfl
  parameter p := rfl
  column c := rfl
  comma := rfl
  unknown t := by rw [Atom.change, Atom.gapped, text, Atom.gapped]
  inner e h := h
  noAtoms := rfl
  moreAtoms a as first rest := by
    rw [Atom.changeAll, Atom.allGapped, first, rest, Atom.allGapped]
  empty := rfl
  test e h := h
  all cs h := by rw [Condition.change, Condition.gapped, h, Condition.gapped]
  any cs h := by rw [Condition.change, Condition.gapped, h, Condition.gapped]
  noParts _ := rfl
  moreParts c cs first rest separator := by
    cases cs with
    | nil => exact first
    | cons next cs =>
      have later := rest separator
      rw [Condition.changeAll] at later
      rw [Condition.changeAll, Condition.changeAll, Condition.allGapped, first, later,
        Condition.allGapped]

end WhereClause
