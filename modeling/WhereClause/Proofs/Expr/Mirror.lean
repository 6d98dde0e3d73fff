import WhereClause.Proofs.Expr.Change
import WhereClause.Proofs.Expr.Formed
import WhereClause.Proofs.Mirror

namespace WhereClause

/-- A look at faults that does not see what is changed in the atoms. -/
structure Change.Unseen {κ : Type} (look : Fault → κ) (χ : Change) : Prop where
  unresolved (keyword : String) (slot : Slot) (t : Token) :
    look (.unresolved t.text keyword slot t.position) =
      look (.unresolved (χ.token t).text keyword slot (χ.token t).position)
  withoutOperator (atoms : List Atom) : look (Expr.withoutOperator atoms) =
    look (Expr.withoutOperator (atoms.map (Atom.change χ)))
  stray (op : Operator) (a : Atom) :
    look (Expr.strayFault op a) = look (Expr.strayFault op (a.change χ))

theorem Change.unseen_kind (χ : Change) : χ.Unseen Fault.kind where
  unresolved _ _ _ := rfl
  withoutOperator _ := by
    unfold Expr.withoutOperator
    split <;> split <;> rfl
  stray op a := by
    have structural (stray : Atom) : (Expr.strayFault op stray).kind = "Structural error" := by
      unfold Expr.strayFault
      cases stray.unknown? <;> rfl
    rw [structural, structural]

namespace Atom

variable (χ : Change)

@[simp] theorem operator?_change (a : Atom) : (a.change χ).operator? = a.operator? := by cases a <;> rfl

@[simp] theorem isOperator_change (a : Atom) : (a.change χ).isOperator = a.isOperator := by
  cases a <;> rfl

@[simp] theorem isComma_change (a : Atom) : (a.change χ).isComma = a.isComma := by cases a <;> rfl

@[simp] theorem unknown?_change (a : Atom) : (a.change χ).unknown? = a.unknown?.map χ.token := by
  cases a <;> rfl

theorem any_isOperator_change (atoms : List Atom) :
    (atoms.map (change χ)).any isOperator = atoms.any isOperator := by
  induction atoms with
  | nil => rfl
  | cons a as ih => simp [ih]

theorem any_isComma_change (atoms : List Atom) :
    (atoms.map (change χ)).any isComma = atoms.any isComma := by
  induction atoms with
  | nil => rfl
  | cons a as ih => simp [ih]

theorem firstUnknown?_change (atoms : List Atom) :
    firstUnknown? (atoms.map (change χ)) = (firstUnknown? atoms).map χ.token := by
  induction atoms with
  | nil => rfl
  | cons a as ih =>
    unfold firstUnknown? at ih ⊢
    cases own : a.unknown? <;> simp [own, ih]

theorem splitAtOperator_change (atoms : List Atom) :
    splitAtOperator (atoms.map (change χ)) =
      (splitAtOperator atoms).map fun s => (s.1.map (change χ), s.2.1, s.2.2.map (change χ)) := by
  induction atoms with
  | nil => rfl
  | cons a as ih =>
    cases own : a.operator? with
    | some op => simp [splitAtOperator, own]
    | none =>
      simp only [List.map_cons, splitAtOperator, operator?_change, own, ih, Option.map_map]
      rfl

theorem commaParts_change (atoms : List Atom) :
    commaParts (atoms.map (change χ)) = (commaParts atoms).map (List.map (change χ)) := by
  induction atoms with
  | nil => rfl
  | cons a as ih =>
    simp only [List.map_cons, commaParts, isComma_change, ih]
    split
    · rfl
    · cases commaParts as <;> rfl

end Atom

def Arguments.change (χ : Change) (args : Arguments) : Arguments :=
  ⟨args.left.map (Atom.change χ), args.right.map (Atom.change χ), args.third.map (Atom.change χ)⟩

theorem Arguments.read_change {κ : Type} (look : Fault → κ) (χ : Change) (op : Operator)
    (atoms : List Atom) : MirrorsBy look (change χ) (read op atoms) (read op (atoms.map (Atom.change χ))) := by
  have cut : parts (atoms.map (Atom.change χ)) = (parts atoms).map (List.map (Atom.change χ)) := by
    cases atoms with
    | nil => rfl
    | cons a as => exact Atom.commaParts_change χ (a :: as)
  have empty (all : List (List Atom)) :
      (all.map (List.map (Atom.change χ))).any List.isEmpty = all.any List.isEmpty := by
    simp [List.any_map, Function.comp_def]
  rw [read, read, cut, List.length_map, empty]
  split
  · exact .error rfl
  · rcases parts atoms with _ | ⟨a, _ | ⟨b, _ | ⟨c, _ | ⟨d, rest⟩⟩⟩⟩
    · exact .ok _
    · exact .ok _
    · exact .ok _
    · exact .ok _
    · exact .error rfl

namespace Expr

open Atom

variable (χ : Change)

theorem operand_change (atoms : List Atom) :
    operand (atoms.map (Atom.change χ)) = (operand atoms).map (change χ) := by
  cases atoms <;> simp [operand, change]

theorem ungrouped_change (e : Expr) : (e.change χ).ungrouped = e.ungrouped.change χ := by
  induction e using Expr.ungrouped.induct with
  | case1 inner ih => simpa [ungrouped, change] using ih
  | case2 e single =>
    cases e with
    | group inner => exact absurd rfl (single inner)
    | _ => rfl

theorem strip_change (template : String) (slot : Slot) (e : Expr) :
    (strip template slot e).change χ = strip template slot (e.change χ) := by
  unfold strip
  split
  · cases e with
    | group inner => exact (ungrouped_change χ inner).symm
    | run atoms =>
      rcases atoms with _ | ⟨a, _ | ⟨b, rest⟩⟩
      · rfl
      · cases a with
        | expr e =>
          cases e with
          | group inner => exact (ungrouped_change χ inner).symm
          | _ => rfl
        | _ => rfl
      · cases a with
        | expr e => cases e <;> rfl
        | _ => rfl
    | _ => rfl
  · rfl

variable {κ : Type} {look : Fault → κ}

theorem applied_change (op : Operator) (left right third : Option Expr) :
    MirrorsBy look (change χ) (applied op left right third)
      (applied op (left.map (change χ)) (right.map (change χ)) (third.map (change χ))) := by
  have checked (template : String) (slot : Slot) (e : Option Expr) :
      MirrorsBy look id (checkSlot op template slot e) (checkSlot op template slot (e.map (change χ))) := by
    unfold checkSlot
    rw [Option.isNone_map, Option.isSome_map]
    split
    · exact .error rfl
    · split
      · exact .error rfl
      · exact .ok ()
  have kept (template : String) (slot : Slot) (e : Option Expr) :
      (e.map (change χ)).map (strip template slot) = (e.map (strip template slot)).map (change χ) := by
    cases e with
    | none => rfl
    | some inner => exact congrArg some (strip_change χ template slot inner).symm
  simp only [applied, Option.isSome_map, kept]
  refine (checked _ .left left).bind fun _ => (checked _ .right right).bind fun _ =>
    (checked _ .third third).bind fun _ => ?_
  rw [← changeOperand_eq, ← changeOperand_eq, ← changeOperand_eq]
  exact .ok _

variable {χ} (unseen : χ.Unseen look)

include unseen

theorem plainOperand_change (op : Operator) (slot : Slot) (atoms : List Atom) :
    MirrorsBy look (Option.map (change χ)) (plainOperand op slot atoms)
      (plainOperand op slot (atoms.map (Atom.change χ))) := by
  unfold plainOperand
  rw [firstUnknown?_change, operand_change]
  cases firstUnknown? atoms with
  | none => exact .ok _
  | some t => exact .error (unseen.unresolved op.keyword slot t)

theorem argument_change (op : Operator) (slot : Slot) (atoms : List Atom) {built other : Except Fault Expr}
    (h : MirrorsBy look (change χ) built other) :
    MirrorsBy look (Option.map (change χ)) (argument op slot atoms built)
      (argument op slot (atoms.map (Atom.change χ)) other) := by
  unfold argument
  rw [any_isOperator_change]
  split
  · exact h.map fun _ => rfl
  · exact plainOperand_change unseen op slot atoms

theorem alone_change (atoms : List Atom) :
    MirrorsBy look (change χ) (alone atoms) (alone (atoms.map (Atom.change χ))) := by
  match atoms with
  | [] => exact .error (unseen.withoutOperator _)
  | a :: b :: rest =>
    have single (a b : Atom) (rest : List Atom) :
        alone (a :: b :: rest) = .error (withoutOperator (a :: b :: rest)) := by
      cases a <;> rfl
    rw [List.map_cons, List.map_cons, single, single]
    exact .error (unseen.withoutOperator _)
  | [a] =>
    cases a with
    | expr e => exact .ok e
    | parameter p => exact .ok _
    | column c => exact .ok _
    | _ => exact .error (unseen.withoutOperator _)

theorem call_change {op : Operator} {args : Arguments}
    (h : ∀ slot, MirrorsBy look (change χ) (ofAtoms (args.get slot))
      (ofAtoms ((args.get slot).map (Atom.change χ)))) :
    MirrorsBy look (change χ) (call op args) (call op (args.change χ)) := by
  refine (argument_change unseen op .left args.left (h .left)).bind fun left => ?_
  refine (argument_change unseen op .right args.right (h .right)).bind fun right => ?_
  refine (argument_change unseen op .third args.third (h .third)).bind fun third => ?_
  exact applied_change χ op left right third

theorem between_change {op : Operator} {after : List Atom}
    (delegated : MirrorsBy look (change χ) (ofAtoms after) (ofAtoms (after.map (Atom.change χ))))
    (chained : ∀ middle next further current, splitAtOperator after = some (middle, next, further) →
      middle ≠ [] → MirrorsBy look (change χ) (ofAtoms (.expr current :: .operator next :: further))
        (ofAtoms ((.expr current :: .operator next :: further).map (Atom.change χ))))
    (left : Option Expr) :
    MirrorsBy look (change χ) (between op after left)
      (between op (after.map (Atom.change χ)) (left.map (change χ))) := by
  unfold between
  rw [splitAtOperator_change]
  cases rest : splitAtOperator after with
  | none =>
    simp only [Option.map_none, any_isComma_change]
    split
    · exact .error rfl
    · exact (plainOperand_change unseen op .right after).bind fun right =>
        applied_change χ op left right none
  | some found =>
    obtain ⟨middle, next, further⟩ := found
    simp only [Option.map_some, any_isComma_change, List.map_eq_nil_iff]
    split
    · exact .error rfl
    · split
      · exact delegated.bind fun right => applied_change χ op left (some right) none
      · next nonempty =>
        refine (plainOperand_change unseen op .right middle).bind fun right => ?_
        refine (applied_change χ op left right none).bind fun current => ?_
        exact chained middle next further current rest nonempty

theorem ofAtoms_change (atoms : List Atom) :
    MirrorsBy look (change χ) (ofAtoms atoms) (ofAtoms (atoms.map (Atom.change χ))) := by
  -- The first operator stands at the same place in both lists, so both take the same way.
  induction atoms using ofAtoms.induct with
  | case1 atoms none =>
    have also := splitAtOperator_change χ atoms
    rw [none] at also
    rw [ofAtoms_alone none, ofAtoms_alone also]
    exact alone_change unseen atoms
  | case2 atoms op after function stray before split =>
    have also := splitAtOperator_change χ atoms
    rw [split] at also
    rw [ofAtoms_stray split function, ofAtoms_stray also function]
    exact .error (unseen.stray op stray)
  | case3 atoms op after function split fault read =>
    have also := splitAtOperator_change χ atoms
    have alike := Arguments.read_change look χ op after
    rw [split] at also
    rw [ofAtoms_call split function, ofAtoms_call also function]
    rw [read] at alike ⊢
    generalize Arguments.read op (after.map (Atom.change χ)) = other at alike ⊢
    cases alike with
    | error same => exact .error same
  | case4 atoms op after function split args read _ left right third =>
    have also := splitAtOperator_change χ atoms
    have alike := Arguments.read_change look χ op after
    rw [split] at also
    rw [ofAtoms_call split function, ofAtoms_call also function]
    rw [read] at alike ⊢
    generalize Arguments.read op (after.map (Atom.change χ)) = other at alike ⊢
    cases alike with
    | ok args =>
      refine call_change unseen fun slot => ?_
      cases slot <;> assumption
  | case5 atoms before op after split function delegated chained =>
    have also := splitAtOperator_change χ atoms
    rw [split] at also
    have infixed : op.isFunction = false := by simpa using function
    rw [ofAtoms_between split infixed, ofAtoms_between also infixed]
    refine (plainOperand_change unseen op .left before).bind ?_
    exact between_change unseen delegated fun middle next further current rest nonempty =>
      chained middle next further rest nonempty current

end Expr

end WhereClause
