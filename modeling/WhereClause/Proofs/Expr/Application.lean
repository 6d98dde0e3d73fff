import WhereClause.Proofs.Expr.Filled
import WhereClause.Proofs.Reading.Basic
import WhereClause.Proofs.Rendering.Template

namespace WhereClause

structure Application where
  op : Operator
  left : Option Expr
  right : Option Expr
  third : Option Expr

namespace Application

def operand? (x : Application) : Slot → Option Expr
  | .left => x.left
  | .right => x.right
  | .third => x.third

def template (x : Application) (d : Dialect) : String := x.op.template d x.third.isSome

def slots (x : Application) : List Slot := [.left, .right, .third].filter fun slot => (x.operand? slot).isSome

/-- There is an operand exactly where the template of the filter language has a place for one. -/
def WellFormed (x : Application) : Prop :=
  ∀ slot, Template.takes (x.template .filter) slot = (x.operand? slot).isSome

theorem wellFormed_iff {x : Application} : x.WellFormed ↔ Expr.Fits x.op x.left x.right x.third := by
  constructor
  · intro h
    exact ⟨h .left, h .right, h .third⟩
  · rintro ⟨left, right, third⟩ slot
    cases slot with
    | left => exact left
    | right => exact right
    | third => exact third

end Application

mutual

def Expr.applications : Expr → List Application
  | .apply op left right third =>
    ⟨op, left, right, third⟩ :: (Expr.operandApplications left ++ Expr.operandApplications right ++
      Expr.operandApplications third)
  | .group inner => inner.applications
  | .run atoms => Atom.allApplications atoms
  | .nested c => c.applications

def Expr.operandApplications : Option Expr → List Application
  | none => []
  | some e => e.applications

def Atom.applications : Atom → List Application
  | .expr e => e.applications
  | _ => []

def Atom.allApplications : List Atom → List Application
  | [] => []
  | a :: as => a.applications ++ Atom.allApplications as

def Condition.applications : Condition → List Application
  | .empty => []
  | .test e => e.applications
  | .all parts => Condition.allApplications parts
  | .any parts => Condition.allApplications parts

def Condition.allApplications : List Condition → List Application
  | [] => []
  | c :: cs => c.applications ++ Condition.allApplications cs

end

def Application.Sound (xs : List Application) (reading : List Atom) : Prop :=
  (∀ x ∈ xs, x.WellFormed) ∧ ∀ op, .operator op ∈ reading → op ∈ Operator.implemented

theorem Application.sound_append {xs ys : List Application} {as bs : List Atom} :
    Sound (xs ++ ys) (as ++ bs) ↔ Sound xs as ∧ Sound ys bs := by
  simp only [Sound, List.mem_append, or_imp, forall_and]
  exact and_and_and_comm

theorem Application.sound_nil : Sound [] [] :=
  ⟨List.forall_mem_nil _, fun _ member => absurd member List.not_mem_nil⟩

theorem Expr.operator_mem_reading {op known : Operator} {left right third : Option Expr} :
    .operator known ∈ (apply op left right third).reading ↔
      known = op ∨ .operator known ∈ operandReading left ∨ .operator known ∈ operandReading right ∨
        .operator known ∈ operandReading third := by
  rw [reading]
  split
  · simp
  · simp [or_left_comm]

theorem filled_iff_sound : Induction
    (fun e => e.Filled ↔ Application.Sound e.applications e.reading)
    (fun e => Expr.OperandFilled e ↔ Application.Sound (Expr.operandApplications e) (Expr.operandReading e))
    (fun a => a.Filled ↔ Application.Sound a.applications a.reading)
    (fun as => Atom.AllFilled as ↔ Application.Sound (Atom.allApplications as) (Atom.readingOf as))
    (fun c => c.Filled ↔ Application.Sound c.applications c.reading)
    (fun cs => Condition.AllFilled cs ↔
      Application.Sound (Condition.allApplications cs) (Condition.readingOf cs)) where
  apply op left right third first second last := by
    have own : Application.WellFormed ⟨op, left, right, third⟩ ↔ Expr.Fits op left right third :=
      Application.wellFormed_iff
    rw [Expr.Filled, first, second, last, ← own]
    simp only [Application.Sound, Expr.applications, Expr.operator_mem_reading, List.mem_cons, List.mem_append,
      or_imp, forall_and, forall_eq]
    constructor
    · rintro ⟨known, formed, ⟨formed₁, known₁⟩, ⟨formed₂, known₂⟩, formed₃, known₃⟩
      exact ⟨⟨formed, ⟨formed₁, formed₂⟩, formed₃⟩, known, known₁, known₂, known₃⟩
    · rintro ⟨⟨formed, ⟨formed₁, formed₂⟩, formed₃⟩, known, known₁, known₂, known₃⟩
      exact ⟨known, formed, ⟨formed₁, known₁⟩, ⟨formed₂, known₂⟩, formed₃, known₃⟩
  group e h := h
  run as h := h
  nested c h := h
  absent := iff_of_true trivial Application.sound_nil
  present e h := h
  operator op := by simp [Atom.Filled, Application.Sound, Atom.applications, Atom.reading]
  parameter p := by simp [Atom.Filled, Application.Sound, Atom.applications, Atom.reading]
  column c := by simp [Atom.Filled, Application.Sound, Atom.applications, Atom.reading]
  comma := by simp [Atom.Filled, Application.Sound, Atom.applications, Atom.reading]
  unknown t := by simp [Atom.Filled, Application.Sound, Atom.applications, Atom.reading]
  inner e h := h
  noAtoms := iff_of_true trivial Application.sound_nil
  moreAtoms a as first rest := (and_congr first rest).trans Application.sound_append.symm
  empty := iff_of_true trivial Application.sound_nil
  test e h := h
  all cs h := h
  any cs h := h
  noParts := iff_of_true trivial Application.sound_nil
  moreParts c cs first rest := (and_congr first rest).trans Application.sound_append.symm

theorem Application.op_mem_reading : Induction
    (fun e => ∀ x ∈ e.applications, .operator x.op ∈ e.reading)
    (fun e => ∀ x ∈ Expr.operandApplications e, .operator x.op ∈ Expr.operandReading e)
    (fun a => ∀ x ∈ a.applications, .operator x.op ∈ a.reading)
    (fun as => ∀ x ∈ Atom.allApplications as, .operator x.op ∈ Atom.readingOf as)
    (fun c => ∀ x ∈ c.applications, .operator x.op ∈ c.reading)
    (fun cs => ∀ x ∈ Condition.allApplications cs, .operator x.op ∈ Condition.readingOf cs) where
  apply op left right third first second last x member := by
    rw [Expr.operator_mem_reading]
    rcases List.mem_cons.1 member with rfl | below
    · exact Or.inl rfl
    · rcases List.mem_append.1 below with below | here
      · rcases List.mem_append.1 below with here | here
        · exact Or.inr (Or.inl (first x here))
        · exact Or.inr (Or.inr (Or.inl (second x here)))
      · exact Or.inr (Or.inr (Or.inr (last x here)))
  group e h := h
  run as h := h
  nested c h := h
  absent := List.forall_mem_nil _
  present e h := h
  operator op := List.forall_mem_nil _
  parameter p := List.forall_mem_nil _
  column c := List.forall_mem_nil _
  comma := List.forall_mem_nil _
  unknown t := List.forall_mem_nil _
  inner e h := h
  noAtoms := List.forall_mem_nil _
  moreAtoms a as first rest x member := List.mem_append.2 ((List.mem_append.1 member).imp (first x) (rest x))
  empty := List.forall_mem_nil _
  test e h := h
  all cs h := h
  any cs h := h
  noParts := List.forall_mem_nil _
  moreParts c cs first rest x member := List.mem_append.2 ((List.mem_append.1 member).imp (first x) (rest x))

/-- The markers of operands in the template are these, one after the other. -/
def Template.Names (template : String) (slots : List Slot) : Prop :=
  ∃ parts : List Part, ofParts parts = template ∧ (∀ part ∈ parts, part.isFormed = true) ∧
    Template.slots parts = slots

theorem Application.WellFormed.names {x : Application} (h : x.WellFormed) (known : x.op ∈ Operator.implemented)
    (d : Dialect) : Template.Names (x.template d) x.slots := by
  obtain ⟨formed, places⟩ := Operator.template_parts known d x.third.isSome
  have taken : Template.takes (x.template .filter) = fun slot => (x.operand? slot).isSome := funext h
  refine ⟨_, Template.ofParts_parts _, formed, places.trans ?_⟩
  rw [slots, ← taken]
  rfl

/-- Atoms with well-formed applications in them, and implemented operators, form an expression with well-formed
    applications only. The template that any of them fills, in any dialect, names the slots that hold its
    operands, each once and in their order, and no other. -/
theorem Expr.applications_ofAtoms {atoms : List Atom} {e : Expr} (h : ofAtoms atoms = .ok e)
    (formed : ∀ a ∈ atoms, ∀ x ∈ a.applications, x.WellFormed)
    (known : ∀ a ∈ atoms, ∀ op, .operator op ∈ a.reading → op ∈ Operator.implemented) :
    ∀ x ∈ e.applications, x.WellFormed ∧ ∀ d, Template.Names (x.template d) x.slots := by
  have filled : e.Filled := (formed_of_ofAtoms h).filled fun a member =>
    (filled_iff_sound.ofAtom a).2 ⟨formed a member, known a member⟩
  obtain ⟨allFormed, allKnown⟩ := (filled_iff_sound.ofExpr e).1 filled
  intro x member
  have own := Application.op_mem_reading.ofExpr e x member
  exact ⟨allFormed x member, (allFormed x member).names (allKnown _ own)⟩

theorem Expr.applications_ofAtoms_overload :
    let add := Operator.alike .arithmetic "add" "+" Operator.Form.between
    let substring : Operator :=
      ⟨"substring", "SUBSTRING", .function, ⟨Operator.Form.call2, Operator.Form.call2⟩,
        some ⟨Operator.Form.call3, Operator.Form.call3⟩, none⟩
    let name : Column := ⟨some "t", "name"⟩
    let p : Parameter := ⟨"p", .int 2⟩
    let q : Parameter := ⟨"q", .int 3⟩
    let twice : Expr := .apply add (some (.run [.parameter p])) (some (.run [.parameter p])) none
    let atoms : List Atom := [.operator substring, .column name, .comma, .parameter q, .operator add,
      .expr (.group twice), .comma, .parameter p]
    (∀ a ∈ atoms, ∀ x ∈ a.applications, x.WellFormed) ∧
      (∀ a ∈ atoms, ∀ op, .operator op ∈ a.reading → op ∈ Operator.implemented) ∧
      ∃ e, ofAtoms atoms = .ok e ∧
        ∀ x ∈ e.applications, x.WellFormed ∧ ∀ d, Template.Names (x.template d) x.slots := by
  intro add substring name p q twice atoms
  have fits : Application.WellFormed ⟨add, some (.run [.parameter p]), some (.run [.parameter p]), none⟩ :=
    Application.wellFormed_iff.2 ⟨by decide +kernel, by decide +kernel, by decide +kernel⟩
  have formed : ∀ a ∈ atoms, ∀ x ∈ a.applications, x.WellFormed := by
    simpa [atoms, twice, Atom.applications, applications, operandApplications, Atom.allApplications] using fits
  have plus : add ∈ Operator.implemented := by decide +kernel
  have part : substring ∈ Operator.implemented := by decide +kernel
  have known : ∀ a ∈ atoms, ∀ op, .operator op ∈ a.reading → op ∈ Operator.implemented := by
    have notFunction : add.isFunction = false := rfl
    simp [atoms, twice, Atom.reading, reading, operandReading, Atom.readingOf, notFunction, plus, part]
  obtain ⟨e, built⟩ := exists_of_toBool (show (ofAtoms atoms).toBool = true by decide +kernel)
  exact ⟨formed, known, e, built, applications_ofAtoms built formed known⟩

end WhereClause
