import WhereClause.Expr.OfAtoms

namespace WhereClause

theorem bind_eq_ok {ε α β : Type} {x : Except ε α} {next : α → Except ε β} {b : β} :
    (x >>= next) = .ok b ↔ ∃ a, x = .ok a ∧ next a = .ok b := by
  cases x <;> simp [bind, Except.bind]

theorem exists_of_toBool {ε α : Type} {x : Except ε α} (h : x.toBool = true) : ∃ a, x = .ok a := by
  cases x with
  | error e => cases h
  | ok a => exact ⟨a, rfl⟩

namespace Atom

def isPlain (a : Atom) : Bool := !a.isOperator && a.unknown?.isNone

theorem known_of_isPlain {a : Atom} (h : a.isPlain = true) : a.unknown? = none := by
  simp_all [isPlain]

theorem splitAtOperator_none {atoms : List Atom} (h : splitAtOperator atoms = none) :
    ∀ a ∈ atoms, a.isOperator = false := by
  induction atoms with
  | nil => simp
  | cons a as ih =>
    simp only [splitAtOperator] at h
    split at h
    · cases h
    · next absent =>
      have rest := ih (Option.map_eq_none_iff.1 h)
      intro b member
      rcases List.mem_cons.1 member with rfl | member
      · simp [isOperator, absent]
      · exact rest b member

theorem splitAtOperator_before {atoms before after : List Atom} {op : Operator}
    (h : splitAtOperator atoms = some (before, op, after)) : ∀ a ∈ before, a.isOperator = false := by
  induction atoms generalizing before with
  | nil => simp [splitAtOperator] at h
  | cons a as ih =>
    simp only [splitAtOperator] at h
    split at h
    · obtain ⟨rfl, -⟩ := Prod.mk.inj (Option.some.inj h)
      simp
    · next absent =>
      obtain ⟨⟨first, second⟩, found, same⟩ := Option.map_eq_some_iff.1 h
      obtain ⟨rfl, rfl⟩ := Prod.mk.inj same
      intro b member
      rcases List.mem_cons.1 member with rfl | member
      · simp [isOperator, absent]
      · exact ih found b member

theorem commaParts_ne_nil (atoms : List Atom) : commaParts atoms ≠ [] := by
  cases atoms with
  | nil => simp [commaParts]
  | cons a as =>
    simp only [commaParts]
    split
    · simp
    · split <;> simp

theorem forall_commaParts {p : Atom → Prop} (comma : ∀ a, a.isComma = true → p a)
    {atoms : List Atom} :
    (∀ part ∈ commaParts atoms, ∀ a ∈ part, p a) ↔ ∀ a ∈ atoms, p a := by
  induction atoms with
  | nil => simp [commaParts]
  | cons a as ih =>
    simp only [commaParts]
    split
    · next isComma => simp [ih, comma a isComma]
    · split
      · next none => exact absurd none (commaParts_ne_nil as)
      · next first rest found =>
        rw [found] at ih
        simp only [List.forall_mem_cons, ← ih, and_assoc]

end Atom

def Arguments.get (args : Arguments) : Slot → List Atom
  | .left => args.left
  | .right => args.right
  | .third => args.third

theorem Arguments.read_cases {op : Operator} {atoms : List Atom} {args : Arguments}
    (h : read op atoms = .ok args) :
    (atoms = [] ∧ args.left = [] ∧ args.right = [] ∧ args.third = []) ∨
      (Atom.commaParts atoms = [args.left] ∧ args.right = [] ∧ args.third = []) ∨
      (Atom.commaParts atoms = [args.left, args.right] ∧ args.third = []) ∨
      Atom.commaParts atoms = [args.left, args.right, args.third] := by
  have listed : ofParts op (parts atoms) = .ok args := by
    simp only [read] at h
    split at h
    · cases h
    · exact h
  cases atoms with
  | nil =>
    cases listed
    exact Or.inl ⟨rfl, rfl, rfl, rfl⟩
  | cons first rest =>
    simp only [parts, List.isEmpty_cons, Bool.false_eq_true, if_false] at listed
    right
    unfold ofParts at listed
    split at listed
    · next none => exact absurd none (Atom.commaParts_ne_nil _)
    · next only =>
      cases listed
      exact Or.inl ⟨only, rfl, rfl⟩
    · next both =>
      cases listed
      exact Or.inr (Or.inl ⟨both, rfl⟩)
    · next three =>
      cases listed
      exact Or.inr (Or.inr three)
    · cases listed

theorem Arguments.forall_parts {op : Operator} {atoms : List Atom} {args : Arguments}
    (h : read op atoms = .ok args) {p : List Atom → Prop} (nil : p []) :
    (∀ part ∈ Atom.commaParts atoms, p part) ↔ ∀ slot, p (args.get slot) := by
  have slots : (∀ slot, p (args.get slot)) ↔ p args.left ∧ p args.right ∧ p args.third :=
    ⟨fun all => ⟨all .left, all .right, all .third⟩, fun ⟨left, right, third⟩ slot => by
      cases slot <;> assumption⟩
  rw [slots]
  rcases read_cases h with ⟨rfl, left, right, third⟩ | ⟨listed, right, third⟩ | ⟨listed, third⟩ | listed
  · simp [Atom.commaParts, left, right, third, nil]
  · simp [listed, right, third, nil]
  · simp [listed, third, nil]
  · simp [listed]

theorem Arguments.forall_atoms {op : Operator} {atoms : List Atom} {args : Arguments}
    (h : read op atoms = .ok args) {p : Atom → Prop} (comma : ∀ a, a.isComma = true → p a) :
    (∀ slot, ∀ a ∈ args.get slot, p a) ↔ ∀ a ∈ atoms, p a := by
  rw [← Atom.forall_commaParts comma, forall_parts h (p := fun part => ∀ a ∈ part, p a) nofun]

namespace Expr

open Atom

def argumentOf (atoms : List Atom) (formed : Expr) : Option Expr :=
  if atoms.any isOperator then some formed else operand atoms

/-- The operands that the template of an operator has places for, and no others. -/
def Fits (op : Operator) (left right third : Option Expr) : Prop :=
  Template.takes (op.template .filter third.isSome) .left = left.isSome ∧
    Template.takes (op.template .filter third.isSome) .right = right.isSome ∧
    Template.takes (op.template .filter third.isSome) .third = third.isSome

def stripped (op : Operator) (left right third : Option Expr) : Expr :=
  let template := op.template .filter third.isSome
  .apply op (left.map (strip template .left)) (right.map (strip template .right))
    (third.map (strip template .third))

theorem checkSlot_eq_ok {op : Operator} {template : String} {slot : Slot} {e : Option Expr}
    {u : Unit} : checkSlot op template slot e = .ok u ↔ Template.takes template slot = e.isSome := by
  unfold checkSlot
  cases Template.takes template slot <;> cases e <;> simp

theorem applied_eq_ok {op : Operator} {left right third : Option Expr} {e : Expr} :
    applied op left right third = .ok e ↔
      Fits op left right third ∧ e = stripped op left right third := by
  simp only [applied, bind_eq_ok, checkSlot_eq_ok, Fits, stripped]
  constructor
  · rintro ⟨_, first, _, second, _, last, same⟩
    exact ⟨⟨first, second, last⟩, (Except.ok.inj same).symm⟩
  · rintro ⟨⟨first, second, last⟩, rfl⟩
    exact ⟨(), first, (), second, (), last, rfl⟩

theorem plainOperand_eq_ok {op : Operator} {slot : Slot} {atoms : List Atom} {e : Option Expr} :
    plainOperand op slot atoms = .ok e ↔ (∀ a ∈ atoms, a.unknown? = none) ∧ e = operand atoms := by
  unfold plainOperand firstUnknown?
  cases h : atoms.findSome? unknown? with
  | none =>
    have known : ∀ a ∈ atoms, a.unknown? = none := by simpa using h
    simp only [Except.ok.injEq]
    exact ⟨fun same => ⟨known, same.symm⟩, fun ⟨_, same⟩ => same.symm⟩
  | some t =>
    obtain ⟨a, member, names⟩ := List.exists_of_findSome?_eq_some h
    simp only [reduceCtorEq, false_iff, not_and]
    intro known
    rw [known a member] at names
    cases names

inductive Formed : List Atom → Expr → Prop where
  | expr (e : Expr) : Formed [.expr e] e
  | parameter (p : Parameter) : Formed [.parameter p] (.run [.parameter p])
  | column (c : Column) : Formed [.column c] (.run [.column c])
  -- `inner` is what the arguments with operators form; for the others it is of no account.
  | call {op : Operator} {after : List Atom} {args : Arguments} (inner : Slot → Expr)
      (function : op.isFunction = true) (read : Arguments.read op after = .ok args)
      (plain : ∀ slot, (args.get slot).any isOperator = false →
        ∀ a ∈ args.get slot, a.isPlain = true)
      (formed : ∀ slot, (args.get slot).any isOperator = true →
        Formed (args.get slot) (inner slot))
      (fits : Fits op (argumentOf args.left (inner .left)) (argumentOf args.right (inner .right))
        (argumentOf args.third (inner .third))) :
      Formed (.operator op :: after) (stripped op (argumentOf args.left (inner .left))
        (argumentOf args.right (inner .right)) (argumentOf args.third (inner .third)))
  | between {op : Operator} {before after : List Atom} (function : op.isFunction = false)
      (left : ∀ a ∈ before, a.isPlain = true)
      (right : ∀ a ∈ after, a.isPlain = true ∧ a.isComma = false)
      (fits : Fits op (operand before) (operand after) none) :
      Formed (before ++ .operator op :: after) (stripped op (operand before) (operand after) none)
  /-- An operator directly after another one is part of its right operand. -/
  | inner {op next : Operator} {before further : List Atom} {right : Expr}
      (function : op.isFunction = false) (left : ∀ a ∈ before, a.isPlain = true)
      (formed : Formed (.operator next :: further) right)
      (fits : Fits op (operand before) (some right) none) :
      Formed (before ++ .operator op :: .operator next :: further)
        (stripped op (operand before) (some right) none)
  | chain {op next : Operator} {before middle further : List Atom} {e : Expr}
      (function : op.isFunction = false) (left : ∀ a ∈ before, a.isPlain = true)
      (right : ∀ a ∈ middle, a.isPlain = true ∧ a.isComma = false) (nonempty : middle ≠ [])
      (fits : Fits op (operand before) (operand middle) none)
      (formed : Formed
        (.expr (stripped op (operand before) (operand middle) none) :: .operator next :: further) e) :
      Formed (before ++ .operator op :: (middle ++ .operator next :: further)) e

theorem ofAtoms_alone {atoms : List Atom} (h : splitAtOperator atoms = none) :
    ofAtoms atoms = alone atoms := by
  rw [ofAtoms]
  split
  · rfl
  · next found =>
    rw [found] at h
    cases h

theorem ofAtoms_stray {atoms before after : List Atom} {op : Operator} {stray : Atom}
    (h : splitAtOperator atoms = some (stray :: before, op, after))
    (function : op.isFunction = true) : ofAtoms atoms = .error (strayFault op stray) := by
  rw [ofAtoms]
  split
  · next found =>
    rw [found] at h
    cases h
  · next found =>
    rw [found] at h
    cases h
    rw [if_pos function]

def call (op : Operator) (args : Arguments) : Except Fault Expr := do
  let left ← argument op .left args.left (ofAtoms args.left)
  let right ← argument op .right args.right (ofAtoms args.right)
  let third ← argument op .third args.third (ofAtoms args.third)
  applied op left right third

theorem ofAtoms_call {atoms after : List Atom} {op : Operator}
    (h : splitAtOperator atoms = some ([], op, after)) (function : op.isFunction = true) :
    ofAtoms atoms = (Arguments.read op after >>= call op) := by
  rw [ofAtoms]
  split
  · next found =>
    rw [found] at h
    cases h
  · next found =>
    rw [found] at h
    cases h
    rw [if_pos function]
    dsimp only
    split
    · next read => rw [read]; rfl
    · next read => rw [read]; rfl

def between (op : Operator) (after : List Atom) (left : Option Expr) : Except Fault Expr :=
  match splitAtOperator after with
  | none =>
    if after.any isComma then .error (.unplaced (.commaAfter op.keyword))
    else plainOperand op .right after >>= fun right => applied op left right none
  | some (middle, next, further) =>
    if middle.any isComma then .error (.unplaced (.commaAfter op.keyword))
    else if middle = [] then ofAtoms after >>= fun right => applied op left (some right) none
    else plainOperand op .right middle >>= fun right =>
      applied op left right none >>= fun current =>
        ofAtoms (.expr current :: .operator next :: further)

theorem ofAtoms_between {atoms before after : List Atom} {op : Operator}
    (h : splitAtOperator atoms = some (before, op, after)) (function : op.isFunction = false) :
    ofAtoms atoms = (plainOperand op .left before >>= between op after) := by
  rw [ofAtoms]
  split
  · next found =>
    rw [found] at h
    cases h
  · next found =>
    rw [found] at h
    cases h
    rw [if_neg (by simp [function])]
    congr 1
    funext left
    unfold between
    split
    · next rest => rw [rest]
    · next rest =>
      rw [rest]
      dsimp only
      split
      · rfl
      · split <;> rfl

theorem argument_eq_ok {op : Operator} {slot : Slot} {atoms : List Atom} {built : Except Fault Expr}
    {e : Option Expr} (h : argument op slot atoms built = .ok e) :
    ∃ inner, e = argumentOf atoms inner ∧ (atoms.any isOperator = true → built = .ok inner) ∧
      (atoms.any isOperator = false → ∀ a ∈ atoms, a.isPlain = true) := by
  unfold argument at h
  cases operators : atoms.any isOperator with
  | true =>
    rw [if_pos operators] at h
    cases built with
    | error fault => cases h
    | ok inner =>
      cases h
      exact ⟨inner, by simp [argumentOf, operators], fun _ => rfl, nofun⟩
  | false =>
    rw [if_neg (by simp [operators])] at h
    obtain ⟨known, rfl⟩ := plainOperand_eq_ok.1 h
    refine ⟨default, by simp [argumentOf, operators], nofun, fun _ a member => ?_⟩
    have absent : a.isOperator = false := by simpa using List.any_eq_false.1 operators a member
    simp [isPlain, absent, known a member]

theorem formed_of_alone {atoms : List Atom} {e : Expr} (h : alone atoms = .ok e) : Formed atoms e := by
  unfold alone at h
  split at h <;> cases h
  · exact .expr _
  · exact .parameter _
  · exact .column _

theorem plain_of_split {atoms : List Atom} (operators : ∀ a ∈ atoms, a.isOperator = false)
    (known : ∀ a ∈ atoms, a.unknown? = none) : ∀ a ∈ atoms, a.isPlain = true := by
  intro a member
  simp [isPlain, operators a member, known a member]

theorem formed_of_call {atoms after : List Atom} {op : Operator} {args : Arguments} {e : Expr}
    (split : splitAtOperator atoms = some ([], op, after)) (function : op.isFunction = true)
    (read : Arguments.read op after = .ok args)
    (inner : ∀ slot e, ofAtoms (args.get slot) = .ok e → Formed (args.get slot) e)
    (h : ofAtoms atoms = .ok e) : Formed atoms e := by
  rw [ofAtoms_call split function, read] at h
  simp only [call, bind_eq_ok, Except.ok.injEq, exists_eq_left'] at h
  obtain ⟨left, leftRead, right, rightRead, third, thirdRead, whole⟩ := h
  obtain ⟨first, rfl, firstBuilt, firstPlain⟩ := argument_eq_ok leftRead
  obtain ⟨second, rfl, secondBuilt, secondPlain⟩ := argument_eq_ok rightRead
  obtain ⟨last, rfl, lastBuilt, lastPlain⟩ := argument_eq_ok thirdRead
  obtain ⟨fits, rfl⟩ := applied_eq_ok.1 whole
  rw [eq_append_of_splitAtOperator split]
  -- Only arguments with operators form anything; for the others any expression will do.
  let given : Slot → Expr := fun | .left => first | .right => second | .third => last
  refine .call given function read (fun slot => ?_) (fun slot operators => ?_) fits
  · cases slot
    · exact firstPlain
    · exact secondPlain
    · exact lastPlain
  · apply inner
    cases slot
    · exact firstBuilt operators
    · exact secondBuilt operators
    · exact lastBuilt operators

theorem formed_of_between {atoms before after : List Atom} {op : Operator} {e : Expr}
    (split : splitAtOperator atoms = some (before, op, after)) (function : op.isFunction = false)
    (delegated : ∀ e, ofAtoms after = .ok e → Formed after e)
    (chained : ∀ middle next further current e,
      splitAtOperator after = some (middle, next, further) → middle ≠ [] →
      ofAtoms (.expr current :: .operator next :: further) = .ok e →
      Formed (.expr current :: .operator next :: further) e)
    (h : ofAtoms atoms = .ok e) : Formed atoms e := by
  rw [ofAtoms_between split function] at h
  obtain ⟨left, leftRead, h⟩ := bind_eq_ok.1 h
  obtain ⟨known, rfl⟩ := plainOperand_eq_ok.1 leftRead
  have plain := plain_of_split (splitAtOperator_before split) known
  rw [eq_append_of_splitAtOperator split]
  unfold between at h
  cases rest : splitAtOperator after with
  | none =>
    simp only [rest] at h
    split at h
    · cases h
    · next commas =>
      obtain ⟨right, rightRead, h⟩ := bind_eq_ok.1 h
      obtain ⟨afterKnown, rfl⟩ := plainOperand_eq_ok.1 rightRead
      obtain ⟨fits, rfl⟩ := applied_eq_ok.1 h
      have afterPlain := plain_of_split (splitAtOperator_none rest) afterKnown
      exact .between function plain (fun a member => ⟨afterPlain a member, by simp_all⟩) fits
  | some found =>
    obtain ⟨middle, next, further⟩ := found
    simp only [rest] at h
    split at h
    · cases h
    · next commas =>
      split at h
      · next empty =>
        obtain ⟨right, rightRead, h⟩ := bind_eq_ok.1 h
        obtain ⟨fits, rfl⟩ := applied_eq_ok.1 h
        have formed := delegated right rightRead
        rw [eq_append_of_splitAtOperator rest, empty] at formed ⊢
        exact .inner function plain formed fits
      · next nonempty =>
        obtain ⟨right, rightRead, h⟩ := bind_eq_ok.1 h
        obtain ⟨middleKnown, rfl⟩ := plainOperand_eq_ok.1 rightRead
        obtain ⟨current, currentRead, h⟩ := bind_eq_ok.1 h
        obtain ⟨fits, rfl⟩ := applied_eq_ok.1 currentRead
        have middlePlain := plain_of_split (splitAtOperator_before rest) middleKnown
        have formed := chained middle next further _ e rest nonempty h
        rw [eq_append_of_splitAtOperator rest]
        exact .chain function plain (fun a member => ⟨middlePlain a member, by simp_all⟩) nonempty
          fits formed

theorem formed_of_ofAtoms {atoms : List Atom} {e : Expr} (h : ofAtoms atoms = .ok e) :
    Formed atoms e := by
  induction atoms using ofAtoms.induct generalizing e with
  | case1 atoms none =>
    rw [ofAtoms_alone none] at h
    exact formed_of_alone h
  | case2 atoms op after function stray before split =>
    rw [ofAtoms_stray split function] at h
    cases h
  | case3 atoms op after function split fault read =>
    rw [ofAtoms_call split function, read] at h
    cases h
  | case4 atoms op after function split args read _ left right third =>
    refine formed_of_call split function read (fun slot e built => ?_) h
    cases slot
    · exact left built
    · exact right built
    · exact third built
  | case5 atoms before op after split function delegated chained =>
    refine formed_of_between split (by simpa using function) (fun _ => delegated) ?_ h
    intro middle next further current e rest nonempty built
    exact chained middle next further rest nonempty current built

end Expr

end WhereClause
