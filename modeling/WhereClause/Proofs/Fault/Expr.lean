import WhereClause.Proofs.Expr.Formed

namespace WhereClause

namespace Fault

def isUnresolved : Fault → Bool
  | .unresolved .. => true
  | _ => false

/-- The place of the fault, if it has one, is that of a listed token with the text of the fault. An operand that
    could not be resolved is a lost token. -/
def Cites (listed lost : Token → Prop) (f : Fault) : Prop :=
  ∀ p, f.position? = some p →
    ∃ t, listed t ∧ f.token? = some t.text ∧ t.position = p ∧ (f.isUnresolved = true → lost t)

variable {listed lost : Token → Prop}

theorem cites_unplaced (cause : Structural) : (unplaced cause).Cites listed lost := nofun

theorem cites_atToken (cause : Structural) {t : Token} (h : listed t) :
    (atToken cause t).Cites listed lost := by
  rintro _ ⟨⟩
  exact ⟨t, h, rfl, rfl, nofun⟩

theorem cites_unresolved {t : Token} (known : listed t) (h : lost t) (keyword : String) (slot : Slot) :
    (unresolved t.text keyword slot t.position).Cites listed lost := by
  rintro _ ⟨⟩
  exact ⟨t, known, rfl, rfl, fun _ => h⟩

theorem cites_missingOperator {first : Option Token} (h : ∀ t ∈ first, listed t) :
    (missingOperator (first.map Token.text) (first.map Token.position)).Cites listed lost := by
  intro p placed
  obtain ⟨t, rfl, rfl⟩ := Option.map_eq_some_iff.1 placed
  exact ⟨t, h t rfl, rfl, rfl, nofun⟩

end Fault

def FailsWith {α : Type} (p : Fault → Prop) (x : Except Fault α) : Prop := ∀ f, x = .error f → p f

section

variable {α β : Type} {p : Fault → Prop}

theorem failsWith_ok (a : α) : FailsWith p (.ok a) := nofun

theorem failsWith_error {f : Fault} (h : p f) : FailsWith p (.error f : Except Fault α) := by
  rintro _ ⟨⟩
  exact h

theorem FailsWith.bind {x : Except Fault α} {next : α → Except Fault β} (h : FailsWith p x)
    (later : ∀ a, FailsWith p (next a)) : FailsWith p (x >>= next) := by
  cases x with
  | error f => exact failsWith_error (h f rfl)
  | ok a => exact later a

end

def Atom.UnknownIn (lost : Token → Prop) (a : Atom) : Prop := ∀ t ∈ a.unknown?, lost t

theorem Atom.exists_of_firstUnknown? {lost : Token → Prop} {atoms : List Atom} {t : Token}
    (unknown : ∀ a ∈ atoms, a.UnknownIn lost) (h : firstUnknown? atoms = some t) : lost t := by
  obtain ⟨a, member, own⟩ := List.exists_of_findSome?_eq_some h
  exact unknown a member t own

theorem Atom.unknownIn_expr {lost : Token → Prop} (e : Expr) : (Atom.expr e).UnknownIn lost := nofun

theorem Atom.unknownIn_of_isComma {lost : Token → Prop} (a : Atom) (h : a.isComma = true) : a.UnknownIn lost := by
  cases a with
  | comma => nofun
  | _ => cases h

variable {listed lost : Token → Prop}

theorem Arguments.failsWith_read (op : Operator) (atoms : List Atom) :
    FailsWith (Fault.Cites listed lost) (read op atoms) := by
  rw [read]
  split
  · exact failsWith_error (Fault.cites_unplaced _)
  · unfold ofParts
    split
    · exact failsWith_ok _
    · exact failsWith_ok _
    · exact failsWith_ok _
    · exact failsWith_ok _
    · exact failsWith_error (Fault.cites_unplaced _)

namespace Expr

open Atom

theorem failsWith_checkSlot (op : Operator) (template : String) (slot : Slot) (e : Option Expr) :
    FailsWith (Fault.Cites listed lost) (checkSlot op template slot e) := by
  unfold checkSlot
  split
  · exact failsWith_error (Fault.cites_unplaced _)
  · split
    · exact failsWith_error (Fault.cites_unplaced _)
    · exact failsWith_ok ()

theorem failsWith_applied (op : Operator) (left right third : Option Expr) :
    FailsWith (Fault.Cites listed lost) (applied op left right third) :=
  (failsWith_checkSlot op _ .left left).bind fun _ =>
    (failsWith_checkSlot op _ .right right).bind fun _ =>
      (failsWith_checkSlot op _ .third third).bind fun _ => failsWith_ok _

variable (known : ∀ t, lost t → listed t) {atoms : List Atom} (unknown : ∀ a ∈ atoms, a.UnknownIn lost)

include known unknown

theorem failsWith_plainOperand (op : Operator) (slot : Slot) :
    FailsWith (Fault.Cites listed lost) (plainOperand op slot atoms) := by
  unfold plainOperand
  split
  · next t first =>
    have own := exists_of_firstUnknown? unknown first
    exact failsWith_error (Fault.cites_unresolved (known t own) own _ slot)
  · exact failsWith_ok _

theorem failsWith_argument (op : Operator) (slot : Slot) {built : Except Fault Expr}
    (h : FailsWith (Fault.Cites listed lost) built) :
    FailsWith (Fault.Cites listed lost) (argument op slot atoms built) := by
  unfold argument
  split
  · exact h.bind fun e => failsWith_ok (some e)
  · exact failsWith_plainOperand known unknown op slot

theorem cites_withoutOperator : (withoutOperator atoms).Cites listed lost := by
  unfold withoutOperator
  split
  · next t first =>
    have own : ∀ u ∈ some t, listed u := by
      rintro _ ⟨⟩
      exact known t (exists_of_firstUnknown? unknown first)
    exact Fault.cites_missingOperator own
  · nofun

theorem failsWith_alone : FailsWith (Fault.Cites listed lost) (alone atoms) := by
  unfold alone
  split
  · exact failsWith_ok _
  · exact failsWith_ok _
  · exact failsWith_ok _
  · exact failsWith_error (cites_withoutOperator known unknown)

omit unknown

theorem cites_strayFault (op : Operator) {stray : Atom} (h : stray.UnknownIn lost) :
    (strayFault op stray).Cites listed lost := by
  unfold strayFault
  split
  · next t own => exact Fault.cites_atToken _ (known t (h t own))
  · exact Fault.cites_unplaced _

include unknown

theorem failsWith_between (op : Operator)
    (delegated : FailsWith (Fault.Cites listed lost) (ofAtoms atoms))
    (chained : ∀ middle next further current,
      splitAtOperator atoms = some (middle, next, further) → middle ≠ [] →
      FailsWith (Fault.Cites listed lost) (ofAtoms (.expr current :: .operator next :: further)))
    (left : Option Expr) : FailsWith (Fault.Cites listed lost) (between op atoms left) := by
  unfold between
  split
  · split
    · exact failsWith_error (Fault.cites_unplaced _)
    · exact (failsWith_plainOperand known unknown op .right).bind fun right => failsWith_applied op left right none
  · next middle next further rest =>
    rw [eq_append_of_splitAtOperator rest] at unknown
    split
    · exact failsWith_error (Fault.cites_unplaced _)
    · split
      · exact delegated.bind fun right => failsWith_applied op left (some right) none
      · next nonempty =>
        refine (failsWith_plainOperand known (List.forall_mem_append.1 unknown).1 op .right).bind fun right => ?_
        refine (failsWith_applied op left right none).bind fun current => ?_
        exact chained middle next further current rest nonempty

theorem failsWith_ofAtoms : FailsWith (Fault.Cites listed lost) (ofAtoms atoms) := by
  -- Every recursive call is about atoms of the list, or about an expression that takes the place of some of them
  -- and is no unknown token.
  induction atoms using ofAtoms.induct with
  | case1 atoms none =>
    rw [ofAtoms_alone none]
    exact failsWith_alone known unknown
  | case2 atoms op after function stray before split =>
    rw [ofAtoms_stray split function]
    rw [eq_append_of_splitAtOperator split] at unknown
    exact failsWith_error (cites_strayFault known op (unknown stray List.mem_cons_self))
  | case3 atoms op after function split fault read =>
    rw [ofAtoms_call split function, read]
    exact failsWith_error (Arguments.failsWith_read op after fault read)
  | case4 atoms op after function split args read _ left right third =>
    rw [ofAtoms_call split function, read]
    rw [eq_append_of_splitAtOperator split] at unknown
    have slots := (Arguments.forall_atoms read unknownIn_of_isComma).2 (List.forall_mem_cons.1 unknown).2
    refine (failsWith_argument known (slots .left) op .left (left (slots .left))).bind fun _ => ?_
    refine (failsWith_argument known (slots .right) op .right (right (slots .right))).bind fun _ => ?_
    refine (failsWith_argument known (slots .third) op .third (third (slots .third))).bind fun _ => ?_
    exact failsWith_applied op _ _ _
  | case5 atoms before op after split function delegated chained =>
    rw [ofAtoms_between split (by simpa using function)]
    rw [eq_append_of_splitAtOperator split] at unknown
    obtain ⟨left, rest⟩ := List.forall_mem_append.1 unknown
    obtain ⟨-, right⟩ := List.forall_mem_cons.1 rest
    refine (failsWith_plainOperand known left op .left).bind fun operand => ?_
    refine failsWith_between known right op (delegated right) (fun middle next further current found nonempty => ?_) _
    refine chained middle next further found nonempty current ?_
    rw [eq_append_of_splitAtOperator found] at right
    exact List.forall_mem_cons.2 ⟨unknownIn_expr current, (List.forall_mem_append.1 right).2⟩

end Expr

end WhereClause
