import WhereClause.Proofs.Expr.Keep
import WhereClause.Proofs.Junction.Filter
import WhereClause.Proofs.Outline.Every
import WhereClause.Proofs.RoundTrip.Spoken

namespace WhereClause

def Condition.IsJoined : Condition → Prop
  | .all _ | .any _ => True
  | _ => False

theorem Condition.isJoined_join (j : Junction) (cs : List Condition) : (join j cs).IsJoined := by
  cases j <;> trivial

mutual

def Expr.isGrouped : Expr → Bool
  | .apply .. => false
  | .group _ => true
  | .run atoms => Atom.areGrouped atoms
  | .nested _ => false

def Atom.isGrouped : Atom → Bool
  | .expr e => e.isGrouped
  | _ => false

def Atom.areGrouped : List Atom → Bool
  | [a] => a.isGrouped
  | _ => false

end

mutual

/-- Operands that their templates enclose have no parentheses of their own, and conditions among operands are
    joined ones. -/
def Expr.Tidy : Expr → Prop
  | .apply op left right third =>
    (∀ slot, Template.encloses (op.template .filter third.isSome) slot = true →
      ∀ e ∈ Expr.slotted left right third slot, e.isGrouped = false) ∧
      Expr.OperandTidy left ∧ Expr.OperandTidy right ∧ Expr.OperandTidy third
  | .group inner => inner.Tidy
  | .run atoms => Atom.AllTidy atoms
  | .nested c => c.IsJoined ∧ c.Tidy

def Expr.OperandTidy : Option Expr → Prop
  | none => True
  | some e => e.Tidy

def Atom.Tidy : Atom → Prop
  | .expr e => e.Tidy ∧ e.ungrouped.isGrouped = false
  | _ => True

def Atom.AllTidy : List Atom → Prop
  | [] => True
  | a :: as => a.Tidy ∧ Atom.AllTidy as

def Condition.Tidy : Condition → Prop
  | .empty => True
  | .test e => e.Tidy
  | .all parts => Condition.AllTidy parts
  | .any parts => Condition.AllTidy parts

def Condition.AllTidy : List Condition → Prop
  | [] => True
  | c :: cs => c.Tidy ∧ Condition.AllTidy cs

end

@[simp] theorem Atom.allTidy_iff {as : List Atom} : AllTidy as ↔ ∀ a ∈ as, a.Tidy := by
  induction as with
  | nil => simp [AllTidy]
  | cons a as ih => simp [AllTidy, ih]

@[simp] theorem Condition.allTidy_iff {cs : List Condition} : AllTidy cs ↔ ∀ c ∈ cs, c.Tidy := by
  induction cs with
  | nil => simp [AllTidy]
  | cons c cs ih => simp [AllTidy, ih]

namespace Expr

theorem tidy_ungrouped (e : Expr) : e.ungrouped.Tidy ↔ e.Tidy := by
  induction e using Expr.ungrouped.induct with
  | case1 inner ih => simpa [ungrouped, Tidy] using ih
  | case2 e single => rw [ungrouped]; simpa using single

theorem ungrouped_eq {e : Expr} (h : ∀ inner, e ≠ .group inner) : e.ungrouped = e := by
  cases e with
  | group inner => exact absurd rfl (h inner)
  | _ => rfl

def Filling (e : Expr) : Prop := e.Tidy ∧ ((∃ as, e = .run as) ∨ e.ungrouped.isGrouped = false)

theorem tidy_strip {template : String} {slot : Slot} {e : Expr} (h : e.Tidy) : (strip template slot e).Tidy := by
  unfold strip
  split
  · split
    · simpa [tidy_ungrouped, Tidy, Atom.Tidy] using (Atom.allTidy_iff.1 h _ List.mem_cons_self).1
    · exact (tidy_ungrouped _).2 h
    · exact h
  · exact h

theorem isGrouped_strip {template : String} {slot : Slot} {e : Expr} (h : e.Filling)
    (encloses : Template.encloses template slot = true) : (strip template slot e).isGrouped = false := by
  obtain ⟨tidy, own⟩ := h
  unfold strip
  rw [if_pos encloses]
  split
  · next inner =>
    exact (Atom.allTidy_iff.1 tidy _ List.mem_cons_self).2
  · next inner =>
    rcases own with ⟨as, same⟩ | bare
    · cases same
    · exact bare
  · next other single =>
    rcases own with ⟨as, rfl⟩ | bare
    · match as with
      | [] | .operator _ :: [] | .parameter _ :: [] | .column _ :: [] | .comma :: [] | .unknown _ :: [] => rfl
      | _ :: _ :: _ => rfl
      | [.expr e] =>
        have bare := (Atom.allTidy_iff.1 tidy _ List.mem_cons_self).2
        rwa [ungrouped_eq fun inner same => other inner (by rw [same])] at bare
    · rwa [ungrouped_eq single] at bare

theorem tidy_stripped {op : Operator} {left right third : Option Expr} (first : ∀ e ∈ left, e.Filling)
    (second : ∀ e ∈ right, e.Filling) (last : ∀ e ∈ third, e.Filling) :
    (stripped op left right third).Tidy ∧ (stripped op left right third).ungrouped.isGrouped = false := by
  have operand (template : String) (slot : Slot) {e : Option Expr} (h : ∀ f ∈ e, f.Filling) :
      OperandTidy (e.map (strip template slot)) := by
    cases e with
    | none => trivial
    | some inner => exact tidy_strip (h inner rfl).1
  refine ⟨⟨fun slot encloses e member => ?_, operand _ .left first, operand _ .right second,
    operand _ .third last⟩, rfl⟩
  rw [Option.isSome_map] at encloses
  cases slot <;> obtain ⟨f, inside, rfl⟩ := Option.map_eq_some_iff.1 member
  · exact isGrouped_strip (first f inside) encloses
  · exact isGrouped_strip (second f inside) encloses
  · exact isGrouped_strip (last f inside) encloses

theorem keeps_tidy : Keeps Atom.Tidy (fun e => ∀ f ∈ e, f.Filling)
    (fun e => e.Tidy ∧ e.ungrouped.isGrouped = false) where
  comma a h := by
    cases a with
    | comma => trivial
    | _ => cases h
  expr e := Iff.rfl
  parameter p := ⟨⟨trivial, trivial⟩, rfl⟩
  column c := ⟨⟨trivial, trivial⟩, rfl⟩
  absent := nofun
  run as _ h := by
    rintro _ ⟨⟩
    exact ⟨Atom.allTidy_iff.2 h, Or.inl ⟨as, rfl⟩⟩
  present e h := by
    rintro _ ⟨⟩
    exact ⟨h.1, Or.inr h.2⟩
  stripped op left right third _ _ := tidy_stripped

end Expr

theorem Condition.tidy_join {j : Junction} {cs : List Condition} (h : ∀ c ∈ cs, c.Tidy) :
    (join j cs).Tidy := by
  have kept : ∀ c ∈ withoutEmpty cs, c.Tidy := fun c member => h c (mem_withoutEmpty.1 member).1
  cases j <;> simpa [join, Tidy] using kept

theorem Atom.tidy_ofToken (v : Vocabulary) (name : String) (t : Token) : (ofToken v name t).Tidy := by
  cases atom : ofToken v name t with
  | expr e => exact absurd atom (ofToken_ne_expr v name t e)
  | _ => trivial

namespace Node

theorem tidy_keeps : Keeps (fun n c => Every Atom.Tidy [n] → c.Tidy)
    (fun ns cs => Every Atom.Tidy ns → ∀ c ∈ cs, c.Tidy)
    (fun ns as => Every Atom.Tidy ns → ∀ a ∈ as, a.Tidy) :=
  keeps_of_formed (fun e => e.Tidy ∧ e.ungrouped.isGrouped = false)
    (fun _ _ => Expr.keeps_tidy.formed) (fun _ h => h) (fun _ h => h)
    (fun j cs h => ⟨⟨Condition.isJoined_join j cs, h⟩, rfl⟩) trivial (fun _ h => h.1)
    fun _ _ => Condition.tidy_join

end Node

theorem Condition.tidy_of_compile {s : Settings} {v : Vocabulary} {filter : String} {c : Condition}
    (h : (compile s v filter).result = .ok c) : c.Tidy := by
  obtain ⟨outline, found, compiled⟩ := compile_eq_ok.1 h
  exact Node.tidy_keeps.compile compiled (Node.every_ofFilter found (Atom.tidy_ofToken v))

end WhereClause
