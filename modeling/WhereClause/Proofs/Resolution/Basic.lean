import WhereClause.Proofs.Expr.Keep
import WhereClause.Proofs.Outline.Every
import WhereClause.Proofs.Separation.Filter

namespace WhereClause

/-- All atoms of the operands in it, at any depth, are known, and none of them is an operator. -/
def Expr.Resolved (e : Expr) : Prop := ∀ run ∈ e.runs, ∀ a ∈ run, a.isPlain = true

def Atom.Resolved (a : Atom) : Prop := ∀ run ∈ a.runs, ∀ b ∈ run, b.isPlain = true

def Condition.Resolved (c : Condition) : Prop := ∀ run ∈ c.runs, ∀ a ∈ run, a.isPlain = true

namespace Expr

theorem runs_ungrouped (e : Expr) : e.ungrouped.runs = e.runs := by
  induction e using Expr.ungrouped.induct with
  | case1 inner ih => simpa [ungrouped, runs] using ih
  | case2 e single => rw [ungrouped]; simpa using single

theorem mem_runs_of_strip {template : String} {slot : Slot} {e : Expr} {run : List Atom}
    (h : run ∈ (strip template slot e).runs) : run ∈ e.runs := by
  -- Without its parentheses an operand is no longer an atom of another one, but it adds no run.
  unfold strip at h
  split at h
  · split at h
    · rw [runs_ungrouped] at h
      simp [runs, Atom.runs, h]
    · rwa [runs_ungrouped] at h
    · exact h
  · exact h

theorem mem_runs_stripped {op : Operator} {left right third : Option Expr} {run : List Atom}
    (h : run ∈ (stripped op left right third).runs) :
    run ∈ operandRuns left ∨ run ∈ operandRuns right ∨ run ∈ operandRuns third := by
  have operand (template : String) (slot : Slot) (e : Option Expr)
      (inside : run ∈ operandRuns (e.map (strip template slot))) : run ∈ operandRuns e := by
    cases e with
    | none => exact inside
    | some inner => exact mem_runs_of_strip inside
  rcases List.mem_append.1 h with both | third
  · rcases List.mem_append.1 both with left | right
    · exact Or.inl (operand _ _ _ left)
    · exact Or.inr (Or.inl (operand _ _ _ right))
  · exact Or.inr (Or.inr (operand _ _ _ third))

theorem resolved_stripped {op : Operator} {left right third : Option Expr}
    (first : ∀ run ∈ operandRuns left, ∀ a ∈ run, a.isPlain = true)
    (second : ∀ run ∈ operandRuns right, ∀ a ∈ run, a.isPlain = true)
    (last : ∀ run ∈ operandRuns third, ∀ a ∈ run, a.isPlain = true) :
    (stripped op left right third).Resolved := by
  intro run inside
  rcases mem_runs_stripped inside with left | right | third
  · exact first run left
  · exact second run right
  · exact last run third

theorem keeps_resolved : Keeps Atom.Resolved
    (fun e => ∀ run ∈ operandRuns e, ∀ a ∈ run, a.isPlain = true) Expr.Resolved where
  comma a h := by
    cases a with
    | comma => nofun
    | _ => cases h
  expr e := Iff.rfl
  parameter p := by simp [Resolved, runs, Atom.runs, Atom.isPlain, Atom.isOperator, Atom.operator?, Atom.unknown?]
  column c := by simp [Resolved, runs, Atom.runs, Atom.isPlain, Atom.isOperator, Atom.operator?, Atom.unknown?]
  absent := nofun
  run as plain h := by
    intro run inside
    rcases List.mem_cons.1 inside with rfl | below
    · exact plain
    · obtain ⟨a, member, inner⟩ := List.mem_flatMap.1 (Atom.runsOf_eq as ▸ below)
      exact h a member run inner
  present e h := h
  stripped op left right third _ _ := resolved_stripped

theorem Formed.resolved {atoms : List Atom} {e : Expr} (h : Formed atoms e)
    (resolved : ∀ a ∈ atoms, a.Resolved) : e.Resolved := keeps_resolved.formed h resolved

end Expr

theorem Condition.resolved_join {j : Junction} {cs : List Condition} (h : ∀ c ∈ cs, c.Resolved) :
    (join j cs).Resolved := by
  have kept : ∀ run ∈ (withoutEmpty cs).flatMap runs, ∀ a ∈ run, a.isPlain = true := by
    intro run inside
    obtain ⟨c, member, inner⟩ := List.mem_flatMap.1 inside
    exact h c (mem_withoutEmpty.1 member).1 run inner
  cases j <;> simpa [join, Resolved, runs] using kept

theorem Atom.resolved_ofToken (v : Vocabulary) (name : String) (t : Token) :
    (ofToken v name t).Resolved := by
  cases comma : t.isComma with
  | true =>
    rw [ofToken_of_isComma v name comma]
    nofun
  | false =>
    have simple := isSimple_ofToken v name comma
    cases atom : ofToken v name t with
    | expr e =>
      rw [atom] at simple
      cases simple
    | _ => nofun

namespace Node

theorem resolved_keeps : Keeps (fun n c => Every Atom.Resolved [n] → c.Resolved)
    (fun ns cs => Every Atom.Resolved ns → ∀ c ∈ cs, c.Resolved)
    (fun ns as => Every Atom.Resolved ns → ∀ a ∈ as, a.Resolved) :=
  keeps_of_formed Expr.Resolved (fun _ _ formed => formed.resolved) (fun _ h => h)
    (fun _ h => h) (fun _ _ h => h) nofun (fun _ h => h) fun _ _ => Condition.resolved_join

end Node

theorem Condition.resolved_of_compile {s : Settings} {v : Vocabulary} {filter : String} {c : Condition}
    (h : (compile s v filter).result = .ok c) : c.Resolved := by
  obtain ⟨outline, found, compiled⟩ := compile_eq_ok.1 h
  exact Node.resolved_keeps.compile compiled (Node.every_ofFilter found (Atom.resolved_ofToken v))

end WhereClause
