import Mathlib.Data.List.Induction
import WhereClause.Proofs.Junction.Filter
import WhereClause.Proofs.Outline.Filled
import WhereClause.Proofs.Rendering.Empty

namespace WhereClause

namespace Condition

mutual

def tests : Condition → List Expr
  | .empty => []
  | .test e => [e]
  | .all parts => testsOf parts
  | .any parts => testsOf parts

def testsOf : List Condition → List Expr
  | [] => []
  | c :: cs => c.tests ++ testsOf cs

end

@[simp] theorem testsOf_eq (cs : List Condition) : testsOf cs = cs.flatMap tests := by
  induction cs with
  | nil => rfl
  | cons c cs ih => simp [testsOf, ih]

mutual

theorem parameters_eq_tests : ∀ c : Condition, c.parameters = c.tests.flatMap Expr.parameters
  | .empty => rfl
  | .test e => (List.append_nil e.parameters).symm
  | .all parts => allParameters_eq_tests parts
  | .any parts => allParameters_eq_tests parts

theorem allParameters_eq_tests : ∀ cs : List Condition,
    allParameters cs = (testsOf cs).flatMap Expr.parameters
  | [] => rfl
  | c :: cs => by
    rw [allParameters, parameters_eq_tests c, allParameters_eq_tests cs, testsOf, List.flatMap_append]

end

theorem parameters_of_tests {c : Condition} {es : List Expr} (h : c.tests = es) :
    c.parameters = es.flatMap Expr.parameters := h ▸ parameters_eq_tests c

theorem tests_of_isEmpty {c : Condition} (h : c.isEmpty = true) : c.tests = [] := by
  cases c with
  | empty => rfl
  | test e => cases h
  | all parts => rw [tests, List.isEmpty_iff.1 h, testsOf]
  | any parts => rw [tests, List.isEmpty_iff.1 h, testsOf]

theorem tests_join (j : Junction) (cs : List Condition) : (join j cs).tests = cs.flatMap tests := by
  have kept : (withoutEmpty cs).flatMap tests = cs.flatMap tests := by
    induction cs with
    | nil => rfl
    | cons c cs ih =>
      rw [withoutEmpty] at ih ⊢
      rw [List.flatMap_cons, ← ih]
      cases bare : c.isEmpty with
      | true => rw [List.filter_cons_of_neg (by simp [bare]), tests_of_isEmpty bare, List.nil_append]
      | false => rw [List.filter_cons_of_pos (by simp [bare]), List.flatMap_cons]
  cases j <;> simp [join, tests, kept]

theorem tests_push (c child : Condition) : (c.push child).tests = c.tests ++ child.tests := by
  unfold push
  split
  · next bare => rw [tests_of_isEmpty bare, List.append_nil]
  · cases c <;> simp [tests]

/-- An applied operator in every test, and parts that say something in every joined condition at any depth. -/
structure Orderly (c : Condition) : Prop where
  applied : ∀ e, c = .test e → e.IsApplied
  proper : ∀ join ∈ c.joins, ∀ part ∈ join.2, part.Proper
  filled : c.Filled

theorem orderly_empty : Orderly .empty := ⟨nofun, nofun, trivial⟩

theorem Orderly.parts {c : Condition} (h : c.Orderly) : ∀ part ∈ c.parts, part.Proper := by
  cases c with
  | all cs => exact h.proper (.all, cs) List.mem_cons_self
  | any cs => exact h.proper (.any, cs) List.mem_cons_self
  | _ => nofun

theorem Orderly.isEmpty_iff {c : Condition} (h : c.Orderly) : c.isEmpty = true ↔ c.render .sql = "()" :=
  isEmpty_iff_render h.applied h.parts h.filled

theorem Orderly.isProper {c : Condition} (h : c.Orderly) (full : c.isEmpty = false) : c.Proper := ⟨full, h.applied⟩

theorem orderly_of_compile {s : Settings} {v : Vocabulary} {filter : String} {c : Condition}
    (h : (compile s v filter).result = .ok c) : c.Orderly := by
  obtain ⟨whole, joined⟩ := joins_of_compile h
  refine ⟨?_, fun join member => (joined join member).2, filled_of_compile h⟩
  rintro e rfl
  rcases whole with none | proper
  · cases none
  · exact proper.2 e rfl

theorem orderly_joined {j : Junction} {cs : List Condition} (h : ∀ c ∈ cs, c.Orderly)
    (full : ∀ c ∈ cs, c.isEmpty = false) : (join j cs).Orderly where
  applied e same := by cases j <;> cases same
  proper := by
    rw [joins_join full]
    refine List.forall_mem_cons.2 ⟨fun c member => (h c member).isProper (full c member), ?_⟩
    intro join inside
    obtain ⟨c, member, within⟩ := List.mem_flatMap.1 inside
    exact (h c member).proper join within
  filled := filled_join fun c member => (h c member).filled

theorem orderly_join {j : Junction} {cs : List Condition} (h : ∀ c ∈ cs, c.Orderly) : (join j cs).Orderly := by
  have kept : join j (withoutEmpty cs) = join j cs := by cases j <;> simp [join, withoutEmpty]
  rw [← kept]
  exact orderly_joined (fun c member => h c (mem_withoutEmpty.1 member).1) fun c member =>
    (mem_withoutEmpty.1 member).2

theorem orderly_part {c part : Condition} (h : c.Orderly) (member : part ∈ c.parts) : part.Orderly := by
  have below : ∀ join ∈ part.joins, join ∈ c.joins := by
    intro join inside
    cases c with
    | all cs => simpa [joins] using Or.inr ⟨part, member, inside⟩
    | any cs => simpa [joins] using Or.inr ⟨part, member, inside⟩
    | _ => cases member
  refine ⟨(h.parts part member).2, fun join inside => h.proper join (below join inside), ?_⟩
  have filled := h.filled
  cases c with
  | all cs => exact allFilled_iff.1 filled part member
  | any cs => exact allFilled_iff.1 filled part member
  | _ => cases member

theorem orderly_push {c child : Condition} (h : c.Orderly) (added : child.Orderly) : (c.push child).Orderly := by
  unfold push
  split
  · exact h
  · next bare =>
    have full : child.isEmpty = false := by simpa using bare
    -- With what is added, the parts are still such as joining takes all of them.
    have all {cs : List Condition} (proper : ∀ d ∈ cs, d.isEmpty = false) :
        ∀ d ∈ cs ++ [child], d.isEmpty = false :=
      List.forall_mem_append.2 ⟨proper, List.forall_mem_singleton.2 full⟩
    have joined (j : Junction) {cs : List Condition} (own : ∀ d ∈ cs, d.Orderly)
        (proper : ∀ d ∈ cs, d.isEmpty = false) : (join j (cs ++ [child])).Orderly :=
      orderly_joined (List.forall_mem_append.2 ⟨own, List.forall_mem_singleton.2 added⟩) (all proper)
    cases c with
    | empty => exact added
    | test e =>
      have alone : ∀ d ∈ [test e], d.isEmpty = false := List.forall_mem_singleton.2 rfl
      have whole := joined .all (List.forall_mem_singleton.2 h) alone
      rw [join_eq (all alone)] at whole
      exact whole
    | all cs =>
      have whole := joined .all (fun d member => orderly_part h member) fun d member => (h.parts d member).1
      rw [join_eq (all fun d member => (h.parts d member).1)] at whole
      exact whole
    | any cs =>
      have whole := joined .any (fun d member => orderly_part h member) fun d member => (h.parts d member).1
      rw [join_eq (all fun d member => (h.parts d member).1)] at whole
      exact whole

end Condition

inductive Step (κ : Type) where
  | compile (cell : κ) (s : Settings) (v : Vocabulary) (filter : String)
  | join (cell : κ) (j : Junction) (of : List κ)
  | push (cell source : κ)
  | part (cell source : κ) (index : Nat)

abbrev Cells (κ : Type) := κ → Condition

namespace Cells

variable {κ : Type} [DecidableEq κ]

def empty : Cells κ := fun _ => .empty

/-- A filter that does not compile leaves its cell as it is, and a part that is not there is empty. -/
def step (cells : Cells κ) : Step κ → Cells κ
  | .compile cell s v filter =>
    match (Condition.compile s v filter).result with
    | .ok c => Function.update cells cell c
    | .error _ => cells
  | .join cell j of => Function.update cells cell (Condition.join j (of.map cells))
  | .push cell source => Function.update cells cell ((cells cell).push (cells source))
  | .part cell source index => Function.update cells cell ((cells source).parts[index]?.getD .empty)

def run (steps : List (Step κ)) : Cells κ := steps.foldl step empty

theorem orderly_update {cells : Cells κ} (h : ∀ cell, (cells cell).Orderly) (cell : κ) {c : Condition}
    (own : c.Orderly) : ∀ other, (Function.update cells cell c other).Orderly :=
  (Function.forall_update_iff cells fun _ d => d.Orderly).2 ⟨own, fun other _ => h other⟩

theorem orderly_step {cells : Cells κ} (h : ∀ cell, (cells cell).Orderly) (s : Step κ) :
    ∀ cell, (cells.step s cell).Orderly := by
  cases s with
  | compile cell s v filter =>
    cases compiled : (Condition.compile s v filter).result with
    | ok c =>
      simp only [step, compiled]
      exact orderly_update h cell (Condition.orderly_of_compile compiled)
    | error f =>
      simp only [step, compiled]
      exact h
  | join cell j of => exact orderly_update h cell (Condition.orderly_join (List.forall_mem_map.2 fun k _ => h k))
  | push cell source => exact orderly_update h cell (Condition.orderly_push (h cell) (h source))
  | part cell source index =>
    refine orderly_update h cell ?_
    cases found : (cells source).parts[index]? with
    | none => exact Condition.orderly_empty
    | some part => exact Condition.orderly_part (h source) (List.mem_of_getElem? found)

theorem run_snoc (steps : List (Step κ)) (s : Step κ) : run (steps ++ [s]) = (run steps).step s := by
  rw [run, List.foldl_append]
  rfl

theorem orderly_run (steps : List (Step κ)) : ∀ cell, (run steps cell).Orderly := by
  induction steps using List.reverseRecOn with
  | nil => exact fun _ => Condition.orderly_empty
  | append_singleton steps s ih =>
    rw [run_snoc]
    exact orderly_step ih s

/-- After any steps no joined condition in a cell, at any depth, has a part that says nothing, and the condition in a
    cell says nothing exactly if it is written as an empty pair of parentheses. Joined cells have their tests and
    parameters one after the other, and a cell that another is added to has its own and then those of the other. -/
theorem run_orderly (steps : List (Step κ)) (cell : κ) :
    (∀ join ∈ (run steps cell).joins, ∀ part ∈ join.2, part.isEmpty = false) ∧
      ((run steps cell).isEmpty = true ↔ (run steps cell).render .sql = "()") ∧
      (∀ j of, (run (steps ++ [.join cell j of]) cell).tests = of.flatMap (fun k => (run steps k).tests) ∧
        (run (steps ++ [.join cell j of]) cell).parameters = of.flatMap fun k => (run steps k).parameters) ∧
      ∀ source,
        (run (steps ++ [.push cell source]) cell).tests = (run steps cell).tests ++ (run steps source).tests ∧
        (run (steps ++ [.push cell source]) cell).parameters =
          (run steps cell).parameters ++ (run steps source).parameters := by
  have own := orderly_run steps cell
  have joined (j : Junction) (of : List κ) :
      (run (steps ++ [.join cell j of]) cell).tests = of.flatMap fun k => (run steps k).tests := by
    rw [run_snoc, step, Function.update_self, Condition.tests_join, List.flatMap_map]
  have pushed (source : κ) : (run (steps ++ [.push cell source]) cell).tests =
      (run steps cell).tests ++ (run steps source).tests := by
    rw [run_snoc, step, Function.update_self, Condition.tests_push]
  refine ⟨fun join member part inside => (own.proper join member part inside).1, own.isEmpty_iff,
    fun j of => ⟨joined j of, ?_⟩, fun source => ⟨pushed source, ?_⟩⟩
  · rw [Condition.parameters_of_tests (joined j of), List.flatMap_assoc]
    simp only [Condition.parameters_eq_tests]
  · rw [Condition.parameters_of_tests (pushed source), List.flatMap_append]
    simp only [Condition.parameters_eq_tests]

end Cells

end WhereClause
