import WhereClause.Proofs.Outline.Filled
import WhereClause.Proofs.Rendering.Gaps

namespace WhereClause

namespace Text

/-- The values between the pieces: the first piece, the first value, the second piece and so on. -/
def weave : List String → List String → String
  | piece :: pieces, value :: values => piece ++ value ++ weave pieces values
  | piece :: _, [] => piece
  | [], _ => ""

def pieces : List (Option String) → List String
  | [] => [""]
  | none :: rest => "" :: pieces rest
  | some s :: rest =>
    match pieces rest with
    | [] => [s]
    | piece :: further => (s ++ piece) :: further

theorem Writes.weave {gapped : List (Option String)} {values : List String} {result : String}
    (h : Writes gapped values result) :
    (pieces gapped).length = values.length + 1 ∧ weave (pieces gapped) values = result := by
  obtain ⟨count, rfl⟩ := h
  induction gapped generalizing values with
  | nil =>
    obtain rfl := List.length_eq_zero_iff.1 count.symm
    exact ⟨rfl, rfl⟩
  | cons piece gapped ih =>
    cases piece with
    | none =>
      cases values with
      | nil => simp at count
      | cons value values =>
        have fewer : (gapped.filter Option.isNone).length = values.length := by simpa using count
        obtain ⟨length, same⟩ := ih fewer
        exact ⟨by simp [pieces, length], by simp [pieces, Text.weave, fillGaps, same]⟩
    | some s =>
      have further : (gapped.filter Option.isNone).length = values.length := by simpa using count
      obtain ⟨length, same⟩ := ih further
      cases cut : pieces gapped with
      | nil => simp [cut] at length
      | cons first further =>
        rw [cut] at length same
        refine ⟨by simpa [pieces, cut] using length, ?_⟩
        simp only [pieces, cut, fillGaps, ← same]
        cases values <;> simp [Text.weave, String.append_assoc]

end Text

namespace Condition

def blank (c : Condition) : Condition := c.change ⟨fun _ => default, id⟩

/-- What can be made of compiled filters. -/
inductive Composed : Condition → Prop where
  | compiled {s : Settings} {v : Vocabulary} {filter : String} {c : Condition}
      (h : (compile s v filter).result = .ok c) : Composed c
  | join (j : Junction) {cs : List Condition} (h : ∀ c ∈ cs, Composed c) : Composed (join j cs)
  | push {c child : Condition} (h : Composed c) (added : Composed child) : Composed (c.push child)

theorem Composed.filled {c : Condition} (h : Composed c) : c.Filled := by
  induction h with
  | compiled h => exact filled_of_compile h
  | join j h ih => exact filled_join ih
  | push h added ih addedIh => exact filled_push ih addedIh

theorem writes_of_blank {c other : Condition} (filled : c.Filled) (same : other.blank = c.blank)
    (d : Dialect) :
    Text.Writes (c.gapped d) (other.parameters.map (Parameter.render d)) (other.render d) := by
  have unchanged := (gapped_change d ⟨fun _ => default, id⟩ fun _ => rfl).ofCondition
  have gapped : other.gapped d = c.gapped d := by
    rw [← unchanged other, ← unchanged c]
    exact congrArg (Condition.gapped d) same
  have kept := (filled_change ⟨fun _ => default, id⟩).ofCondition
  have otherFilled : other.Filled := by
    refine (kept other).1 ?_
    rw [show other.change _ = c.change _ from same]
    exact (kept c).2 filled
  rw [← gapped]
  exact (writes_rendering d).ofCondition other otherFilled

/-- The pieces of text around the parameters are the same for all conditions that differ from this one in
    parameters only, and for both dialects of SQL. -/
theorem render_weave {c : Condition} (h : Composed c) :
    ∃ pieces filterPieces : List String, ∀ other : Condition, other.blank = c.blank →
      pieces.length = other.parameters.length + 1 ∧
      filterPieces.length = other.parameters.length + 1 ∧
      other.render .sql = Text.weave pieces (other.parameters.map fun p => "@" ++ p.name) ∧
      other.render .placeholder = Text.weave pieces (other.parameters.map fun _ => "?") ∧
      other.render .filter = Text.weave filterPieces (other.parameters.map fun p => "@" ++ p.name) := by
  refine ⟨Text.pieces (c.gapped .sql), Text.pieces (c.gapped .filter), fun other same => ?_⟩
  obtain ⟨count, sql⟩ := (writes_of_blank h.filled same .sql).weave
  obtain ⟨filterCount, filter⟩ := (writes_of_blank h.filled same .filter).weave
  obtain ⟨-, placeholder⟩ := (writes_of_blank h.filled same .placeholder).weave
  rw [gapped_placeholder.ofCondition c] at placeholder
  rw [List.length_map] at count filterCount
  exact ⟨count, filterCount, sql.symm, placeholder.symm, filter.symm⟩

theorem render_weave_pushed :
    ∃ c, (compile .default (.ofLists [("a", ⟨⟨none, "a?\x7d"⟩, .unknown⟩)] [])
        "a eq 1 and contains(a, '@x')").result = .ok c ∧
      ∃ pieces filterPieces : List String, ∀ other : Condition,
        other.blank = ((join .any [c, c]).push c).blank →
        pieces.length = other.parameters.length + 1 ∧
        filterPieces.length = other.parameters.length + 1 ∧
        other.render .sql = Text.weave pieces (other.parameters.map fun p => "@" ++ p.name) ∧
        other.render .placeholder = Text.weave pieces (other.parameters.map fun _ => "?") ∧
        other.render .filter =
          Text.weave filterPieces (other.parameters.map fun p => "@" ++ p.name) := by
  obtain ⟨c, compiled, -⟩ := exists_of_any (show (compile .default
    (.ofLists [("a", ⟨⟨none, "a?\x7d"⟩, .unknown⟩)] [])
    "a eq 1 and contains(a, '@x')").result.toOption.any (fun _ => true) = true by decide +kernel)
  have single : Composed c := .compiled compiled
  have joined : Composed (join .any [c, c]) := .join .any fun d member => by simp_all
  exact ⟨c, compiled, render_weave (joined.push single)⟩

end Condition

end WhereClause
