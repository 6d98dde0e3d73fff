import WhereClause.Proofs.Fault.Filter
import WhereClause.Proofs.Scan.Offset

namespace WhereClause

open Token

namespace Report

theorem span_of_position {f : Fault} {p : Position} (h : f.position? = some p) (source : List Char) :
    span source f =
      ⟨min (offset source p) source.length,
        min (min (offset source p) source.length + max 1 (f.token?.elim 1 String.length))
          (max source.length (min (offset source p) source.length))⟩ := by
  rw [span, h]

theorem span_within (source : List Char) (f : Fault) :
    (span source f).start ≤ (span source f).finish ∧ (span source f).finish ≤ source.length := by
  cases placed : f.position? with
  | none =>
    rw [span, placed]
    exact ⟨Nat.zero_le _, Nat.le_refl _⟩
  | some p =>
    rw [span_of_position placed]
    dsimp only
    omega

end Report

/-- What a fault with a place is about: a token of the text that says something, or the quote of a string without
    an end. `before` are the tokens before it, trivia included, and `piece` are its characters. -/
inductive Fault.About (o : Options) (text : String) : Fault → List Token → List Char → Prop where
  | token {f : Fault} {before after : List Token} {t : Token} (solid : t.kind.isTrivia = false)
      (cut : (Scan.full o .start text.toList).tokens = before ++ t :: after) (named : f.token? = some t.text)
      (placed : f.position? = some t.position) : About o text f before t.text.toList
  | quote {before : List Token} {rest : List Char}
      (cut : Scan.full o .start text.toList = ⟨before, some (endFrom .start before)⟩)
      (whole : text.toList = texts before ++ '\'' :: rest) (unclosed : Text.Quoted.Unclosed rest) :
      About o text (.lexical .unterminatedString (endFrom .start before)) before ['\'']

namespace Fault.About

variable {o : Options} {text : String} {f : Fault} {before : List Token} {piece : List Char}
  (about : About o text f before piece)

include about

theorem width : piece ≠ [] ∧ max 1 (f.token?.elim 1 String.length) = piece.length := by
  cases about with
  | @token f before after t solid cut named placed =>
    have member : t ∈ (Scan.full o .start text.toList).tokens := by simp [cut]
    have nonempty : t.text.toList ≠ [] := by
      rcases Scan.cases_of_mem_full member with ⟨finish, -⟩ | ⟨c, cs, n, -, whole⟩
      · rw [finish] at solid
        cases solid
      · rw [whole]
        nofun
    have positive := List.length_pos_iff.2 nonempty
    refine ⟨nonempty, ?_⟩
    rw [named, Option.elim_some, ← String.length_toList]
    omega
  | quote => exact ⟨nofun, rfl⟩

theorem exists_rest : ∃ rest, text.toList = texts before ++ (piece ++ rest) := by
  cases about with
  | token solid cut named placed => exact (Scan.position_of_full cut).2
  | quote cut whole unclosed => exact ⟨_, whole⟩

theorem placed : f.position? = some (endFrom .start before) := by
  cases about with
  | token solid cut named placed => rw [placed, (Scan.position_of_full cut).1]
  | quote => rfl

theorem advances : ∀ t ∈ before, t.Advances := by
  intro t member
  have cut : t ∈ (Scan.full o .start text.toList).tokens := by
    cases about with
    | token solid cut named placed =>
      rw [cut]
      exact List.mem_append_left _ member
    | quote cut whole unclosed =>
      rw [cut]
      exact member
  exact advances_of_full cut

theorem span_eq_iff : Report.span text.toList f = ⟨(texts before).length, (texts before ++ piece).length⟩ ↔
    ∀ t ∈ before, t.isReturn = false := by
  obtain ⟨nonempty, width⟩ := about.width
  obtain ⟨rest, whole⟩ := about.exists_rest
  have positive := List.length_pos_iff.2 nonempty
  have total : text.toList.length = (texts before).length + (piece.length + rest.length) := by
    rw [whole, List.length_append, List.length_append]
  have span := Report.span_of_position about.placed text.toList
  rw [width] at span
  rw [span, List.length_append]
  constructor
  · intro same t member
    -- The cut at the end of the text cannot bring the start back to its place, as the piece is not empty.
    refine Bool.eq_false_iff.2 fun alone => ?_
    have further := Report.lt_offset_endFrom about.advances member alone (piece ++ rest)
    rw [← whole] at further
    have start := congrArg Report.Span.start same
    dsimp only at start
    omega
  · intro alone
    have exact := Report.offset_endFrom about.advances alone (piece ++ rest)
    rw [← whole] at exact
    rw [exact, total]
    congr 1 <;> omega

end Fault.About

theorem Fault.exists_about_of_token {o : Options} {text : String} {f : Fault} {t : Token}
    (member : t ∈ (scan o text).tokens) (solid : t.kind.isTrivia = false) (named : f.token? = some t.text)
    (placed : f.position? = some t.position) : ∃ before piece, f.About o text before piece := by
  obtain ⟨before, after, cut⟩ := List.append_of_mem (mem_full_of_mem_scan member)
  exact ⟨before, _, .token solid cut named placed⟩

theorem Fault.exists_about_of_incomplete {o : Options} {text : String} {f : Fault}
    (h : (scan o text).complete = .error f) : ∃ before piece, f.About o text before piece := by
  have fault : (scan o text).fault? = some f := by
    unfold Scan.complete at h
    split at h
    · next found => rw [found, Except.error.inj h]
    · cases h
  obtain ⟨p, ended, rfl⟩ := Option.map_eq_some_iff.1 fault
  rw [unterminated_scan] at ended
  obtain ⟨ts, -, ⟨same, -⟩ | ⟨rest, same, whole, unclosed⟩⟩ := Scan.full_covers o .start text.toList
  · rw [same] at ended
    cases ended
  · rw [same] at ended
    cases ended
    exact ⟨ts, _, .quote same whole unclosed⟩

namespace Condition

theorem exists_about {s : Settings} {v : Vocabulary} {filter : String} {f : Fault} {p : Position}
    (h : (compile s v filter).result = .error f) (placed : f.position? = some p) :
    ∃ before piece, f.About s.tokens filter before piece := by
  cases scanned : (scan s.tokens filter).complete with
  | error g =>
    rw [compile_eq_ofTokens, scanned] at h
    cases h
    exact Fault.exists_about_of_incomplete scanned
  | ok tokens =>
    obtain ⟨t, member, named, rfl, -⟩ := cites_compile scanned h p placed
    obtain ⟨cut, solid⟩ := List.mem_filter.1 member
    rw [← Scan.tokens_of_complete scanned] at cut
    exact Fault.exists_about_of_token cut (by simpa using solid) named placed

/-- The span of a fault is within the filter. It is the range of what the fault is about, a token or the quote of a
    string without an end, exactly if no carriage return stands alone before that. -/
theorem span_compile_iff {s : Settings} {v : Vocabulary} {filter : String} {f : Fault} {p : Position}
    (h : (compile s v filter).result = .error f) (placed : f.position? = some p) :
    (Report.span filter.toList f).start ≤ (Report.span filter.toList f).finish ∧
      (Report.span filter.toList f).finish ≤ filter.toList.length ∧
      ∃ before piece rest, f.About s.tokens filter before piece ∧
        filter.toList = texts before ++ (piece ++ rest) ∧
        (Report.span filter.toList f = ⟨(texts before).length, (texts before ++ piece).length⟩ ↔
          ∀ t ∈ before, t.isReturn = false) := by
  obtain ⟨before, piece, about⟩ := exists_about h placed
  obtain ⟨rest, whole⟩ := about.exists_rest
  obtain ⟨ordered, within⟩ := Report.span_within filter.toList f
  exact ⟨ordered, within, before, piece, rest, about, whole, about.span_eq_iff⟩

theorem span_compile_iff_lines :
    let filter := "name eq 'a\rb'\r\nand limt gt 1"
    ∃ f p, (compile .default (.ofLists [("name", ⟨⟨none, "name"⟩, .string⟩)] []) filter).result = .error f ∧
      f.position? = some p ∧ (Report.span filter.toList f).start ≤ (Report.span filter.toList f).finish ∧
      (Report.span filter.toList f).finish ≤ filter.toList.length ∧
      ∃ before piece rest, f.About Settings.default.tokens filter before piece ∧
        filter.toList = texts before ++ (piece ++ rest) ∧
        (Report.span filter.toList f = ⟨(texts before).length, (texts before ++ piece).length⟩ ↔
          ∀ t ∈ before, t.isReturn = false) := by
  intro filter
  have failed : (compile .default (.ofLists [("name", ⟨⟨none, "name"⟩, .string⟩)] []) filter).result =
      .error (.unresolved "limt" "gt" .left ⟨2, 5⟩) := Outcome.result_of_fault? (by decide +kernel)
  exact ⟨_, _, failed, rfl, span_compile_iff failed rfl⟩

/-- After a carriage return that stands alone, other characters are underlined than those of the token. -/
theorem exists_span_off :
    ¬∀ (s : Settings) (v : Vocabulary) (filter : String) (f : Fault) (p : Position) (text : String),
      (compile s v filter).result = .error f → f.position? = some p → f.token? = some text →
      let span := Report.span filter.toList f
      (filter.toList.drop span.start).take (span.finish - span.start) = text.toList := by
  intro all
  have failed : (compile .default (.ofLists [] []) "\rfoo eq 1\nand b eq 2").result =
      .error (.unresolved "foo" "eq" .left ⟨2, 1⟩) := Outcome.result_of_fault? (by decide +kernel)
  exact absurd (all _ _ _ _ _ _ failed rfl rfl) (by decide)

end Condition

end WhereClause
