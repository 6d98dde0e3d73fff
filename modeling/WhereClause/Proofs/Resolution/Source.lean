import WhereClause.Proofs.Rendering.Weave
import WhereClause.Proofs.Resolution.Basic

namespace WhereClause

theorem Text.Writes.exists_pieces {gapped : List (Option String)} {values : List String} {result : String}
    (h : Writes gapped values result) :
    ∃ pieces, result = concat pieces ∧ ∀ s ∈ pieces, some s ∈ gapped ∨ s ∈ values := by
  obtain ⟨count, rfl⟩ := h
  induction gapped generalizing values with
  | nil => exact ⟨[], rfl, nofun⟩
  | cons piece gapped ih =>
    cases piece with
    | some s =>
      obtain ⟨pieces, same, inside⟩ := @ih values (by simpa using count)
      refine ⟨s :: pieces, by simp [fillGaps, concat, same], ?_⟩
      exact List.forall_mem_cons.2 ⟨Or.inl List.mem_cons_self, fun t member =>
        (inside t member).imp_left (List.mem_cons_of_mem _)⟩
    | none =>
      cases values with
      | nil => simp at count
      | cons value values =>
        obtain ⟨pieces, same, inside⟩ := @ih values (by simpa using count)
        refine ⟨value :: pieces, by simp [fillGaps, concat, same], ?_⟩
        exact List.forall_mem_cons.2 ⟨Or.inr List.mem_cons_self, fun t member =>
          (inside t member).imp (List.mem_cons_of_mem _) (List.mem_cons_of_mem _)⟩

/-- What can be written for a filter. -/
inductive Source (s : Settings) (v : Vocabulary) (d : Dialect) : String → Prop where
  | template {op : Operator} (h : op ∈ Operator.implemented) {third : Bool} {cs : List Char}
      (text : .text cs ∈ Template.parts (op.template d third)) : Source s v d (String.ofList cs)
  | spelling {op : Operator} (h : op ∈ Operator.implemented) : Source s v d (op.spelling d)
  | column {name : String} {f : Field} (h : v.field? name = some f) : Source s v d (f.column.render d)
  | parameter {p : Parameter} {n : Nat} (h : p.name = Parameter.numbered s.stem n) :
      Source s v d (p.render d)
  | punctuation {text : String} (h : text ∈ ["(", ")", ",", "()"]) : Source s v d text
  | separator {op : Operator} (h : op ∈ [Operator.conjunction, Operator.disjunction]) :
      Source s v d (op.separator d)

namespace Template

def Part.isKnown : Part → Bool
  | .text _ => true
  | .mark name => String.ofList name = "op" || (Slot.ofMarker? (String.ofList name)).isSome

end Template

theorem Operator.implemented_known :
    (implemented.all fun op => (op.templates :: op.overload.toList).all fun t =>
      ((Template.parts t.filter) ++ Template.parts t.sql).all Template.Part.isKnown) = true := by
  decide +kernel

theorem Operator.isKnown_of_mem_parts {op : Operator} (h : op ∈ implemented) {d : Dialect} {third : Bool}
    {part : Template.Part} (member : part ∈ Template.parts (op.template d third)) :
    part.isKnown = true := by
  have all := List.all_eq_true.1 implemented_known op h
  have known (t : Templates) (among : t ∈ op.templates :: op.overload.toList)
      (inside : part ∈ Template.parts (t.get d)) : part.isKnown = true := by
    have both := List.all_eq_true.1 (List.all_eq_true.1 all t among) part
    cases d
    · exact both (List.mem_append_right _ inside)
    · exact both (List.mem_append_left _ inside)
    · exact both (List.mem_append_right _ inside)
  unfold template at member
  cases overload : op.overload with
  | none =>
    rw [overload] at member
    exact known _ List.mem_cons_self member
  | some t =>
    rw [overload] at member
    cases third with
    | true => exact known t (by simp [overload]) member
    | false => exact known _ List.mem_cons_self member

def Atom.Sourced (s : Settings) (v : Vocabulary) : Atom → Prop
  | .operator op => op ∈ Operator.implemented
  | .parameter p => ∃ n, p.name = Parameter.numbered s.stem n
  | .column c => ∃ name f, v.field? name = some f ∧ f.column = c
  | .comma => True
  | .unknown _ | .expr _ => False

theorem Atom.sourced_ofToken {s : Settings} {v : Vocabulary} {n : Nat} {t : Token}
    (h : (ofToken v (Parameter.numbered s.stem n) t).unknown? = none) :
    (ofToken v (Parameter.numbered s.stem n) t).Sourced s v := by
  have filled := filled_ofToken v (Parameter.numbered s.stem n) t
  unfold ofToken at h filled ⊢
  split
  · next found => simpa [found, Filled, Sourced] using filled
  · next absent =>
    simp only [absent] at h
    split
    · trivial
    · next comma =>
      simp only [comma] at h
      split
      · exact ⟨n, rfl⟩
      · next literal =>
        simp only [literal] at h
        split
        · next f found => exact ⟨t.text, f, found, rfl⟩
        · next unlisted =>
          simp only [unlisted] at h
          split
          · exact ⟨n, rfl⟩
          · next meaningless => simp [meaningless, unknown?] at h

theorem Condition.sourced_of_compile {s : Settings} {v : Vocabulary} {filter : String} {c : Condition}
    (h : (compile s v filter).result = .ok c) : ∀ a ∈ c.reading, a.Sourced s v := by
  obtain ⟨outline, found, compiled⟩ := compile_eq_ok.1 h
  intro a member
  rw [Node.reading_of_compile compiled] at member
  obtain ⟨x, leaf, inside⟩ := List.mem_flatMap.1 member
  have known := Node.known_of_compile compiled x leaf
  obtain ⟨t, n, rfl⟩ := Node.exists_read_of_mem_leaves found leaf
  rw [Atom.eq_of_mem_reading_ofToken inside]
  exact Atom.sourced_ofToken known

theorem Expr.source_of_mem_gapped {s : Settings} {v : Vocabulary} {d : Dialect} {op : Operator}
    {left right third : Option Expr} {text : String} (implemented : op ∈ Operator.implemented)
    (h : some text ∈ (Expr.apply op left right third).gapped d) :
    Source s v d text ∨ some text ∈ operandGapped d left ∨ some text ∈ operandGapped d right ∨
      some text ∈ operandGapped d third := by
  obtain ⟨part, member, inside⟩ := List.mem_flatMap.1 h
  have known := Operator.isKnown_of_mem_parts implemented member
  cases part with
  | text cs =>
    obtain rfl := Option.some.inj (List.mem_singleton.1 inside)
    exact Or.inl (.template implemented member)
  | mark name =>
    simp only [Template.Part.gapped, Operator.slotGapped] at inside
    split at inside
    · obtain rfl := Option.some.inj (List.mem_singleton.1 inside)
      exact Or.inl (.spelling implemented)
    · next other =>
      have marker : (Slot.ofMarker? (String.ofList name)).isSome = true := by
        simpa [Template.Part.isKnown, other] using known
      obtain ⟨slot, found⟩ := Option.isSome_iff_exists.1 marker
      rw [found, Option.map_some, Option.getD_some] at inside
      cases slot
      · exact Or.inr (Or.inl inside)
      · exact Or.inr (Or.inr (Or.inl inside))
      · exact Or.inr (Or.inr (Or.inr inside))

theorem source_of_gapped (s : Settings) (v : Vocabulary) (d : Dialect) : Induction
    (fun e => (∀ a ∈ e.reading, a.Sourced s v) → ∀ text, some text ∈ e.gapped d → Source s v d text)
    (fun e => (∀ a ∈ Expr.operandReading e, a.Sourced s v) →
      ∀ text, some text ∈ Expr.operandGapped d e → Source s v d text)
    (fun a => (∀ b ∈ a.reading, b.Sourced s v) → ∀ text, some text ∈ a.gapped d → Source s v d text)
    (fun as => (∀ a ∈ Atom.readingOf as, a.Sourced s v) →
      ∀ text, some text ∈ Atom.allGapped d as → Source s v d text)
    (fun c => (∀ a ∈ c.reading, a.Sourced s v) → ∀ text, some text ∈ c.gapped d → Source s v d text)
    (fun cs => (∀ a ∈ Condition.readingOf cs, a.Sourced s v) →
      ∀ separator, Source s v d separator →
        ∀ text, some text ∈ Condition.allGapped d separator cs → Source s v d text) where
  apply op left right third first second last sourced text inside := by
    have parts : op ∈ Operator.implemented ∧ (∀ a ∈ Expr.operandReading left, a.Sourced s v) ∧
        (∀ a ∈ Expr.operandReading right, a.Sourced s v) ∧
        ∀ a ∈ Expr.operandReading third, a.Sourced s v := by
      rw [Expr.reading] at sourced
      split at sourced <;> simp only [List.forall_mem_cons, List.forall_mem_append] at sourced
      · obtain ⟨own, ⟨left, right⟩, third⟩ := sourced
        exact ⟨own, left, right, third⟩
      · obtain ⟨left, own, right, third⟩ := sourced
        exact ⟨own, left, right, third⟩
    obtain ⟨implemented, leftSourced, rightSourced, thirdSourced⟩ := parts
    rcases Expr.source_of_mem_gapped implemented inside with source | left | right | third
    · exact source
    · exact first leftSourced text left
    · exact second rightSourced text right
    · exact last thirdSourced text third
  group e h sourced text inside := by
    simp only [Expr.gapped, List.mem_cons, List.mem_append, Option.some.injEq, List.not_mem_nil,
      or_false] at inside
    rcases inside with rfl | below | rfl
    · exact .punctuation (by simp)
    · exact h sourced text below
    · exact .punctuation (by simp)
  run as h := h
  nested c h := h
  absent _ := nofun
  present e h := h
  operator op sourced text inside := by
    obtain rfl := Option.some.inj (List.mem_singleton.1 inside)
    exact .spelling (sourced _ List.mem_cons_self)
  parameter p _ text inside := by simp [Atom.gapped] at inside
  column c sourced text inside := by
    obtain rfl := Option.some.inj (List.mem_singleton.1 inside)
    obtain ⟨name, f, found, rfl⟩ := sourced _ List.mem_cons_self
    exact .column found
  comma _ text inside := by
    obtain rfl := Option.some.inj (List.mem_singleton.1 inside)
    exact .punctuation (by simp)
  unknown t sourced := (sourced _ List.mem_cons_self).elim
  inner e h := h
  noAtoms _ := nofun
  moreAtoms a as first rest sourced text inside := by
    obtain ⟨own, further⟩ := List.forall_mem_append.1 sourced
    rcases List.mem_append.1 inside with here | later
    · exact first own text here
    · exact rest further text later
  empty _ text inside := by
    obtain rfl := Option.some.inj (List.mem_singleton.1 inside)
    exact .punctuation (by simp)
  test e h := h
  all cs h sourced text inside := by
    simp only [Condition.gapped, List.mem_cons, List.mem_append, Option.some.injEq, List.not_mem_nil,
      or_false] at inside
    rcases inside with rfl | below | rfl
    · exact .punctuation (by simp)
    · exact h sourced _ (.separator (by simp)) text below
    · exact .punctuation (by simp)
  any cs h sourced text inside := by
    simp only [Condition.gapped, List.mem_cons, List.mem_append, Option.some.injEq, List.not_mem_nil,
      or_false] at inside
    rcases inside with rfl | below | rfl
    · exact .punctuation (by simp)
    · exact h sourced _ (.separator (by simp)) text below
    · exact .punctuation (by simp)
  noParts _ _ _ := nofun
  moreParts c cs first rest sourced separator source text inside := by
    obtain ⟨own, further⟩ := List.forall_mem_append.1 sourced
    cases cs with
    | nil => exact first own text inside
    | cons next cs =>
      simp only [Condition.allGapped, List.mem_append, List.mem_cons, Option.some.injEq] at inside
      rcases inside with here | rfl | later
      · exact first own text here
      · exact source
      · exact rest further separator source text later

/-- Nothing unresolved is left in a compiled filter: no operand holds an operator or a token that names
    nothing, so all that is written comes from the table of operators, the vocabulary, the numbering of
    parameters and the punctuation. -/
theorem Condition.sources_compile {s : Settings} {v : Vocabulary} {filter : String} {c : Condition}
    (h : (compile s v filter).result = .ok c) :
    (∀ run ∈ c.runs, ∀ a ∈ run, a.isOperator = false ∧ a.unknown? = none) ∧
      ∀ d, ∃ pieces, c.render d = Text.concat pieces ∧ ∀ piece ∈ pieces, Source s v d piece := by
  have sourced := sourced_of_compile h
  constructor
  · intro run inside a member
    simpa [Atom.isPlain] using resolved_of_compile h run inside a member
  · intro d
    have written := (writes_rendering d).ofCondition c (filled_of_compile h)
    obtain ⟨pieces, whole, inside⟩ := written.exists_pieces
    refine ⟨pieces, whole, fun piece member => ?_⟩
    rcases inside piece member with text | value
    · exact (source_of_gapped s v d).ofCondition c sourced piece text
    · obtain ⟨p, listed, rfl⟩ := List.mem_map.1 value
      rw [parameters_eq_reading.ofCondition c] at listed
      obtain ⟨a, read, found⟩ := List.mem_filterMap.1 listed
      cases a with
      | parameter q =>
        obtain rfl := Option.some.inj found
        obtain ⟨n, named⟩ := sourced _ read
        exact .parameter named
      | _ => cases found

theorem Condition.sources_compile_nested :
    ∃ c, (compile .default (.ofLists [("a", ⟨⟨none, "a"⟩, .unknown⟩), ("b", ⟨⟨some "t", "b"⟩, .unknown⟩)] [])
        "not (contains(a, 'x') or b eq length a) and (b add 1) gt 2").result = .ok c ∧
      (∀ run ∈ c.runs, ∀ a ∈ run, a.isOperator = false ∧ a.unknown? = none) ∧
      ∀ d, ∃ pieces, c.render d = Text.concat pieces ∧ ∀ piece ∈ pieces, Source .default
        (.ofLists [("a", ⟨⟨none, "a"⟩, .unknown⟩), ("b", ⟨⟨some "t", "b"⟩, .unknown⟩)] []) d piece := by
  obtain ⟨c, compiled, -⟩ := exists_of_any (show (compile .default
    (.ofLists [("a", ⟨⟨none, "a"⟩, .unknown⟩), ("b", ⟨⟨some "t", "b"⟩, .unknown⟩)] [])
    "not (contains(a, 'x') or b eq length a) and (b add 1) gt 2").result.toOption.any
      (fun _ => true) = true by decide +kernel)
  exact ⟨c, compiled, sources_compile compiled⟩

end WhereClause
