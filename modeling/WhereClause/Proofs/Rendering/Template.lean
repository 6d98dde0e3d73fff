import WhereClause.Expr.Render

namespace WhereClause

theorem Text.exists_parts (separator : Char) (cs : List Char) :
    ∃ first rest, parts separator cs = first :: rest ∧ cs = first ++ rest.flatMap (separator :: ·) := by
  induction cs with
  | nil => exact ⟨[], [], rfl, rfl⟩
  | cons c cs ih =>
    obtain ⟨first, rest, cut, whole⟩ := ih
    by_cases h : c = separator
    · exact ⟨[], first :: rest, by simp [parts, h, cut], by simp [h, whole]⟩
    · exact ⟨c :: first, rest, by simp [parts, h, cut], by simp [whole]⟩

def Slot.ofMarker? (name : String) : Option Slot := [left, right, third].find? (·.marker = name)

namespace Template

inductive Part where
  | text (cs : List Char)
  | mark (name : List Char)
deriving DecidableEq

namespace Part

def source : Part → List Char
  | .text cs => cs
  | .mark name => '{' :: (name ++ ['}'])

/-- No brace stands where it could be taken for the start or the end of another marker. -/
def isFormed : Part → Bool
  | .text cs => !cs.contains '{'
  | .mark name => !name.contains '{' && !name.contains '}'

def filled (value : String → Option String) : Part → String
  | .text cs => String.ofList cs
  | .mark name => (value (String.ofList name)).getD (Template.mark (String.ofList name))

end Part

def ofParts (parts : List Part) : String := String.ofList (parts.flatMap Part.source)

theorem takeWhile_name {name : List Char} (closed : '}' ∉ name) (rest : List Char) :
    (name ++ '}' :: rest).takeWhile (· ≠ '}') = name := by
  have inside : ∀ c ∈ name, decide (c ≠ '}') = true := by
    intro c member
    exact decide_eq_true fun same => closed (same ▸ member)
  rw [List.takeWhile_append_of_pos inside, List.takeWhile_cons_of_neg (by simp), List.append_nil]

theorem fillFrom_mark (value : String → Option String) {name : List Char} (opened : '{' ∉ name)
    (closed : '}' ∉ name) (rest : List Char) :
    fillFrom value 0 ('{' :: (name ++ '}' :: rest)) =
      ((Part.mark name).filled value).toList ++ fillFrom value 0 rest := by
  have extent : valueAt? value '{' (name ++ '}' :: rest) =
      (value (String.ofList name)).map fun text => (name.length + 1, text) := by
    rw [valueAt?, if_pos (by simp), takeWhile_name closed]
  cases known : value (String.ofList name) with
  | some text =>
    have skipped := fillFrom_skip value (name ++ ['}']) rest
    simp only [List.length_append, List.length_singleton, List.append_assoc, List.singleton_append]
      at skipped
    simp [fillFrom, extent, known, skipped, Part.filled]
  | none =>
    have plain : '{' ∉ name ++ ['}'] := by simp [opened]
    have copied := fillFrom_text value rest plain
    simp only [List.append_assoc, List.singleton_append] at copied
    simp [fillFrom, extent, known, copied, Part.filled, Template.mark]

theorem fillFrom_source (value : String → Option String) {parts : List Part}
    (formed : ∀ part ∈ parts, part.isFormed = true) (rest : List Char) :
    fillFrom value 0 (parts.flatMap Part.source ++ rest) =
      (Text.concat (parts.map (Part.filled value))).toList ++ fillFrom value 0 rest := by
  induction parts with
  | nil => rfl
  | cons part parts ih =>
    have later := ih fun other member => formed other (List.mem_cons_of_mem _ member)
    have own := formed part List.mem_cons_self
    rw [List.flatMap_cons, List.map_cons, Text.concat, String.toList_append, List.append_assoc,
      List.append_assoc, ← later]
    cases part with
    | text cs =>
      have plain : '{' ∉ cs := by simpa [Part.isFormed] using own
      rw [Part.source, fillFrom_text value _ plain, Part.filled, String.toList_ofList]
    | mark name =>
      have braces : '{' ∉ name ∧ '}' ∉ name := by simpa [Part.isFormed] using own
      rw [Part.source, List.cons_append, List.append_assoc, List.singleton_append,
        fillFrom_mark value braces.1 braces.2]

theorem fill_ofParts (value : String → Option String) {parts : List Part}
    (formed : ∀ part ∈ parts, part.isFormed = true) :
    fill (ofParts parts) value = Text.concat (parts.map (Part.filled value)) := by
  apply String.toList_inj.1
  have whole := fillFrom_source value formed []
  rw [List.append_nil, fillFrom, List.append_nil] at whole
  rw [fill, ofParts, String.toList_ofList, String.toList_ofList, whole]

/-- The text of a value is never searched for markers: each marker that has a value is replaced by it and all else is
    copied, also where any text follows, which is then filled on its own. -/
theorem fill_ofParts_append (value : String → Option String) {parts : List Part}
    (formed : ∀ part ∈ parts, part.isFormed = true) :
    fill (ofParts parts) value = Text.concat (parts.map (Part.filled value)) ∧
      ∀ rest : String,
        fill (ofParts parts ++ rest) value = Text.concat (parts.map (Part.filled value)) ++ fill rest value := by
  refine ⟨fill_ofParts value formed, fun rest => ?_⟩
  apply String.toList_inj.1
  rw [fill, fill, ofParts, String.toList_append, String.toList_append, String.toList_ofList, String.toList_ofList,
    String.toList_ofList, fillFrom_source value formed]

theorem fill_ofParts_append_call :
    let parts := [Part.mark "op".toList, .text "(".toList, .mark "lhs".toList, .text ",".toList, .mark "rhs".toList,
      .text ") ".toList, .mark "x".toList, .text " ".toList]
    let value (name : String) : Option String :=
      if name = "op" then some "F" else if name = "lhs" then some (mark "rhs")
      else if name = "rhs" then some "b" else none
    (∀ part ∈ parts, part.isFormed = true) ∧
      fill (ofParts parts ++ "\x7b") value = "F(" ++ mark "rhs" ++ ",b) " ++ mark "x" ++ " \x7b" := by
  -- The value of `lhs` is a marker itself and stays as it is; `x` has no value, and the last brace starts no marker.
  intro parts value
  have formed : ∀ part ∈ parts, part.isFormed = true := by decide
  refine ⟨formed, ?_⟩
  rw [(fill_ofParts_append value formed).2]
  rfl

def markAndText (piece : List Char) : List Part :=
  match Text.cut? '}' piece with
  | some (name, text) => [.mark name, .text text]
  | none => [.text ('{' :: piece)]

def parts (template : String) : List Part :=
  match Text.parts '{' template.toList with
  | [] => []
  | first :: rest => .text first :: rest.flatMap markAndText

theorem source_markAndText (piece : List Char) :
    (markAndText piece).flatMap Part.source = '{' :: piece := by
  unfold markAndText
  split
  · next name text found => simp [Part.source, Text.eq_append_of_cut? found]
  · simp [Part.source]

theorem ofParts_parts (template : String) : ofParts (parts template) = template := by
  obtain ⟨first, rest, cut, whole⟩ := Text.exists_parts '{' template.toList
  have later : (rest.flatMap markAndText).flatMap Part.source = rest.flatMap ('{' :: ·) := by
    rw [List.flatMap_assoc]
    simp only [source_markAndText]
  rw [ofParts, parts, cut, List.flatMap_cons, later, Part.source, ← whole, String.ofList_toList]

def Part.slot? : Part → Option Slot
  | .text _ => none
  | .mark name => Slot.ofMarker? (String.ofList name)

def slots (parts : List Part) : List Slot := parts.filterMap Part.slot?

theorem occursIn_text {plain : List Char} (noMark : '{' ∉ plain) (part rest : List Char) :
    occursIn ('{' :: part) (plain ++ rest) = occursIn ('{' :: part) rest := by
  induction plain with
  | nil => rfl
  | cons c cs ih =>
    simp only [List.mem_cons, not_or] at noMark
    have other : ('{' == c) = false := by simpa using noMark.1
    rw [List.cons_append, occursIn, ih noMark.2, List.isPrefixOf_cons_cons, other]
    rfl

theorem isPrefixOf_name {name other : List Char} (closed : '}' ∉ name) (otherClosed : '}' ∉ other)
    (rest : List Char) : (name ++ ['}']).isPrefixOf (other ++ '}' :: rest) = true ↔ name = other := by
  refine List.isPrefixOf_iff_prefix.trans ?_
  constructor
  · rintro ⟨tail, whole⟩
    rw [List.append_assoc, List.singleton_append] at whole
    have first := congrArg (List.takeWhile (· ≠ '}')) whole
    rwa [takeWhile_name closed, takeWhile_name otherClosed] at first
  · rintro rfl
    exact ⟨rest, by simp⟩

theorem occursIn_source {name : List Char} (closed : '}' ∉ name) {parts : List Part}
    (formed : ∀ part ∈ parts, part.isFormed = true) :
    occursIn (Part.mark name).source (parts.flatMap Part.source) = true ↔ .mark name ∈ parts := by
  induction parts with
  | nil => simp [Part.source, occursIn]
  | cons part parts ih =>
    have rest := ih fun other member => formed other (List.mem_cons_of_mem _ member)
    have own := formed part List.mem_cons_self
    cases part with
    | text cs =>
      have plain : '{' ∉ cs := by simpa [Part.isFormed] using own
      rw [Part.source] at rest ⊢
      rw [List.flatMap_cons, Part.source, occursIn_text plain, rest]
      simp
    | mark other =>
      have braces : '{' ∉ other ∧ '}' ∉ other := by simpa [Part.isFormed] using own
      have here := isPrefixOf_name closed braces.2 (parts.flatMap Part.source)
      have plain : '{' ∉ other ++ ['}'] := by simp [braces.1]
      have further := occursIn_text plain (name ++ ['}']) (parts.flatMap Part.source)
      rw [List.append_assoc, List.singleton_append] at further
      rw [Part.source] at rest ⊢
      rw [List.flatMap_cons, Part.source, List.cons_append, List.append_assoc, List.singleton_append,
        occursIn, List.isPrefixOf_cons_cons, further, Bool.or_eq_true, rest, beq_self_eq_true,
        Bool.true_and, here, List.mem_cons, Part.mark.injEq]

theorem ofMarker?_eq_some {name : String} {slot : Slot} :
    Slot.ofMarker? name = some slot ↔ name = slot.marker := by
  constructor
  · intro h
    have found := List.find?_some h
    exact (of_decide_eq_true found).symm
  · rintro rfl
    cases slot <;> decide

theorem takes_iff {template : String} (formed : ∀ part ∈ parts template, part.isFormed = true)
    (slot : Slot) : takes template slot = true ↔ slot ∈ slots (parts template) := by
  have closed : '}' ∉ slot.marker.toList := by cases slot <;> decide
  have found := occursIn_source closed formed
  have written : (mark slot.marker).toList = (Part.mark slot.marker.toList).source := by
    simp [mark, Part.source]
  have text : template.toList = (parts template).flatMap Part.source := by
    rw [← String.toList_ofList (l := (parts template).flatMap Part.source)]
    exact congrArg String.toList (ofParts_parts template).symm
  rw [takes, mentions, written, text, found, slots, List.mem_filterMap]
  constructor
  · intro member
    exact ⟨_, member, by simp [Part.slot?, ofMarker?_eq_some]⟩
  · rintro ⟨part, member, same⟩
    cases part with
    | text cs => cases same
    | mark name =>
      have marker := ofMarker?_eq_some.1 same
      rw [← marker, String.toList_ofList]
      exact member

end Template

namespace Operator

/-- Both texts have places for the same operands, for each at most one, in the order of the operands. -/
def Templates.aligned (t : Templates) : Bool :=
  let parts := Template.parts t.filter
  let sqlParts := Template.parts t.sql
  parts.all Template.Part.isFormed && sqlParts.all Template.Part.isFormed &&
    Template.slots sqlParts = Template.slots parts &&
    Template.slots parts = [Slot.left, .right, .third].filter (Template.slots parts).contains

theorem implemented_aligned :
    (implemented.all fun op => (op.templates :: op.overload.toList).all Templates.aligned) = true := by
  decide +kernel

theorem Templates.aligned_parts {t : Templates} (h : t.aligned = true) (d : Dialect) :
    (∀ part ∈ Template.parts (t.get d), part.isFormed = true) ∧
      Template.slots (Template.parts (t.get d)) =
        [Slot.left, .right, .third].filter (Template.takes t.filter) := by
  simp only [aligned, Bool.and_eq_true, List.all_eq_true, decide_eq_true_eq] at h
  obtain ⟨⟨⟨filterFormed, sqlFormed⟩, same⟩, ordered⟩ := h
  have taken : (Template.slots (Template.parts t.filter)).contains = Template.takes t.filter := by
    funext slot
    rw [Bool.eq_iff_iff, List.contains_iff_mem, Template.takes_iff filterFormed]
  rw [taken] at ordered
  cases d
  · exact ⟨sqlFormed, same.trans ordered⟩
  · exact ⟨filterFormed, ordered⟩
  · exact ⟨sqlFormed, same.trans ordered⟩

theorem template_parts {op : Operator} (h : op ∈ implemented) (d : Dialect) (third : Bool) :
    (∀ part ∈ Template.parts (op.template d third), part.isFormed = true) ∧
      Template.slots (Template.parts (op.template d third)) =
        [Slot.left, .right, .third].filter (Template.takes (op.template .filter third)) := by
  have all := List.all_eq_true.1 implemented_aligned op h
  rw [List.all_cons, Bool.and_eq_true, List.all_eq_true] at all
  unfold template
  cases overload : op.overload with
  | none => exact Templates.aligned_parts all.1 d
  | some t =>
    cases third with
    | true => exact Templates.aligned_parts (all.2 t (by simp [overload])) d
    | false => exact Templates.aligned_parts all.1 d

theorem slotText_eq (op : Operator) (d : Dialect) (text : Slot → String) (name : String) :
    op.slotText d (text .left) (text .right) (text .third) name =
      if name = "op" then some (op.spelling d) else (Slot.ofMarker? name).map text := by
  have absent (apart : ∀ slot : Slot, name ≠ slot.marker) : Slot.ofMarker? name = none := by
    cases found : Slot.ofMarker? name with
    | none => rfl
    | some slot => exact absurd (Template.ofMarker?_eq_some.1 found) (apart slot)
  unfold slotText
  split
  · rfl
  · split
    · next left => simp [Template.ofMarker?_eq_some.2 left]
    · next left =>
      split
      · next right => simp [Template.ofMarker?_eq_some.2 right]
      · next right =>
        split
        · next third => simp [Template.ofMarker?_eq_some.2 third]
        · next third =>
          rw [absent fun slot => by cases slot <;> assumption]
          rfl

end Operator

end WhereClause
