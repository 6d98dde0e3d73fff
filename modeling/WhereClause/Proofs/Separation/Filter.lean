import WhereClause.Proofs.Reading.Filter
import WhereClause.Proofs.Separation.Basic

namespace WhereClause

theorem Condition.lone_of_isEmpty {c : Condition} (h : c.isEmpty = true) : c.Lone := by
  cases c with
  | empty => nofun
  | test e => cases h
  | all parts => simp_all [isEmpty, Lone, runs]
  | any parts => simp_all [isEmpty, Lone, runs]

theorem Condition.lone_join (j : Junction) (cs : List Condition) :
    (join j cs).Lone ↔ ∀ c ∈ cs, c.Lone := by
  have kept : (∀ c ∈ withoutEmpty cs, c.Lone) ↔ ∀ c ∈ cs, c.Lone := by
    constructor
    · intro all c member
      cases empty : c.isEmpty with
      | true => exact lone_of_isEmpty empty
      | false => exact all c (mem_withoutEmpty.2 ⟨member, empty⟩)
    · exact fun all c member => all c (mem_withoutEmpty.1 member).1
  have runs (cs : List Condition) :
      (∀ run ∈ cs.flatMap Condition.runs, Atom.isSingle run = true) ↔ ∀ c ∈ cs, c.Lone := by
    simp only [List.mem_flatMap, Lone]
    exact ⟨fun all c member run inside => all run ⟨c, member, inside⟩,
      fun all run ⟨c, member, inside⟩ => all c member run inside⟩
  rw [← kept, ← runs]
  cases j <;> simp [join, Lone, Condition.runs]

namespace Node

mutual

def signs : Node Lexeme → List Sign
  | .run items cs => items.map (·.atom.sign) ++ signsOf cs
  | .marker .. => []
  | .group _ => [.operand]
  | .boolGroup _ => [.operand]
  | .call .. => [.operand]

def signsOf : List (Node Lexeme) → List Sign
  | [] => []
  | n :: ns => n.signs ++ signsOf ns

end

mutual

def inside : Node Lexeme → Bool
  | .run _ cs => insideOf cs
  | .marker .. => true
  | .group cs => decide (Sign.Separated (signsOf cs)) && insideOf cs
  | .boolGroup cs => apartOf cs
  | .call name cs => decide (Sign.Separated (name.atom.sign :: signsOf cs)) && insideOf cs

def insideOf : List (Node Lexeme) → Bool
  | [] => true
  | n :: ns => n.inside && insideOf ns

def apartOf : List (Node Lexeme) → Bool
  | [] => true
  | n :: ns => decide (Sign.Separated n.signs) && n.inside && apartOf ns

end

/-- Nowhere in the filter of this outline do two operands stand side by side, and nowhere does a comma
    stand before an operator that is not applied to arguments. -/
def apart (n : Node Lexeme) : Bool := apartOf [n]

theorem apart_iff {n : Node Lexeme} :
    n.apart = true ↔ Sign.Separated n.signs ∧ n.inside = true := by
  simp [apart, apartOf]

def Among (ns : List (Node Lexeme)) (atoms : List Atom) : Prop :=
  atoms.map Atom.sign = signsOf ns ∧ ((∀ a ∈ atoms, a.Lone) ↔ insideOf ns = true)

theorem Among.lone_iff {ns : List (Node Lexeme)} {as : List Atom} {e : Expr} (among : Among ns as)
    (own : List Atom) (lone : ∀ a ∈ own, a.Lone) (formed : Expr.ofAtoms (own ++ as) = .ok e) :
    e.Lone ↔ Sign.Separated (own.map Atom.sign ++ signsOf ns) ∧ insideOf ns = true := by
  refine (Expr.formed_of_ofAtoms formed).lone_iff.trans ?_
  rw [List.map_append, among.1, List.forall_mem_append, among.2, and_iff_right lone, and_comm]

theorem Among.cons {n : Node Lexeme} {rest : List (Node Lexeme)} {e : Expr} {bs : List Atom}
    (operand : n.signs = [.operand]) (inside : e.Lone ↔ n.inside = true) (later : Among rest bs) :
    Among (n :: rest) (.expr e :: bs) := by
  refine ⟨by simp [signsOf, operand, Atom.sign, later.1], ?_⟩
  have own : (Atom.expr e).Lone ↔ e.Lone := Iff.rfl
  rw [List.forall_mem_cons, own, inside, later.2, insideOf, Bool.and_eq_true]

theorem lone_keeps : Keeps
    (fun n c => Every Atom.Lone [n] → (c.Lone ↔ n.apart = true))
    (fun ns cs => Every Atom.Lone ns → ((∀ c ∈ cs, c.Lone) ↔ apartOf ns = true))
    (fun ns as => Every Atom.Lone ns → Among ns as) where
  bare n h _ := by
    have lone : Condition.empty.Lone := nofun
    unfold isBare at h
    split at h
    · exact iff_of_true lone rfl
    · exact iff_of_true lone rfl
    · exact iff_of_true lone rfl
    · cases h
  inner n c h plain := by
    have same : apart (.run [] [n]) = n.apart := by simp [apart, apartOf, signs, signsOf, inside, insideOf]
    rw [same]
    exact h (every_run.1 plain).2
  redundant n c _ h plain := by
    have same : apart (.group [n]) = n.apart := by
      simp [apart, apartOf, signs, signsOf, inside, insideOf]
    rw [same]
    exact h (every_group.1 plain)
  run items ns as e h formed _ plain := by
    obtain ⟨own, below⟩ := every_run.1 plain
    refine ((h below).lone_iff _ own formed).trans ?_
    simp [apart_iff, signs, inside, Function.comp_def]
  group ns as e h formed _ plain := by
    refine ((h (every_group.1 plain)).lone_iff [] nofun formed).trans ?_
    simp [apart_iff, signs, inside]
  call name ns as e h formed _ plain := by
    obtain ⟨own, below⟩ := every_call.1 plain
    refine ((h below).lone_iff [name.atom] (by simpa using own) formed).trans ?_
    simp [apart_iff, signs, inside]
  joined ns cs h plain := by
    rw [Condition.lone_join, h (every_boolGroup.1 plain)]
    simp [apart_iff, signs, inside]
  noParts _ := by simp [apartOf]
  marker j word ns cs h plain := by
    rw [h (every_cons.1 plain).2]
    simp [apartOf, signs, inside]
  part n ns c cs _ first rest plain := by
    obtain ⟨own, later⟩ := every_cons.1 plain
    rw [List.forall_mem_cons, first own, rest later]
    simp [apartOf, apart_iff]
  noAtoms _ := ⟨rfl, by simp [insideOf]⟩
  items items ns rest as bs own later plain := by
    obtain ⟨here, further⟩ := every_cons.1 plain
    obtain ⟨lone, below⟩ := every_run.1 here
    obtain ⟨ownSigns, ownLone⟩ := own below
    obtain ⟨laterSigns, laterLone⟩ := later further
    refine ⟨by simp [signsOf, signs, ownSigns, laterSigns], ?_⟩
    rw [List.forall_mem_append, List.forall_mem_append, and_iff_right lone, ownLone, laterLone, insideOf,
      inside, Bool.and_eq_true]
  called name ns rest as e bs own formed later plain := by
    obtain ⟨here, further⟩ := every_cons.1 plain
    obtain ⟨lone, below⟩ := every_call.1 here
    refine .cons rfl ?_ (later further)
    refine ((own below).lone_iff [name.atom] (by simpa using lone) formed).trans ?_
    simp [inside]
  grouped ns rest as e bs own formed later plain := by
    obtain ⟨here, further⟩ := every_cons.1 plain
    refine .cons rfl ?_ (later further)
    refine ((own (every_group.1 here)).lone_iff [] nofun formed).trans ?_
    simp [inside]
  nested ns rest cs bs own later plain := by
    obtain ⟨here, further⟩ := every_cons.1 plain
    exact .cons rfl ((Condition.lone_join _ cs).trans (own (every_boolGroup.1 here))) (later further)

end Node

theorem Atom.lone_ofToken (v : Vocabulary) (name : String) (t : Token) : (ofToken v name t).Lone := by
  cases comma : t.isComma with
  | true =>
    rw [ofToken_of_isComma v name comma]
    nofun
  | false =>
    have simple := isSimple_ofToken v name comma
    cases atom : ofToken v name t with
    | expr e => simp [atom, isSimple] at simple
    | _ => nofun

/-- A filter that compiles has no operands of several atoms, and no comma as an operand, exactly if in
    no pair of its outline operands stand side by side or a comma stands before an operator. -/
theorem Condition.lone_compile_iff {s : Settings} {v : Vocabulary} {filter : String} {c : Condition}
    (h : (compile s v filter).result = .ok c) :
    ∃ outline, Node.ofFilter s v filter = .ok outline ∧ (c.Lone ↔ outline.apart = true) := by
  obtain ⟨outline, found, compiled⟩ := compile_eq_ok.1 h
  have plain := Node.every_ofFilter found (Atom.lone_ofToken v)
  exact ⟨outline, found, Node.lone_keeps.compile compiled plain⟩

theorem Condition.lone_compile_iff_call :
    ∃ c, (compile .default (.ofLists [("a", ⟨⟨none, "a"⟩, .unknown⟩), ("b", ⟨⟨none, "b"⟩, .unknown⟩)] [])
        "contains(a, 'x') or (length(b) add 1) gt 2").result = .ok c ∧
      ∃ outline, Node.ofFilter .default
          (.ofLists [("a", ⟨⟨none, "a"⟩, .unknown⟩), ("b", ⟨⟨none, "b"⟩, .unknown⟩)] [])
          "contains(a, 'x') or (length(b) add 1) gt 2" = .ok outline ∧
        (c.Lone ↔ outline.apart = true) := by
  obtain ⟨c, compiled, -⟩ := exists_of_any (show (compile .default
    (.ofLists [("a", ⟨⟨none, "a"⟩, .unknown⟩), ("b", ⟨⟨none, "b"⟩, .unknown⟩)] [])
    "contains(a, 'x') or (length(b) add 1) gt 2").result.toOption.any (fun _ => true) = true by
      decide +kernel)
  exact ⟨c, compiled, lone_compile_iff compiled⟩

/-- A comma or a blank between two operands before an operator is let through. -/
theorem Condition.exists_not_lone :
    (∃ c, (compile .default
        (.ofLists [("a", ⟨⟨none, "a"⟩, .unknown⟩), ("b", ⟨⟨none, "b"⟩, .unknown⟩)] [])
        "a,b eq 1").result = .ok c ∧ ¬ c.Lone) ∧
      ∃ c, (compile .default
        (.ofLists [("a", ⟨⟨none, "a"⟩, .unknown⟩), ("b", ⟨⟨none, "b"⟩, .unknown⟩)] [])
        "a b eq 1").result = .ok c ∧ ¬ c.Lone := by
  have glued (c : Condition) (h : (!c.runs.all Atom.isSingle) = true) : ¬ c.Lone := by
    intro lone
    rw [List.all_eq_true.2 lone] at h
    cases h
  constructor
  · obtain ⟨c, compiled, runs⟩ := exists_of_any (show (compile .default
      (.ofLists [("a", ⟨⟨none, "a"⟩, .unknown⟩), ("b", ⟨⟨none, "b"⟩, .unknown⟩)] [])
      "a,b eq 1").result.toOption.any (fun c => !c.runs.all Atom.isSingle) = true by decide +kernel)
    exact ⟨c, compiled, glued c runs⟩
  · obtain ⟨c, compiled, runs⟩ := exists_of_any (show (compile .default
      (.ofLists [("a", ⟨⟨none, "a"⟩, .unknown⟩), ("b", ⟨⟨none, "b"⟩, .unknown⟩)] [])
      "a b eq 1").result.toOption.any (fun c => !c.runs.all Atom.isSingle) = true by decide +kernel)
    exact ⟨c, compiled, glued c runs⟩

end WhereClause
