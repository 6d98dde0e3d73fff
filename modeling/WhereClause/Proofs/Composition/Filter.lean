import WhereClause.Proofs.Composition.Shift
import WhereClause.Proofs.Enclosure.Filter
import WhereClause.Proofs.RoundTrip.Keyword

namespace WhereClause

def Text.joined (j : Junction) (filters : List String) : String :=
  Text.join (" " ++ j.word ++ " ") (filters.map fun f => "(" ++ f ++ ")")

example : Text.joined .any ["a eq 1", "(a lt 2)"] = "(a eq 1) or ((a lt 2))" := by decide

/-- The conditions with their parameters numbered through; `k` is the number of the first. -/
def Condition.renumbered (stem : String) : Nat → List Condition → List Condition
  | _, [] => []
  | k, c :: cs => c.change (.shift stem k) :: renumbered stem (k + c.parameters.length) cs

namespace Nest

def joined {α : Type} (j : Junction) (ns : List (Nest α)) : Nest α :=
  join (.joint j (Token.word j.word) .nil) (ns.map fun n => .pair n .nil)

theorem joined_cons {α : Type} (j : Junction) (n m : Nest α) (ns : List (Nest α)) :
    joined j (n :: m :: ns) = .pair n (.joint j (Token.word j.word) (joined j (m :: ns))) := rfl

theorem said?_joined {j : Junction} {cs rest : List Char} {ts us : List Token} (h : Token.said? cs = some ts)
    (later : Token.said? rest = some us) :
    Token.said? ('(' :: (cs ++ ')' :: ' ' :: (j.word.toList ++ ' ' :: rest))) =
      some (Token.opening :: (ts ++ Token.closing :: Token.word j.word :: us)) := by
  have word : Token.IsWord j.word.toList := by cases j <;> decide
  rw [Token.said?_enclosed h, Token.said?_blank, Token.said?_word word (Token.ends_cons (Or.inl rfl) rest),
    Token.said?_blank, later, String.ofList_toList]
  rfl

theorem said_joined (j : Junction) {ns : List (Nest Token)} {filters : List String}
    (h : List.Forall₂ IsSaid ns filters) (full : ns ≠ []) : (joined j ns).IsSaid (Text.joined j filters) := by
  induction h with
  | nil => exact absurd rfl full
  | @cons n filter ns filters own later ih =>
    cases later with
    | nil => exact own.pair
    | @cons m next ns filters second further =>
      obtain ⟨us, rest, others⟩ := ih (List.cons_ne_nil m ns)
      obtain ⟨ts, said, events⟩ := own
      refine ⟨Token.opening :: (ts ++ Token.closing :: Token.word j.word :: us), ?_, ?_⟩
      · have whole := said?_joined (j := j) said rest
        rw [Text.joined, List.map_cons, List.map_cons, Text.join]
        simp only [String.toList_append, List.append_assoc]
        exact whole
      · have word : Event.ofToken (Token.word j.word) = .joint j (Token.word j.word) := by cases j <;> rfl
        rw [joined_cons, Nest.events, Nest.events, others, events]
        simp only [List.map_cons, List.map_append, word]
        rfl

theorem depth_joined {α : Type} (j : Junction) {ns : List (Nest α)} {k : Nat} (h : ∀ n ∈ ns, n.depth < k) :
    (joined j ns).depth ≤ k := by
  induction ns with
  | nil => exact Nat.zero_le k
  | cons n ns ih =>
    obtain ⟨own, later⟩ := List.forall_mem_cons.1 h
    cases ns with
    | nil => exact Nat.max_le.2 ⟨own, Nat.zero_le k⟩
    | cons m ns => exact Nat.max_le.2 ⟨own, ih later⟩

def resolveAll (v : Vocabulary) (stem : String) : Nat → List (Nest Token) → List (Nest Lexeme)
  | _, [] => []
  | k, n :: ns => n.resolve v stem k :: resolveAll v stem (k + (n.values v).length) ns

theorem length_resolveAll (v : Vocabulary) (stem : String) (k : Nat) (ns : List (Nest Token)) :
    (resolveAll v stem k ns).length = ns.length := by
  induction ns generalizing k with
  | nil => rfl
  | cons n ns ih => exact congrArg Nat.succ (ih _)

theorem resolve_joined (v : Vocabulary) (stem : String) (j : Junction) (ns : List (Nest Token)) (k : Nat) :
    (joined j ns).resolve v stem k = joined j (resolveAll v stem k ns) := by
  induction ns generalizing k with
  | nil => rfl
  | cons n ns ih =>
    cases ns with
    | nil => rfl
    | cons m ns =>
      rw [joined_cons, resolve, resolve, ih]
      rfl

theorem stands_of_compile {n : Nest Lexeme} {c : Condition} (h : n.compile.result = .ok c)
    (full : c.isEmpty = false) : Stands (.pair n .nil) c := by
  have whole : Node.compile (.run [] (Node.pruneAll [n.node Lexeme.namesFunction])) = n.compile :=
    n.compile_pair
  rw [← whole] at h
  rcases n.pruneAll_node with none | ⟨m, -, one⟩
  · rw [none] at h
    cases h
    cases full
  · rw [one, Node.compile] at h
    exact stands_pair one h

theorem stands_resolveAll {v : Vocabulary} {stem : String} {ns : List (Nest Token)} {cs : List Condition}
    (h : List.Forall₂ (fun n c => (n.resolve v stem 0).compile.result = .ok c ∧ c.isEmpty = false) ns cs)
    (k : Nat) : List.Forall₂ Stands ((resolveAll v stem k ns).map fun n => .pair n .nil)
      (Condition.renumbered stem k cs) := by
  induction h generalizing k with
  | nil => exact .nil
  | @cons n c ns cs own later ih =>
    obtain ⟨compiled, full⟩ := own
    -- As many numbers are taken by the nest as there are parameters in the condition.
    have count : (n.values v).length = c.parameters.length := by
      rw [parameters_of_compile compiled, List.length_mapIdx]
    refine .cons (stands_of_compile (compile_resolve compiled k) ?_) (count ▸ ih _)
    rwa [Condition.isEmpty_change]

theorem compile_of_stands {ns : List (Nest Lexeme)} {cs : List Condition} (j : Junction)
    (h : List.Forall₂ Stands (ns.map fun n => .pair n .nil) cs) (several : 2 ≤ ns.length) :
    (joined j ns).compile.result = .ok (Condition.join j cs) := by
  have whole : (joined j ns).Joined (Condition.join j cs) :=
    joined_of_stands h (by rwa [List.length_map]) j (Token.word j.word)
  have enclosed : (joined j ns).enclosed = joined j ns := by
    match ns with
    | [] | [_] => simp at several
    | _ :: _ :: _ => rfl
  rw [compile, enclosed, whole.pruneAll_node, Node.compile]
  exact whole.compile

end Nest

namespace Condition

theorem isEmpty_renumbered {stem : String} {cs : List Condition} (h : ∀ c ∈ cs, c.isEmpty = false) (k : Nat) :
    ∀ c ∈ renumbered stem k cs, c.isEmpty = false := by
  induction cs generalizing k with
  | nil => nofun
  | cons c cs ih =>
    obtain ⟨own, later⟩ := List.forall_mem_cons.1 h
    refine List.forall_mem_cons.2 ⟨?_, ih later _⟩
    rwa [isEmpty_change]

theorem exists_nest {v : Vocabulary} {filter : String} {c : Condition} {n : Nest Token} (nested : n.IsOf filter)
    (shallow : n.depth < Balance.limit) (h : (compile .default v filter).result = .ok c) :
    ∃ m : Nest Token, m.IsSaid filter ∧ m.depth < Balance.limit ∧
      (m.resolve v Settings.default.stem 0).compile.result = .ok c := by
  have depth : n.unplaced.depth = n.depth := n.depth_map _ _
  refine ⟨n.unplaced, nested.said, depth ▸ shallow, ?_⟩
  have mirror := (nested.said.compile (by omega) v).result
  rw [h] at mirror
  exact mirror.eq_ok.trans (congrArg Except.ok (onTokens_of_compile h Token.unplaced))

theorem exists_nests {v : Vocabulary} {filters : List String} {cs : List Condition}
    (each : List.Forall₂ (fun f c => (compile .default v f).result = .ok c ∧ c.isEmpty = false ∧
      ∃ n : Nest Token, n.IsOf f ∧ n.depth < Balance.limit) filters cs) :
    ∃ ns : List (Nest Token), List.Forall₂ Nest.IsSaid ns filters ∧ (∀ n ∈ ns, n.depth < Balance.limit) ∧
      List.Forall₂ (fun n c => (n.resolve v Settings.default.stem 0).compile.result = .ok c ∧
        c.isEmpty = false) ns cs := by
  induction each with
  | nil => exact ⟨[], .nil, nofun, .nil⟩
  | cons own _ ih =>
    obtain ⟨compiled, full, n, nested, shallow⟩ := own
    obtain ⟨m, said, depth, also⟩ := exists_nest nested shallow compiled
    obtain ⟨ns, others, depths, later⟩ := ih
    exact ⟨m :: ns, .cons said others, List.forall_mem_cons.2 ⟨depth, depths⟩, .cons ⟨also, full⟩ later⟩

/-- Two or more filters that compile to conditions that say something, put together in parentheses with one
    joining word between each two, compile to the joined condition of exactly these, in their order and with
    the parameters of each numbered after those of the ones before. -/
theorem compile_joined (v : Vocabulary) (j : Junction) {filters : List String} {cs : List Condition}
    (several : 2 ≤ filters.length)
    (each : List.Forall₂ (fun f c => (compile .default v f).result = .ok c ∧ c.isEmpty = false ∧
      ∃ n : Nest Token, n.IsOf f ∧ n.depth < Balance.limit) filters cs) :
    (compile .default v (Text.joined j filters)).result =
      .ok (match j with
        | .all => .all (renumbered Settings.default.stem 0 cs)
        | .any => .any (renumbered Settings.default.stem 0 cs)) := by
  obtain ⟨ns, said, shallow, compiled⟩ := exists_nests each
  have count : ns.length = filters.length := said.length_eq
  have full : ∀ c ∈ cs, c.isEmpty = false :=
    forall_of_forall₂ (each.imp fun _ _ own => own.2.1)
  have whole := Nest.compile_of_stands j (Nest.stands_resolveAll compiled 0)
    (by rw [Nest.length_resolveAll]; omega)
  have nonempty : ns ≠ [] := by
    rintro rfl
    simp only [List.length_nil] at count
    omega
  have mirror := ((Nest.said_joined j said nonempty).compile (Nest.depth_joined j shallow) v).result
  rw [Nest.resolve_joined, whole, join_eq (isEmpty_renumbered full 0)] at mirror
  obtain ⟨c, built, image⟩ := mirror.exists_ok
  rw [built]
  exact congrArg Except.ok ((onTokens_of_compile built Token.unplaced).symm.trans image)

theorem compile_joined_two :
    let v : Vocabulary := .ofLists [("a", ⟨⟨none, "a"⟩, .unknown⟩)] []
    let filters := ["a eq 1 or a gt 'x'", "(a lt 2)"]
    ∃ c d, (compile .default v "a eq 1 or a gt 'x'").result = .ok c ∧
      (compile .default v "(a lt 2)").result = .ok d ∧ 2 ≤ filters.length ∧
      (compile .default v (Text.joined .all filters)).result =
        .ok (.all (renumbered Settings.default.stem 0 [c, d])) := by
  intro v filters
  obtain ⟨c, first, full⟩ := exists_of_any (show (compile .default v "a eq 1 or a gt 'x'").result.toOption.any
    (fun c => !c.isEmpty) = true by decide +kernel)
  obtain ⟨d, second, also⟩ := exists_of_any (show (compile .default v "(a lt 2)").result.toOption.any
    (fun c => !c.isEmpty) = true by decide +kernel)
  let m : Nest Token := .leaf ⟨.word, "a", ⟨1, 1⟩⟩ (.leaf ⟨.word, "eq", ⟨1, 3⟩⟩ (.leaf ⟨.number, "1", ⟨1, 6⟩⟩
    (.joint .any ⟨.word, "or", ⟨1, 8⟩⟩ (.leaf ⟨.word, "a", ⟨1, 11⟩⟩ (.leaf ⟨.word, "gt", ⟨1, 13⟩⟩
      (.leaf ⟨.quoted, "'x'", ⟨1, 16⟩⟩ .nil))))))
  let n : Nest Token := .pair (.leaf ⟨.word, "a", ⟨1, 2⟩⟩ (.leaf ⟨.word, "lt", ⟨1, 4⟩⟩
    (.leaf ⟨.number, "2", ⟨1, 7⟩⟩ .nil))) .nil
  have one : m.IsOf "a eq 1 or a gt 'x'" :=
    ⟨_, Token.Scan.complete_of_unterminated (by decide +kernel), by decide +kernel⟩
  have other : n.IsOf "(a lt 2)" :=
    ⟨_, Token.Scan.complete_of_unterminated (by decide +kernel), by decide +kernel⟩
  have several : 2 ≤ filters.length := by decide
  refine ⟨c, d, first, second, several, compile_joined v .all several ?_⟩
  exact .cons ⟨first, by simpa using full, m, one, by decide⟩
    (.cons ⟨second, by simpa using also, n, other, by decide⟩ .nil)

end Condition

end WhereClause
