import WhereClause.Proofs.Enclosure.Scan
import WhereClause.Proofs.Outline.Places
import WhereClause.Proofs.Outline.Resolve
import WhereClause.Proofs.RoundTrip.Yield

namespace WhereClause

def Text.enclosed : Nat → String → String
  | 0, text => text
  | k + 1, text => "(" ++ enclosed k text ++ ")"

namespace Nest

def IsOf (n : Nest Token) (filter : String) : Prop :=
  ∃ tokens, (Token.scan .filter filter).complete = .ok tokens ∧
    n.events = (Token.significant tokens).map Event.ofToken

def IsSaid (n : Nest Token) (text : String) : Prop :=
  ∃ ts, Token.said? text.toList = some ts ∧ n.events = ts.map Event.ofToken

def unplaced (n : Nest Token) : Nest Token := n.map Token.unplaced Token.unplaced

theorem exists_isOf_iff {filter : String} : (∃ n : Nest Token, n.IsOf filter ∧ n.depth ≤ Balance.limit) ↔
    ∃ tokens, (Token.scan .filter filter).complete = .ok tokens ∧
      Balance.check (Token.significant tokens) = .ok () := by
  constructor
  · rintro ⟨n, ⟨tokens, scanned, events⟩, shallow⟩
    exact ⟨tokens, scanned, Balance.check_iff.2 ⟨n, events, shallow⟩⟩
  · rintro ⟨tokens, scanned, passed⟩
    obtain ⟨n, events, shallow⟩ := Balance.check_iff.1 passed
    exact ⟨n, ⟨tokens, scanned, events⟩, shallow⟩

theorem IsOf.said {n : Nest Token} {filter : String} (h : n.IsOf filter) : n.unplaced.IsSaid filter := by
  obtain ⟨tokens, scanned, events⟩ := h
  refine ⟨_, Token.said?_of_complete scanned, ?_⟩
  rw [unplaced, events_map, events, List.map_map, List.map_map]
  exact List.map_congr_left fun t _ =>
    (Event.ofToken_map (Vocabulary.overlooks_unplaced (.ofLists [] [])) t).symm

theorem IsSaid.pair {n : Nest Token} {text : String} (h : n.IsSaid text) :
    IsSaid (.pair n .nil) ("(" ++ text ++ ")") := by
  obtain ⟨ts, said, events⟩ := h
  refine ⟨Token.opening :: (ts ++ [Token.closing]), ?_, ?_⟩
  · have whole := Token.said?_enclosed said []
    rw [Token.said?_nil, Option.map_some] at whole
    rw [String.toList_append, String.toList_append, List.append_assoc]
    exact whole
  · rw [Nest.events, events, List.map_cons, List.map_append]
    rfl

theorem IsSaid.compile {n : Nest Token} {text : String} (h : n.IsSaid text)
    (shallow : n.depth ≤ Balance.limit) (v : Vocabulary) :
    Outcome.MirrorsBy Fault.placeless (Condition.change .unplaced) (Condition.compile .default v text)
      (n.resolve v Settings.default.stem 0).compile := by
  obtain ⟨ts, said, events⟩ := h
  have mirror := Condition.compile_of_said v said
  rw [← Token.significant_of_said said] at events
  rwa [Condition.ofTokens_of_events v _ events shallow] at mirror

theorem pruneAll_node (n : Nest Lexeme) : Node.pruneAll [n.node Lexeme.namesFunction] = [] ∨
    ∃ m, m.isGrouping = true ∧ Node.pruneAll [n.node Lexeme.namesFunction] = [m] := by
  rw [node]
  split
  · rw [Node.pruneAll_boolGroup]
    split
    · exact Or.inl rfl
    · exact Or.inr ⟨_, rfl, rfl⟩
  · rw [Node.pruneAll_group]
    split
    · exact Or.inl rfl
    · exact Or.inr ⟨_, rfl, rfl⟩

theorem node_pair (inner : Nest Lexeme) : (Nest.pair inner .nil).node Lexeme.namesFunction =
    .group [.run [] [inner.node Lexeme.namesFunction, .run [] []]] := by
  rw [node, children, outline_pair settled_nil]
  rfl

/-- One more pair around everything is not seen: it takes the place of the pair that is added otherwise, or else
    it stands around one that makes it redundant. -/
theorem compile_pair (n : Nest Lexeme) : (Nest.pair n .nil).compile = n.compile := by
  have whole : (Nest.pair n .nil).compile =
      Node.compile (.run [] (Node.pruneAll [n.node Lexeme.namesFunction])) := rfl
  rw [whole, compile]
  cases n with
  | pair inner rest =>
    cases rest with
    | nil =>
      rw [node_pair, enclosed, Node.pruneAll_group, Node.pruneAll_run, Node.pruneAll_cons]
      have bare : Node.pruneAll [(.run [] [] : Node Lexeme)] = [] := rfl
      rw [bare, List.append_nil]
      rcases inner.pruneAll_node with none | ⟨m, grouping, one⟩
      · simp [none]
      · have own : m.elided = m := by
          cases m with
          | run items cs => cases grouping
          | _ => rfl
        have redundant : (Node.run [] [m]).elided.isGrouping = true := by
          rw [Node.elided, own, grouping]
        simp only [one, List.cons_ne_nil, and_false, if_false]
        rw [Node.compile, Node.compile, Node.compile, if_pos redundant, Node.compile]
    | _ => rfl
  | _ => rfl

def within : Nat → Nest Token → Nest Token
  | 0, n => n
  | k + 1, n => .pair (n.within k) .nil

theorem depth_within (n : Nest Token) (k : Nat) : (n.within k).depth = n.depth + k := by
  induction k with
  | zero => rfl
  | succ k ih => simp [within, depth, ih, Nat.add_assoc]

theorem IsSaid.within {n : Nest Token} {text : String} (h : n.IsSaid text) (k : Nat) :
    (n.within k).IsSaid (Text.enclosed k text) := by
  induction k with
  | zero => exact h
  | succ k ih => exact ih.pair

theorem compile_within (v : Vocabulary) (stem : String) (n : Nest Token) (k : Nat) :
    ((n.within k).resolve v stem 0).compile = (n.resolve v stem 0).compile := by
  induction k with
  | zero => rfl
  | succ k ih => exact (compile_pair _).trans ih

end Nest

/-- A filter whose parentheses are balanced compiles in more parentheses around it, as many as are allowed, to
    the same condition with the same warnings as without them, or is refused for the same reason, its place
    apart. -/
theorem Condition.compile_enclosed (v : Vocabulary) {filter : String} {n : Nest Token} (balanced : n.IsOf filter)
    {k : Nat} (shallow : n.depth + k ≤ Balance.limit) :
    (compile .default v (Text.enclosed k filter)).warnings = (compile .default v filter).warnings ∧
      ((∃ c, (compile .default v (Text.enclosed k filter)).result = .ok c ∧
          (compile .default v filter).result = .ok c) ∨
        ∃ f g, (compile .default v (Text.enclosed k filter)).result = .error f ∧
          (compile .default v filter).result = .error g ∧ f.placeless = g.placeless) := by
  have said := balanced.said
  have depth : n.unplaced.depth = n.depth := n.depth_map _ _
  have own := said.compile (by omega) v
  have whole := (said.within k).compile (by rw [Nest.depth_within]; omega) v
  rw [Nest.compile_within] at whole
  refine whole.agree own fun a b compiled alsoCompiled image => ?_
  exact (onTokens_of_compile compiled _).symm.trans (image.trans (onTokens_of_compile alsoCompiled _))

theorem Condition.compile_enclosed_twice :
    let v : Vocabulary := .ofLists [("a", ⟨⟨none, "a"⟩, .unknown⟩)] []
    let n : Nest Token := .pair (.leaf ⟨.word, "a", ⟨1, 2⟩⟩ .nil)
      (.leaf ⟨.word, "eq", ⟨1, 5⟩⟩ (.pair (.leaf ⟨.quoted, "')'", ⟨1, 9⟩⟩ .nil) .nil))
    n.IsOf "(a) eq (')')" ∧ n.depth + 2 ≤ Balance.limit ∧
      (compile .default v (Text.enclosed 2 "(a) eq (')')")).warnings =
        (compile .default v "(a) eq (')')").warnings ∧
      ((∃ c, (compile .default v (Text.enclosed 2 "(a) eq (')')")).result = .ok c ∧
          (compile .default v "(a) eq (')')").result = .ok c) ∨
        ∃ f g, (compile .default v (Text.enclosed 2 "(a) eq (')')")).result = .error f ∧
          (compile .default v "(a) eq (')')").result = .error g ∧ f.placeless = g.placeless) := by
  intro v n
  have balanced : n.IsOf "(a) eq (')')" :=
    ⟨_, Token.Scan.complete_of_unterminated (by decide +kernel), by decide +kernel⟩
  have shallow : n.depth + 2 ≤ Balance.limit := by decide
  exact ⟨balanced, shallow, compile_enclosed v balanced shallow⟩

end WhereClause
