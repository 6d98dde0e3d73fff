import WhereClause.Proofs.Outline.Compiled
import WhereClause.Proofs.Outline.Nest

namespace WhereClause

inductive Entry (α : Type) where
  | item (x : α)
  | joint (j : Junction) (word : Token)
  | group (inner : List (Entry α))
  | boolGroup (inner : List (Entry α))
  | call (name : α) (arguments : List (Entry α))

namespace Node

variable {α : Type}

mutual

/-- What the node puts in the place where it stands: a run its items and then what its children put
    there, any other node itself. -/
def entries : Node α → List (Entry α)
  | .run items cs => items.map .item ++ entriesOf cs
  | .marker j word => [.joint j word]
  | .group cs => [.group (entriesOf cs)]
  | .boolGroup cs => [.boolGroup (entriesOf cs)]
  | .call name cs => [.call name (entriesOf cs)]

def entriesOf : List (Node α) → List (Entry α)
  | [] => []
  | n :: ns => n.entries ++ entriesOf ns

end

@[simp] theorem entriesOf_append (ns ms : List (Node α)) :
    entriesOf (ns ++ ms) = entriesOf ns ++ entriesOf ms := by
  induction ns with
  | nil => rfl
  | cons n ns ih => simp [entriesOf, ih]

theorem entriesOf_pruneAll_cons (n : Node α) (ns : List (Node α)) :
    entriesOf (pruneAll (n :: ns)) = entriesOf (pruneAll [n]) ++ entriesOf (pruneAll ns) := by
  rw [pruneAll_cons, entriesOf_append]

theorem entriesOf_pruneAll_run (items : List α) (cs : List (Node α)) :
    entriesOf (pruneAll [.run items cs]) = items.map .item ++ entriesOf (pruneAll cs) := by
  rw [pruneAll_run]
  split
  · next bare => simp [bare.1, bare.2, entriesOf]
  · simp [entriesOf, entries]

end Node

namespace Nest

variable {α : Type} (calls : α → Bool)

/-- What stands in a pair, `last` being the token right before: a token that names a function belongs to
    the call if a pair follows, and a group of nothing but parentheses is left out. -/
def entries : Option α → Nest α → List (Entry α)
  | last, .nil => last.toList.map .item
  | last, .leaf item rest => last.toList.map .item ++ entries (some item) rest
  | last, .joint j word rest => last.toList.map .item ++ .joint j word :: entries none rest
  | last, .pair inner rest =>
    match last.filter calls with
    | some name => .call name (entries none inner) :: entries none rest
    | none =>
      let own :=
        if inner.hasJoint then [.boolGroup (entries none inner)]
        else if inner.isBlank then []
        else [.group (entries none inner)]
      last.toList.map .item ++ own ++ entries none rest

theorem isBlank_of_hasJoint {n : Nest α} (h : n.hasJoint = true) : n.isBlank = false := by
  induction n with
  | pair inner rest inside after => simp [isBlank, after h]
  | _ => simp_all [hasJoint, isBlank]

theorem pruneAll_outline_eq_nil (n : Nest α) (items : List α) :
    Node.pruneAll ((outline calls items n).1 :: (outline calls items n).2) = [] ↔
      items = [] ∧ n.isBlank = true := by
  induction n generalizing items with
  | nil =>
    rw [outline, Node.pruneAll_run]
    simp [isBlank, Node.pruneAll]
  | leaf item rest ih => simp [outline, ih, isBlank]
  | joint j word rest ih =>
    rw [outline, Node.pruneAll_cons (.run items []), Node.pruneAll_cons (.marker j word),
      Node.pruneAll_marker]
    simp [isBlank]
  | pair inner rest inside after =>
    have held := inside []
    have later := after []
    rw [Node.pruneAll_cons, List.append_eq_nil_iff] at later
    have run (items : List α) (cs : List (Node α)) : Node.pruneAll [.run items cs] = [] ↔
        items = [] ∧ Node.pruneAll cs = [] := by
      rw [Node.pruneAll_run]
      split <;> simp_all
    rw [outline, Node.pruneAll_cons, List.append_eq_nil_iff, run, Node.pruneAll_cons,
      List.append_eq_nil_iff, and_assoc, and_assoc, later]
    rcases paired_cases calls items with ⟨before, name, rfl, -, own⟩ | ⟨-, own⟩
    · simp [own, Node.pruneAll_call]
    · rw [own]
      cases joined : inner.hasJoint
      · simp [Node.pruneAll_group, held, isBlank]
      · simp [Node.pruneAll_boolGroup, held, isBlank]

theorem entriesOf_outline (n : Nest α) (items : List α) :
    Node.entriesOf (Node.pruneAll ((outline calls items n).1 :: (outline calls items n).2)) =
      items.dropLast.map .item ++ n.entries calls items.getLast? := by
  have whole (items : List α) (es : List (Entry α)) : items.map .item ++ es =
      items.dropLast.map .item ++ (items.getLast?.toList.map .item ++ es) := by
    rcases List.eq_nil_or_concat items with rfl | ⟨before, last, rfl⟩ <;> simp
  have first : entries calls (none : Option α) = entries calls ([] : List α).getLast? := rfl
  induction n generalizing items with
  | nil =>
    rw [outline, Node.entriesOf_pruneAll_run]
    simpa [entries, Node.pruneAll, Node.entriesOf] using whole items []
  | leaf item rest ih =>
    rw [outline, ih, entries, List.dropLast_concat, List.getLast?_concat, ← whole]
  | joint j word rest ih =>
    rw [outline, Node.entriesOf_pruneAll_cons, Node.entriesOf_pruneAll_cons (.marker j word),
      Node.entriesOf_pruneAll_run, Node.pruneAll_marker, ih, entries, ← whole, first]
    simp [Node.pruneAll, Node.entriesOf, Node.entries]
  | pair inner rest inside after =>
    have held : Node.entriesOf (Node.pruneAll (inner.children calls)) = inner.entries calls none :=
      inside []
    have later := after []
    have blank : Node.pruneAll (inner.children calls) = [] ↔ _ := pruneAll_outline_eq_nil calls inner []
    rw [Node.entriesOf_pruneAll_cons, List.dropLast_nil, List.map_nil, List.nil_append, ← first] at later
    have run : Node.entriesOf (Node.pruneAll
        ((outline calls items (.pair inner rest)).1 :: (outline calls items (.pair inner rest)).2)) =
        (paired calls items inner.hasJoint (inner.children calls)).1.map .item ++
          (Node.entriesOf (Node.pruneAll
            [(paired calls items inner.hasJoint (inner.children calls)).2]) ++
              rest.entries calls none) := by
      rw [outline, Node.entriesOf_pruneAll_cons, Node.entriesOf_pruneAll_run,
        Node.entriesOf_pruneAll_cons, List.append_assoc, List.append_assoc, later]
      rfl
    rw [run]
    rcases paired_cases calls items with ⟨before, name, rfl, named, own⟩ | ⟨other, own⟩
    · have last : (some name).filter calls = some name := by simp [named]
      rw [own, Node.pruneAll_call, List.dropLast_concat, List.getLast?_concat, entries, last]
      simp [Node.entriesOf, Node.entries, held]
    · have unnamed : items.getLast?.filter calls = none := by simpa using other
      rw [own, whole, entries, unnamed]
      dsimp only
      rw [List.append_assoc]
      cases joined : inner.hasJoint
      · cases empty : inner.isBlank <;>
          simp [Node.pruneAll_group, blank, empty, Node.entriesOf, Node.entries, held]
      · simp [Node.pruneAll_boolGroup, blank, isBlank_of_hasJoint joined, Node.entriesOf,
          Node.entries, held]

theorem entriesOf_node (n : Nest α) :
    Node.entriesOf (Node.pruneAll [n.node calls]) = (Nest.pair n .nil).entries calls none := by
  have run := entriesOf_outline calls (.pair n .nil) []
  have blank : Node.pruneAll [(.run [] [] : Node α)] = [] := rfl
  rw [outline, outline, Node.entriesOf_pruneAll_run, Node.pruneAll_cons, blank, List.append_nil] at run
  exact run

end Nest

/-- The outline of tokens is the tree of their parentheses: they are the events of one nest, and the root
    holds what the outer pair of that nest puts around it. -/
theorem Node.entries_ofTokens {ts : List Token} {root : Node Token} (h : ofTokens ts = .ok root) :
    ∃ n : Nest Token, (∀ m : Nest Token, m.events = (Token.significant ts).map Event.ofToken ↔ m = n) ∧
      root.kind = .run ∧ root.entries = n.outer.entries Token.namesFunction none := by
  obtain ⟨events, read, built⟩ := bind_eq_ok.1 h
  obtain ⟨_, balanced, mapped⟩ := bind_eq_ok.1 read
  cases mapped
  obtain ⟨n, whole⟩ := Nest.exists_of_check balanced
  rw [← whole, Node.ofEvents, Nest.ofEvents?_events] at built
  cases built
  refine ⟨n, fun m => ?_, rfl, ?_⟩
  · rw [← whole, Nest.events_inj]
  · exact Nest.entriesOf_node Token.namesFunction n.enclosed

theorem Node.entries_ofTokens_calls :
    ∃ root, ofTokens (Token.scan .filter "contains(a, (b)) and (() (c or length d))").tokens = .ok root ∧
      ∃ n : Nest Token, (∀ m : Nest Token, m.events = (Token.significant
          (Token.scan .filter "contains(a, (b)) and (() (c or length d))").tokens).map Event.ofToken ↔
            m = n) ∧
        root.kind = .run ∧ root.entries = n.outer.entries Token.namesFunction none := by
  cases built : ofTokens (Token.scan .filter "contains(a, (b)) and (() (c or length d))").tokens with
  | error fault =>
    have accepted : (ofTokens (Token.scan .filter
      "contains(a, (b)) and (() (c or length d))").tokens).toBool = true := by decide +kernel
    rw [built] at accepted
    cases accepted
  | ok root => exact ⟨root, rfl, entries_ofTokens built⟩

end WhereClause
