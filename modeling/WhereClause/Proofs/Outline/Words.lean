import WhereClause.Proofs.Outline.NestMap
import WhereClause.Proofs.Outline.Pairs

namespace WhereClause

namespace Event

variable {α β : Type} (view : α → Token)

def words (events : List (Event α)) : List Token :=
  events.filterMap fun
    | .joint _ word => some word
    | .leaf item => some (view item)
    | _ => none

theorem words_append (es fs : List (Event α)) : words view (es ++ fs) = words view es ++ words view fs :=
  List.filterMap_append

theorem words_map (φ : α → β) (view : β → Token) (es : List (Event α)) :
    words view (es.map (map φ id)) = words (fun x => view (φ x)) es := by
  rw [words, List.filterMap_map, words]
  congr 1
  funext event
  cases event <;> rfl

theorem words_resolve (v : Vocabulary) (stem : String) (n : Nat) (es : List (Event Token)) :
    words Lexeme.token (resolve v stem n es) = words id es := by
  have same := words_map Lexeme.token id (resolve v stem n es)
  rw [map_resolve] at same
  exact same.symm

theorem words_ofToken (ts : List Token) :
    words id (ts.map ofToken) = ts.filter fun t => !t.opens && !t.closes := by
  induction ts with
  | nil => rfl
  | cons t ts ih =>
    unfold words at ih ⊢
    rw [List.map_cons, List.filterMap_cons, List.filter_cons, ih, ofToken]
    cases opens : t.opens with
    | true => rfl
    | false =>
      cases closes : t.closes with
      | true => rfl
      | false => cases t.junction? <;> rfl

end Event

namespace Node

variable {α : Type} (view : α → Token)

def words (ns : List (Node α)) : List Token := (nodesOf ns).flatMap (tokens view)

theorem words_append (ns ms : List (Node α)) : words view (ns ++ ms) = words view ns ++ words view ms := by
  simp [words, nodesOf_eq]

theorem words_singleton (n : Node α) : words view [n] = n.tokens view ++ words view n.children := by
  rw [words, nodesOf, nodesOf, List.append_nil, nodes_eq, List.flatMap_cons, words]

theorem words_cons (n : Node α) (ns : List (Node α)) :
    words view (n :: ns) = n.tokens view ++ words view n.children ++ words view ns := by
  rw [← words_singleton, ← words_append, List.singleton_append]

theorem words_of_isBare {n : Node α} (h : n.isBare = true) : words view [n] = [] := by
  unfold isBare at h
  split at h
  · rfl
  · rfl
  · rfl
  · cases h

mutual

theorem words_prune : (n : Node α) → words view [n.prune] = words view [n]
  | .run items cs => by
    rw [prune, words_singleton, words_singleton]
    exact congrArg (_ ++ ·) (words_pruneAll cs)
  | .marker .. => rfl
  | .group cs => by
    rw [prune, words_singleton, words_singleton]
    exact congrArg (_ ++ ·) (words_pruneAll cs)
  | .boolGroup cs => by
    rw [prune, words_singleton, words_singleton]
    exact congrArg (_ ++ ·) (words_pruneAll cs)
  | .call name cs => by
    rw [prune, words_singleton, words_singleton]
    exact congrArg (_ ++ ·) (words_pruneAll cs)

theorem words_pruneAll : (ns : List (Node α)) → words view (pruneAll ns) = words view ns
  | [] => rfl
  | n :: ns => by
    have first := words_prune n
    have rest := words_pruneAll ns
    rw [words_singleton view n] at first
    unfold pruneAll
    split
    · next bare =>
      rw [words_of_isBare view bare] at first
      rw [words_cons, ← first, rest, List.nil_append]
    · rw [words_cons view n, ← first, ← rest, ← words_append, List.singleton_append]

end

mutual

theorem firstToken?_eq : (n : Node α) → n.firstToken? view = (words view [n]).head?
  | .run [] cs => (firstTokenOf?_eq cs).trans (congrArg List.head? (words_singleton view (.run [] cs)).symm)
  | .run (x :: items) cs => by
    rw [words_singleton]
    rfl
  | .marker .. => rfl
  | .group cs => (firstTokenOf?_eq cs).trans (congrArg List.head? (words_singleton view (.group cs)).symm)
  | .boolGroup cs =>
    (firstTokenOf?_eq cs).trans (congrArg List.head? (words_singleton view (.boolGroup cs)).symm)
  | .call name cs => by
    rw [words_singleton]
    rfl

theorem firstTokenOf?_eq : (ns : List (Node α)) → firstTokenOf? view ns = (words view ns).head?
  | [] => rfl
  | n :: ns => by
    rw [firstTokenOf?, firstToken?_eq n, firstTokenOf?_eq ns, ← List.head?_append, ← words_append,
      List.singleton_append]

end

theorem mem_words_of_leaf {ns : List (Node α)} {x : α} (h : x ∈ leavesOf ns) : view x ∈ words view ns := by
  rw [leavesOf_eq_own] at h
  obtain ⟨n, below, own⟩ := List.mem_flatMap.1 h
  refine List.mem_flatMap.2 ⟨n, below, ?_⟩
  cases n with
  | run items cs => exact List.mem_map_of_mem own
  | call name cs => exact List.mem_map_of_mem own
  | _ => cases own

end Node

namespace Nest

variable {α : Type} (view : α → Token) (calls : α → Bool)

theorem words_paired (items : List α) (joined : Bool) (children : List (Node α)) :
    (paired calls items joined children).1.map view ++ Node.words view [(paired calls items joined children).2] =
      items.map view ++ Node.words view children := by
  rw [Node.words_singleton]
  rcases paired_cases calls items with ⟨before, name, rfl, -, own⟩ | ⟨-, own⟩
  · rw [own, List.map_append, List.append_assoc]
    rfl
  · rw [own]
    cases joined <;> rfl

theorem words_outline (n : Nest α) (items : List α) :
    Node.words view ((outline calls items n).1 :: (outline calls items n).2) =
      items.map view ++ Event.words view n.events := by
  induction n generalizing items with
  | nil => rfl
  | leaf item rest ih =>
    rw [outline, ih, List.map_append, List.append_assoc]
    rfl
  | joint j word rest ih =>
    rw [outline, Node.words_cons, Node.words_cons, ih, List.append_assoc]
    rfl
  | pair inner rest inside after =>
    -- The run after the pair is a child of the run before it, next to the node of the pair.
    have own := words_paired view calls items inner.hasJoint (inner.children calls)
    have held : Node.words view (inner.children calls) = Event.words view inner.events := inside []
    have later : Node.words view (rest.children calls) = Event.words view rest.events := after []
    have split : Event.words view (inner.pair rest).events =
        Event.words view inner.events ++ Event.words view rest.events := Event.words_append ..
    have regroup (m k : Node α) (ns : List (Node α)) :
        Node.words view [m, k] ++ Node.words view ns = Node.words view [m] ++ Node.words view (k :: ns) := by
      rw [← Node.words_append, ← Node.words_append]
      rfl
    rw [held] at own
    rw [outline, Node.words_cons, split, ← List.append_assoc, ← own, ← later, List.append_assoc, List.append_assoc]
    exact congrArg (_ ++ ·) (regroup ..)

theorem words_node (n : Nest α) :
    Node.words view [.run [] (Node.pruneAll [n.enclosed.node calls])] = Event.words view n.events := by
  have pair (m : Nest α) : Node.words view [m.node calls] = Event.words view m.events := by
    have inside : Node.words view (m.children calls) = Event.words view m.events := words_outline view calls m []
    rw [node, Node.words_singleton]
    split <;> exact inside
  have around : Event.words view n.enclosed.events = Event.words view n.events := by
    cases n with
    | pair inner rest =>
      cases rest with
      | nil => exact (List.append_nil _).symm.trans (Event.words_append view inner.events [.leave]).symm
      | _ => rfl
    | _ => rfl
  rw [Node.words_singleton, ← around, ← pair]
  exact Node.words_pruneAll view _

end Nest

end WhereClause
