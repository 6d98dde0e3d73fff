import WhereClause.Outline.Build

namespace WhereClause

variable {α β : Type} (φ : α → β) (ψ : Token → Token)

namespace Event

def map : Event α → Event β
  | .enter => .enter
  | .leave => .leave
  | .joint j word => .joint j (ψ word)
  | .leaf item => .leaf (φ item)

theorem joinsAhead_map (depth : Nat) (es : List (Event α)) :
    joinsAhead depth (es.map (map φ ψ)) = joinsAhead depth es := by
  induction es generalizing depth with
  | nil => rfl
  | cons event es ih =>
    cases event with
    | enter => exact ih (depth + 1)
    | leave =>
      cases depth with
      | zero => rfl
      | succ depth => exact ih depth
    | joint j word => simp only [List.map_cons, map, joinsAhead, ih]
    | leaf item => exact ih depth

theorem leavesAtEnd_map (depth : Nat) (es : List (Event α)) :
    leavesAtEnd depth (es.map (map φ ψ)) = leavesAtEnd depth es := by
  induction es generalizing depth with
  | nil => rfl
  | cons event es ih =>
    cases event with
    | enter => exact ih (depth + 1)
    | leave =>
      cases depth with
      | zero => simp only [List.map_cons, map, leavesAtEnd, List.isEmpty_map]
      | succ depth => exact ih depth
    | joint j word => exact ih depth
    | leaf item => exact ih depth

theorem enclose_map (events : List (Event α)) :
    enclose (events.map (map φ ψ)) = (enclose events).map (map φ ψ) := by
  have added : enter :: events.map (map φ ψ) ++ [leave] =
      (enter :: events ++ [leave]).map (map φ ψ) := by simp [map]
  cases events with
  | nil => rfl
  | cons event events =>
    cases event with
    | enter =>
      have whole := leavesAtEnd_map φ ψ 0 events
      simp only [List.map_cons, map] at added ⊢
      simp only [enclose, whole]
      split
      · rfl
      · exact added
    | leave => exact added
    | joint j word => exact added
    | leaf item => exact added

end Event

namespace Node

mutual

def map : Node α → Node β
  | .run items cs => .run (items.map φ) (mapAll cs)
  | .marker j word => .marker j (ψ word)
  | .group cs => .group (mapAll cs)
  | .boolGroup cs => .boolGroup (mapAll cs)
  | .call name cs => .call (φ name) (mapAll cs)

def mapAll : List (Node α) → List (Node β)
  | [] => []
  | n :: ns => n.map :: mapAll ns

end

@[simp] theorem mapAll_eq (ns : List (Node α)) : mapAll φ ψ ns = ns.map (map φ ψ) := by
  induction ns with
  | nil => rfl
  | cons n ns ih => simp [mapAll, ih]

@[simp] theorem isScope_map (n : Node α) : (n.map φ ψ).isScope = n.isScope := by cases n <;> rfl

@[simp] theorem isCall_map (n : Node α) : (n.map φ ψ).isCall = n.isCall := by cases n <;> rfl

@[simp] theorem isGrouping_map (n : Node α) : (n.map φ ψ).isGrouping = n.isGrouping := by
  cases n <;> rfl

@[simp] theorem junction?_map (n : Node α) : (n.map φ ψ).junction? = n.junction? := by cases n <;> rfl

@[simp] theorem isBare_map (n : Node α) : (n.map φ ψ).isBare = n.isBare := by
  cases n with
  | run items cs => cases items <;> cases cs <;> rfl
  | marker j word => rfl
  | group cs => cases cs <;> rfl
  | boolGroup cs => cases cs <;> rfl
  | call name cs => rfl

theorem add_map (n child : Node α) : (n.add child).map φ ψ = (n.map φ ψ).add (child.map φ ψ) := by
  cases n <;> simp [add, map]

mutual

theorem prune_map : (n : Node α) → (n.map φ ψ).prune = n.prune.map φ ψ
  | .run items cs => by simpa [map, prune] using pruneAll_map cs
  | .marker .. => rfl
  | .group cs => by simpa [map, prune] using pruneAll_map cs
  | .boolGroup cs => by simpa [map, prune] using pruneAll_map cs
  | .call name cs => by simpa [map, prune] using pruneAll_map cs

theorem pruneAll_map : (ns : List (Node α)) →
    pruneAll (ns.map (map φ ψ)) = (pruneAll ns).map (map φ ψ)
  | [] => rfl
  | n :: ns => by
    have first := prune_map n
    have rest := pruneAll_map ns
    simp only [List.map_cons, pruneAll, first, rest, isBare_map]
    split <;> rfl

end

end Node

namespace Cursor

def map (c : Cursor α) : Cursor β := ⟨c.items.map φ, c.outer.map (Node.map φ ψ)⟩

theorem root_map (c : Cursor α) : (c.map φ ψ).root = c.root.map φ ψ := by
  have closing (outer : List (Node α)) (n : Node α) :
      (outer.map (Node.map φ ψ)).foldl (fun n holder => holder.add n) (n.map φ ψ) =
        (outer.foldl (fun n holder => holder.add n) n).map φ ψ := by
    induction outer generalizing n with
    | nil => rfl
    | cons holder outer ih =>
      rw [List.map_cons, List.foldl_cons, List.foldl_cons, ← Node.add_map, ih]
  exact closing c.outer c.run

theorem scope?_map (n : Node α) (outer : List (Node α)) :
    scope? (n.map φ ψ) (outer.map (Node.map φ ψ)) =
      (scope? n outer).map fun s => (s.1.map φ ψ, s.2.map (Node.map φ ψ)) := by
  induction outer generalizing n with
  | nil => rfl
  | cons holder outer ih =>
    simp only [List.map_cons, scope?, Node.isScope_map, ← Node.add_map, ih]
    split <;> rfl

theorem leave?_map (c : Cursor α) : (c.map φ ψ).leave? = c.leave?.map (map φ ψ) := by
  have closed := scope?_map φ ψ c.run c.outer
  have found : scope? (c.map φ ψ).run (c.map φ ψ).outer = _ := closed
  unfold leave?
  rw [found]
  rcases scope? c.run c.outer with _ | ⟨pair, _ | ⟨holder, outer⟩⟩
  · rfl
  · rfl
  · simp [map, Node.add_map]

theorem joint?_map (c : Cursor α) (j : Junction) (word : Token) :
    (c.map φ ψ).joint? j (ψ word) = (c.joint? j word).map (map φ ψ) := by
  have closed := scope?_map φ ψ c.run c.outer
  have found : scope? (c.map φ ψ).run (c.map φ ψ).outer = _ := closed
  unfold joint?
  rw [found]
  rcases scope? c.run c.outer with _ | ⟨pair, outer⟩
  · rfl
  · simp [map, Node.add_map, Node.map]

variable {calls : α → Bool} {others : β → Bool}

theorem enter_map (same : ∀ x, others (φ x) = calls x) (joined : Bool) (c : Cursor α) :
    (c.map φ ψ).enter others joined = (c.enter calls joined).map φ ψ := by
  have last : (c.map φ ψ).items.getLast? = c.items.getLast?.map φ := List.getLast?_map
  unfold enter
  rw [last]
  cases c.items.getLast? with
  | none => cases joined <;> simp [map, openNode, Node.map]
  | some name =>
    simp only [Option.map_some, same]
    cases calls name <;> cases joined <;> simp [map, openNode, Node.map, List.map_dropLast]

theorem run?_map (same : ∀ x, others (φ x) = calls x) (es : List (Event α)) (c : Cursor α) :
    (c.map φ ψ).run? others (es.map (Event.map φ ψ)) = (c.run? calls es).map (map φ ψ) := by
  induction es generalizing c with
  | nil => rfl
  | cons event es ih =>
    cases event with
    | enter =>
      simp only [List.map_cons, Event.map, run?, Event.joinsAhead_map, enter_map φ ψ same, ih]
    | leave =>
      simp only [List.map_cons, Event.map, run?, leave?_map]
      cases c.leave? with
      | none => rfl
      | some d => exact ih d
    | joint j word =>
      simp only [List.map_cons, Event.map, run?, joint?_map]
      cases c.joint? j word with
      | none => rfl
      | some d => exact ih d
    | leaf item =>
      have read : (c.map φ ψ).leaf (φ item) = (c.leaf item).map φ ψ := by simp [map, leaf]
      simp only [List.map_cons, Event.map, run?, read, ih]

end Cursor

theorem Node.ofEvents?_map {calls : α → Bool} {others : β → Bool}
    (same : ∀ x, others (φ x) = calls x) (events : List (Event α)) :
    ofEvents? others (events.map (Event.map φ ψ)) = (ofEvents? calls events).map (map φ ψ) := by
  have started : (Cursor.start : Cursor β) = (Cursor.start : Cursor α).map φ ψ := rfl
  unfold ofEvents?
  rw [Event.enclose_map, started, Cursor.run?_map φ ψ same, Option.map_map, Option.map_map]
  congr 1
  funext c
  simp [Cursor.root_map, prune_map]

end WhereClause
