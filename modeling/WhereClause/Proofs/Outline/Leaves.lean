import WhereClause.Outline.Build

namespace WhereClause

def Event.leaves {α : Type} (events : List (Event α)) : List α :=
  events.filterMap fun
    | .leaf item => some item
    | _ => none

namespace Node

variable {α : Type}

mutual

/-- The items of a node and of all below it; the name of a call comes before what the call encloses. -/
def leaves : Node α → List α
  | .run items cs => items ++ leavesOf cs
  | .marker .. => []
  | .group cs => leavesOf cs
  | .boolGroup cs => leavesOf cs
  | .call name cs => name :: leavesOf cs

def leavesOf : List (Node α) → List α
  | [] => []
  | n :: ns => n.leaves ++ leavesOf ns

end

@[simp] theorem leavesOf_append (ns ms : List (Node α)) :
    leavesOf (ns ++ ms) = leavesOf ns ++ leavesOf ms := by
  induction ns with
  | nil => rfl
  | cons n ns ih => simp [leavesOf, ih]

theorem leaves_of_isBare {n : Node α} (h : n.isBare = true) : n.leaves = [] := by
  unfold isBare at h
  split at h
  · rfl
  · rfl
  · rfl
  · cases h

theorem leaves_add {holder : Node α} (open_ : holder.isMarker = false) (n : Node α) :
    (holder.add n).leaves = holder.leaves ++ n.leaves := by
  cases holder <;> simp_all [add, leaves, leavesOf, isMarker]

theorem isMarker_add (holder n : Node α) : (holder.add n).isMarker = holder.isMarker := by
  cases holder <;> rfl

mutual

theorem leaves_prune : (n : Node α) → n.prune.leaves = n.leaves
  | .run items cs => by simp [prune, leaves, leaves_pruneAll cs]
  | .marker .. => rfl
  | .group cs => by simp [prune, leaves, leaves_pruneAll cs]
  | .boolGroup cs => by simp [prune, leaves, leaves_pruneAll cs]
  | .call name cs => by simp [prune, leaves, leaves_pruneAll cs]

theorem leaves_pruneAll : (ns : List (Node α)) → leavesOf (pruneAll ns) = leavesOf ns
  | [] => rfl
  | n :: ns => by
    have first := leaves_prune n
    have rest := leaves_pruneAll ns
    unfold pruneAll
    split
    · next bare =>
      rw [leaves_of_isBare bare] at first
      simp [leavesOf, rest, ← first]
    · simp [leavesOf, first, rest]

end

end Node

namespace Cursor

variable {α : Type}

def leaves (c : Cursor α) : List α := Node.leavesOf c.outer.reverse ++ c.items

def Holding (outer : List (Node α)) : Prop := ∀ holder ∈ outer, holder.isMarker = false

theorem leaves_root {c : Cursor α} (h : Holding c.outer) : c.root.leaves = c.leaves := by
  have closing (outer : List (Node α)) (n : Node α) (holding : Holding outer) :
      (outer.foldl (fun n holder => holder.add n) n).leaves =
        Node.leavesOf outer.reverse ++ n.leaves := by
    induction outer generalizing n with
    | nil => rfl
    | cons holder outer ih =>
      have above : Holding outer := fun m member => holding m (List.mem_cons_of_mem _ member)
      rw [List.foldl_cons, ih _ above, Node.leaves_add (holding holder List.mem_cons_self)]
      simp [Node.leavesOf]
  rw [root, closing _ _ h]
  simp [run, leaves, Node.leaves, Node.leavesOf]

theorem leaves_scope? {n pair : Node α} {outer rest : List (Node α)} (holding : Holding outer)
    (h : scope? n outer = some (pair, rest)) :
    Node.leavesOf rest.reverse ++ pair.leaves = Node.leavesOf outer.reverse ++ n.leaves ∧
      pair.isMarker = false ∧ Holding rest := by
  induction outer generalizing n with
  | nil => cases h
  | cons holder outer ih =>
    have holds := holding holder List.mem_cons_self
    have above : Holding outer := fun m member => holding m (List.mem_cons_of_mem _ member)
    simp only [scope?] at h
    split at h
    · cases h
      exact ⟨by simp [Node.leaves_add holds, Node.leavesOf], by rw [Node.isMarker_add, holds], above⟩
    · obtain ⟨same, open_, further⟩ := ih above h
      exact ⟨by simp [same, Node.leaves_add holds, Node.leavesOf], open_, further⟩

theorem enter_cases (calls : α → Bool) (joined : Bool) (c : Cursor α) :
    (∃ items name, c.items = items ++ [name] ∧ calls name = true ∧
      c.enter calls joined = c.openNode items (.call name [])) ∨
    c.enter calls joined = c.openNode c.items (if joined then .boolGroup [] else .group []) := by
  cases last : c.items.getLast? with
  | none => exact Or.inr (by simp only [enter, last])
  | some name =>
    cases named : calls name with
    | true =>
      obtain ⟨items, whole⟩ := List.getLast?_eq_some_iff.1 last
      refine Or.inl ⟨items, name, whole, named, ?_⟩
      have before : c.items.dropLast = items := by rw [whole, List.dropLast_concat]
      simp only [enter, last, named, if_true, before]
    | false => exact Or.inr (by simp only [enter, last, named, Bool.false_eq_true, if_false])

theorem leaves_openNode {c : Cursor α} (holding : Holding c.outer) {items : List α} {n : Node α}
    (whole : items ++ n.leaves = c.items) (open_ : n.isMarker = false) :
    (c.openNode items n).leaves = c.leaves ∧ Holding (c.openNode items n).outer := by
  refine ⟨by simp [openNode, leaves, Node.leavesOf, Node.leaves, whole], ?_⟩
  intro holder member
  rcases List.mem_cons.1 member with rfl | member
  · exact open_
  · rcases List.mem_cons.1 member with rfl | member
    · rfl
    · exact holding holder member

theorem leaves_enter (calls : α → Bool) (joined : Bool) {c : Cursor α} (holding : Holding c.outer) :
    (c.enter calls joined).leaves = c.leaves ∧ Holding (c.enter calls joined).outer := by
  rcases enter_cases calls joined c with ⟨items, name, whole, -, entered⟩ | entered
  · rw [entered]
    exact leaves_openNode holding (by simp [Node.leaves, Node.leavesOf, whole]) rfl
  · rw [entered]
    cases joined
    · exact leaves_openNode holding (by simp [Node.leaves, Node.leavesOf]) rfl
    · exact leaves_openNode holding (by simp [Node.leaves, Node.leavesOf]) rfl

theorem leaves_leave? {c d : Cursor α} (holding : Holding c.outer) (h : c.leave? = some d) :
    d.leaves = c.leaves ∧ Holding d.outer := by
  unfold leave? at h
  split at h
  · next pair holder outer found =>
    cases h
    obtain ⟨same, open_, above⟩ := leaves_scope? holding found
    have holds := above holder List.mem_cons_self
    refine ⟨?_, ?_⟩
    · simp only [List.reverse_cons, Node.leavesOf_append, Node.leavesOf, List.append_nil] at same
      simp [leaves, Node.leavesOf, Node.leaves_add holds, ← List.append_assoc, same, run, Node.leaves]
    · intro m member
      rcases List.mem_cons.1 member with rfl | member
      · rw [Node.isMarker_add, holds]
      · exact above m (List.mem_cons_of_mem _ member)
  · cases h

theorem leaves_joint? {c d : Cursor α} {j : Junction} {word : Token} (holding : Holding c.outer)
    (h : c.joint? j word = some d) : d.leaves = c.leaves ∧ Holding d.outer := by
  obtain ⟨⟨pair, outer⟩, found, rfl⟩ := Option.map_eq_some_iff.1 h
  obtain ⟨same, open_, above⟩ := leaves_scope? holding found
  refine ⟨?_, ?_⟩
  · simp [leaves, Node.leavesOf, Node.leaves_add open_, Node.leaves, same, run]
  · intro m member
    rcases List.mem_cons.1 member with rfl | member
    · rw [Node.isMarker_add, open_]
    · exact above m member

theorem leaves_run? {calls : α → Bool} {c d : Cursor α} {es : List (Event α)}
    (holding : Holding c.outer) (h : c.run? calls es = some d) :
    d.leaves = c.leaves ++ Event.leaves es ∧ Holding d.outer := by
  -- Every event adds to what has been read; only a leaf adds an item.
  induction es generalizing c with
  | nil =>
    cases h
    exact ⟨by simp [Event.leaves], holding⟩
  | cons event es ih =>
    cases event with
    | enter =>
      obtain ⟨same, further⟩ := leaves_enter calls (Event.joinsAhead 0 es) holding
      simpa [Event.leaves, same] using ih further h
    | leave =>
      obtain ⟨next, found, h⟩ := Option.bind_eq_some_iff.1 h
      obtain ⟨same, further⟩ := leaves_leave? holding found
      simpa [Event.leaves, same] using ih further h
    | joint j word =>
      obtain ⟨next, found, h⟩ := Option.bind_eq_some_iff.1 h
      obtain ⟨same, further⟩ := leaves_joint? holding found
      simpa [Event.leaves, same] using ih further h
    | leaf item =>
      have read : (c.leaf item).leaves = c.leaves ++ [item] := by simp [leaf, leaves]
      simpa [Event.leaves, read] using ih (c := c.leaf item) holding h

end Cursor

namespace Event

variable {α : Type}

theorem leaves_enclose (events : List (Event α)) : leaves (enclose events) = leaves events := by
  unfold enclose
  split
  · split <;> simp [leaves]
  · simp [leaves]

end Event

theorem Node.leaves_ofEvents? {α : Type} {calls : α → Bool} {events : List (Event α)} {n : Node α}
    (h : ofEvents? calls events = some n) : n.leaves = Event.leaves events := by
  obtain ⟨c, found, rfl⟩ := Option.map_eq_some_iff.1 h
  have start : Cursor.Holding (Cursor.start : Cursor α).outer := nofun
  obtain ⟨same, holding⟩ := Cursor.leaves_run? start found
  rw [Node.leaves_prune, Cursor.leaves_root holding, same, Event.leaves_enclose]
  rfl

end WhereClause
