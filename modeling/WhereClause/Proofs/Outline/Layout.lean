import WhereClause.Outline.Arena
import WhereClause.Proofs.Outline.Leaves
import WhereClause.Proofs.Outline.Nest

namespace WhereClause

namespace Node

variable {α : Type}

mutual

def count : Node α → Nat
  | .run _ cs => countAll cs + 1
  | .marker .. => 1
  | .group cs => countAll cs + 1
  | .boolGroup cs => countAll cs + 1
  | .call _ cs => countAll cs + 1

def countAll : List (Node α) → Nat
  | [] => 0
  | n :: ns => n.count + countAll ns

end

def numbers (keep : Node α → Bool) (i : Nat) : List (Node α) → List Nat
  | [] => []
  | n :: ns => if keep n then i :: numbers keep (i + n.count) ns else numbers keep (i + n.count) ns

def cell (n : Node Token) (children : List Nat) (parent : Option Nat) : Cell :=
  ⟨n.kind, n.tokens id, children, parent⟩

mutual

/-- The cells of a node, whose number is `i`, and of all below it. All nodes have cells, also those that the lists of
    children leave out. -/
def layout (keep : Node Token → Bool) (parent : Option Nat) (i : Nat) : Node Token → List Cell
  | .run items cs =>
    cell (.run items cs) (numbers keep (i + 1) cs) parent :: layoutAll keep i (i + 1) cs
  | .marker j word => [cell (.marker j word) [] parent]
  | .group cs => cell (.group cs) (numbers keep (i + 1) cs) parent :: layoutAll keep i (i + 1) cs
  | .boolGroup cs => cell (.boolGroup cs) (numbers keep (i + 1) cs) parent :: layoutAll keep i (i + 1) cs
  | .call name cs => cell (.call name cs) (numbers keep (i + 1) cs) parent :: layoutAll keep i (i + 1) cs

def layoutAll (keep : Node Token → Bool) (parent i : Nat) : List (Node Token) → List Cell
  | [] => []
  | n :: ns => layout keep (some parent) i n ++ layoutAll keep parent (i + n.count) ns

end

theorem isScope_kind (n : Node α) : n.kind.isScope = n.isScope := by cases n <;> rfl

theorem count_eq (n : Node α) : n.count = countAll n.children + 1 := by cases n <;> rfl

variable {keep : Node Token → Bool} {parent : Option Nat} {i : Nat}

theorem layout_eq (n : Node Token) : layout keep parent i n =
    n.cell (numbers keep (i + 1) n.children) parent :: layoutAll keep i (i + 1) n.children := by cases n <;> rfl

theorem numbers_append (ns ms : List (Node Token)) :
    numbers keep i (ns ++ ms) = numbers keep i ns ++ numbers keep (i + countAll ns) ms := by
  induction ns generalizing i with
  | nil => rfl
  | cons n ns ih =>
    simp only [List.cons_append, numbers, countAll, ih, Nat.add_assoc]
    split <;> rfl

theorem layoutAll_append (p : Nat) (ns ms : List (Node Token)) :
    layoutAll keep p i (ns ++ ms) = layoutAll keep p i ns ++ layoutAll keep p (i + countAll ns) ms := by
  induction ns generalizing i with
  | nil => rfl
  | cons n ns ih => rw [List.cons_append, layoutAll, layoutAll, countAll, ih, List.append_assoc, Nat.add_assoc]

mutual

theorem length_layout (parent : Option Nat) (i : Nat) : (n : Node Token) → (layout keep parent i n).length = n.count
  | .run _ cs => congrArg (· + 1) (length_layoutAll i (i + 1) cs)
  | .marker .. => rfl
  | .group cs => congrArg (· + 1) (length_layoutAll i (i + 1) cs)
  | .boolGroup cs => congrArg (· + 1) (length_layoutAll i (i + 1) cs)
  | .call _ cs => congrArg (· + 1) (length_layoutAll i (i + 1) cs)

theorem length_layoutAll (parent i : Nat) :
    (ns : List (Node Token)) → (layoutAll keep parent i ns).length = countAll ns
  | [] => rfl
  | n :: ns => by
    rw [layoutAll, List.length_append, length_layout, length_layoutAll parent (i + n.count) ns, countAll]

end

theorem children_add {n : Node α} (holds : n.isMarker = false) (m : Node α) :
    (n.add m).children = n.children ++ [m] := by
  cases n with
  | marker j word => cases holds
  | _ => rfl

abbrev all : Node Token → Bool := fun _ => true

theorem layout_add {n : Node Token} (holds : n.isMarker = false) (m : Node Token) :
    layout all parent i (n.add m) =
      n.cell (numbers all (i + 1) n.children ++ [i + n.count]) parent :: layoutAll all i (i + 1) n.children ++
        layout all (some i) (i + n.count) m := by
  have next : i + 1 + countAll n.children = i + n.count := by
    rw [count_eq]
    omega
  have same (ids : List Nat) : (n.add m).cell ids parent = n.cell ids parent := by cases n <;> rfl
  rw [layout_eq, children_add holds, numbers_append, layoutAll_append, next, same]
  simp [numbers, layoutAll]

end Node

namespace Cursor

open Node

mutual

/-- The cells of the open nodes around a node and of what they hold so far, from the root on. Each has the next one,
    or the node, for its last child. -/
def above : List (Node Token) → List Cell
  | [] => []
  | holder :: outer =>
    above outer ++
      holder.cell (numbers all ((above outer).length + 1) holder.children ++ [(above outer).length + holder.count])
        (parentOf outer) ::
      layoutAll all (above outer).length ((above outer).length + 1) holder.children

def parentOf : List (Node Token) → Option Nat
  | [] => none
  | _ :: outer => some (above outer).length

end

def cellsOf (n : Node Token) (outer : List (Node Token)) : List Cell :=
  above outer ++ layout all (parentOf outer) (above outer).length n

theorem length_above_cons (holder : Node Token) (outer : List (Node Token)) :
    (above (holder :: outer)).length = (above outer).length + holder.count := by
  rw [above, List.length_append, List.length_cons, length_layoutAll, count_eq]

theorem cellsOf_add {holder : Node Token} (holds : holder.isMarker = false) (n : Node Token)
    (outer : List (Node Token)) : cellsOf n (holder :: outer) = cellsOf (holder.add n) outer := by
  rw [cellsOf, cellsOf, layout_add holds, parentOf, length_above_cons, above, List.append_assoc]

theorem cellsOf_root {outer : List (Node Token)} (holding : Holding outer) (n : Node Token) :
    cellsOf n outer = layout all none 0 (outer.foldl (fun n holder => holder.add n) n) := by
  induction outer generalizing n with
  | nil => rfl
  | cons holder outer ih =>
    obtain ⟨holds, above⟩ := List.forall_mem_cons.1 holding
    rw [cellsOf_add holds, ih above, List.foldl_cons]

theorem length_cellsOf (n : Node Token) (outer : List (Node Token)) :
    (cellsOf n outer).length = (above (n :: outer)).length := by
  rw [cellsOf, List.length_append, length_layout, length_above_cons]

end Cursor

namespace Arena

open Node Cursor

variable {a : Arena}

theorem cell?_append {before after : List Cell} {c : Cell} (whole : a.cells = before ++ c :: after) :
    a.cell? before.length = some c := by
  rw [cell?, whole]
  simp

theorem update?_append {before after : List Cell} {c : Cell} (whole : a.cells = before ++ c :: after)
    (change : Cell → Cell) : a.update? before.length change = some ⟨before ++ change c :: after⟩ := by
  have within : before.length < a.cells.length := by
    rw [whole, List.length_append, List.length_cons]
    omega
  have modified := List.modifyTailIdx_add (List.modifyHead change) 0 before (c :: after)
  rw [update?, if_pos within, whole]
  exact congrArg (fun cells => some (Arena.mk cells)) modified

variable {n : Node Token} {outer : List (Node Token)}

theorem cell?_cellsOf (whole : a.cells = cellsOf n outer) : a.cell? (above outer).length =
    some (n.cell (numbers all ((above outer).length + 1) n.children) (parentOf outer)) := by
  rw [cellsOf, layout_eq] at whole
  exact cell?_append whole

theorem add?_cellsOf (whole : a.cells = cellsOf n outer) {m : Node Token} (bare : m.children = []) :
    a.add? m.kind (above outer).length (m.tokens id) =
      some (⟨cellsOf m (n :: outer)⟩, (above (n :: outer)).length) := by
  have lies : a.cells = above outer ++
      n.cell (numbers all ((above outer).length + 1) n.children) (parentOf outer) ::
        layoutAll all (above outer).length ((above outer).length + 1) n.children := by
    rw [whole, cellsOf, layout_eq]
  have next : a.cells.length = (above (n :: outer)).length := by rw [whole, length_cellsOf]
  have added : (Arena.mk (a.cells ++ [⟨m.kind, m.tokens id, [], some (above outer).length⟩])).cells =
      above outer ++ n.cell (numbers all ((above outer).length + 1) n.children) (parentOf outer) ::
        (layoutAll all (above outer).length ((above outer).length + 1) n.children ++
          [⟨m.kind, m.tokens id, [], some (above outer).length⟩]) := by
    rw [lies, List.append_assoc, List.cons_append]
  rw [add?, update?_append added, next]
  refine congrArg (fun cells => some (Arena.mk cells, _)) ?_
  rw [cellsOf, layout_eq, bare, parentOf, length_above_cons, above, List.append_assoc, List.cons_append]
  rfl

/-- The arena has the cells of the outline so far, and the cursor stands at the cell of its run. -/
structure Lays (a : Arena) (cursor : Nat) (c : Cursor Token) : Prop where
  cells : a.cells = cellsOf c.run c.outer
  cursor : cursor = (above c.outer).length
  holding : Holding c.outer

/-- The walk from a cell ends at another, after no more links than the rank of the cell: each link leads to a lower
    one. -/
def Ends (link : Nat → Option Nat) (rank : Nat → Nat) (id last : Nat) : Prop :=
  ∀ cells, rank id < cells → last? link cells id = some last

theorem Ends.stop {link : Nat → Option Nat} {rank : Nat → Nat} {id : Nat} (none : link id = none) :
    Ends link rank id id
  | 0, enough => absurd enough (Nat.not_lt_zero _)
  | cells + 1, _ => by rw [last?, none]

theorem Ends.step {link : Nat → Option Nat} {rank : Nat → Nat} {id next last : Nat} (leads : link id = some next)
    (lower : rank next < rank id) (ends : Ends link rank next last) : Ends link rank id last
  | 0, enough => absurd enough (Nat.not_lt_zero _)
  | cells + 1, enough => by
    rw [last?, leads]
    exact ends cells (Nat.lt_of_lt_of_le lower (Nat.le_of_lt_succ enough))

theorem scopeLink_eq {id : Nat} {c : Cell} (lies : a.cell? id = some c) :
    a.scopeLink id = if c.kind.isScope then none else c.parent := by
  rw [scopeLink, lies]

theorem scopeLink_cellsOf (whole : a.cells = cellsOf n outer) :
    a.scopeLink (above outer).length = if n.isScope then none else parentOf outer := by
  rw [scopeLink_eq (cell?_cellsOf whole), ← isScope_kind]
  rfl

theorem ends_scopeLink {pair : Node Token} {rest : List (Node Token)} (holding : Holding outer)
    (inside : n.isScope = false) (found : Cursor.scope? n outer = some (pair, rest))
    (whole : a.cells = cellsOf n outer) :
    Ends a.scopeLink (fun id => id) (above outer).length (above rest).length ∧ a.cells = cellsOf pair rest ∧
      pair.isScope = true := by
  induction outer generalizing n with
  | nil => cases found
  | cons holder outer ih =>
    obtain ⟨holds, further⟩ := List.forall_mem_cons.1 holding
    have link : a.scopeLink (above (holder :: outer)).length = some (above outer).length := by
      rw [scopeLink_cellsOf whole, inside]
      rfl
    have lower : (above outer).length < (above (holder :: outer)).length := by
      rw [length_above_cons, count_eq]
      omega
    rw [cellsOf_add holds] at whole
    simp only [Cursor.scope?] at found
    split at found
    · next scope =>
      cases found
      have scope : (holder.add n).isScope = true := (Nest.isScope_add holder n).trans scope
      refine ⟨.step link lower (.stop ?_), whole, scope⟩
      rw [scopeLink_cellsOf whole, scope]
      rfl
    · next beside =>
      have beside : (holder.add n).isScope = false := (Nest.isScope_add holder n).trans (by simpa using beside)
      obtain ⟨ends, whole, scope⟩ := ih further beside found whole
      exact ⟨.step link lower ends, whole, scope⟩

theorem scope?_cellsOf {pair : Node Token} {rest : List (Node Token)} (holding : Holding outer)
    (inside : n.isScope = false) (found : Cursor.scope? n outer = some (pair, rest))
    (whole : a.cells = cellsOf n outer) :
    a.scope? (above outer).length = some (some (above rest).length) ∧ a.cells = cellsOf pair rest := by
  have within : (above outer).length < a.cells.length := by
    rw [whole, length_cellsOf, length_above_cons, count_eq]
    omega
  obtain ⟨ends, whole, scope⟩ := ends_scopeLink holding inside found whole
  have kind : (pair.cell (numbers all ((above rest).length + 1) pair.children) (parentOf rest)).kind.isScope = true :=
    (isScope_kind pair).trans scope
  refine ⟨?_, whole⟩
  simp only [scope?, ends _ within, cell?_cellsOf whole, Option.bind_eq_bind, Option.bind_some, kind]
  rfl

theorem update?_run {items : List Token} (whole : a.cells = cellsOf (.run items []) outer)
    (change : List Token → List Token) :
    a.update? (above outer).length (fun c => { c with tokens := change c.tokens }) =
      some ⟨cellsOf (.run (change items) []) outer⟩ := by
  have lies (items : List Token) : cellsOf (.run items []) outer =
      above outer ++ [⟨.run, items, [], parentOf outer⟩] := by
    simp [cellsOf, layout, layoutAll, cell, numbers, kind, tokens]
  rw [lies] at whole
  rw [update?_append whole, lies]

theorem Lays.start : Lays .start 0 Cursor.start := ⟨rfl, rfl, nofun⟩

variable {c d : Cursor Token} {i : Nat}

theorem Lays.leaf (h : Lays a i c) (t : Token) : ∃ b, a.leaf? i t = some b ∧ Lays b i (c.leaf t) := by
  obtain ⟨whole, rfl, holding⟩ := h
  exact ⟨_, update?_run whole (· ++ [t]), rfl, rfl, holding⟩

theorem lays_openNode {items : List Token} (holding : Holding c.outer)
    (whole : a.cells = cellsOf (.run items []) c.outer) (n : Node Token) (bare : n.children = [])
    (holds : n.isMarker = false) :
    ∃ b i, (a.add? n.kind (above c.outer).length (n.tokens id) >>= fun added => added.1.add? .run added.2 []) =
      some (b, i) ∧ Lays b i (c.openNode items n) := by
  have inner := add?_cellsOf (a := ⟨cellsOf n (.run items [] :: c.outer)⟩) rfl (m := .run [] []) rfl
  refine ⟨_, _, ?_, rfl, rfl, ?_⟩
  · rw [add?_cellsOf whole bare]
    exact inner
  · exact List.forall_mem_cons.2 ⟨holds, List.forall_mem_cons.2 ⟨rfl, holding⟩⟩

theorem Lays.enter (h : Lays a i c) (joined : Bool) :
    ∃ b j, a.enter? joined i = some (b, j) ∧ Lays b j (c.enter Token.namesFunction joined) := by
  obtain ⟨whole, rfl, holding⟩ := h
  have run := cell?_cellsOf whole
  have own : (c.run.cell (numbers all ((above c.outer).length + 1) c.run.children) (parentOf c.outer)).tokens =
      c.items := List.map_id c.items
  rw [enter?, run, Nest.enter_eq_openNode, Nest.paired]
  simp only [Option.bind_eq_bind, Option.bind_some, own]
  cases named : c.items.getLast?.filter Token.namesFunction with
  | some name =>
    have shorter := update?_run whole List.dropLast
    simp only [shorter, Option.bind_some]
    exact lays_openNode holding rfl (.call name []) rfl rfl
  | none =>
    cases joined
    · exact lays_openNode holding whole (.group []) rfl rfl
    · exact lays_openNode holding whole (.boolGroup []) rfl rfl

theorem Lays.leave (h : Lays a i c) (left : c.leave? = some d) :
    ∃ b j, a.leave? i = some (b, j) ∧ Lays b j d := by
  obtain ⟨whole, rfl, holding⟩ := h
  have kept := (leaves_leave? holding left).2
  unfold Cursor.leave? at left
  split at left
  · next pair holder outer found =>
    cases left
    obtain ⟨scope, whole⟩ := scope?_cellsOf holding rfl found whole
    have holds := (List.forall_mem_cons.1 (leaves_scope? holding found).2.2).1
    have beside := add?_cellsOf (whole.trans (cellsOf_add holds pair outer)) (m := .run [] []) rfl
    refine ⟨_, _, ?_, rfl, rfl, kept⟩
    simp only [leave?, scope, cell?_cellsOf whole, Option.bind_eq_bind, Option.bind_some]
    exact beside
  · cases left

theorem Lays.joint (h : Lays a i c) {j : Junction} {word : Token} (joined : c.joint? j word = some d) :
    ∃ b k, a.joint? i word = some (b, k) ∧ Lays b k d := by
  obtain ⟨whole, rfl, holding⟩ := h
  have kept := (leaves_joint? holding joined).2
  obtain ⟨⟨pair, outer⟩, found, rfl⟩ := Option.map_eq_some_iff.1 joined
  obtain ⟨scope, whole⟩ := scope?_cellsOf holding rfl found whole
  have holds := (leaves_scope? holding found).2.1
  have marked : a.add? .marker (above outer).length [word] =
      some (⟨cellsOf (.marker j word) (pair :: outer)⟩, (above (pair :: outer)).length) :=
    add?_cellsOf whole (m := .marker j word) rfl
  have further := add?_cellsOf (a := ⟨cellsOf (.marker j word) (pair :: outer)⟩) (cellsOf_add holds _ outer)
    (m := .run [] []) rfl
  refine ⟨_, _, ?_, rfl, rfl, kept⟩
  simp only [joint?, scope, marked, Option.bind_eq_bind, Option.bind_some, Option.getD_some]
  exact further

/-- The arena is built as the outline is, cell for node. -/
theorem run?_layout (h : Lays a i c) {es : List (Event Token)} (run : c.run? Token.namesFunction es = some d) :
    ∃ b, a.run? i es = some b ∧ b.cells = layout all none 0 d.root := by
  induction es generalizing a i c with
  | nil =>
    cases run
    exact ⟨a, rfl, h.cells.trans (cellsOf_root h.holding d.run)⟩
  | cons event es ih =>
    cases event with
    | enter =>
      obtain ⟨b, j, entered, later⟩ := h.enter (Event.joinsAhead 0 es)
      rw [Arena.run?, entered]
      exact ih later run
    | leave =>
      obtain ⟨next, left, run⟩ := Option.bind_eq_some_iff.1 run
      obtain ⟨b, j, left, later⟩ := h.leave left
      rw [Arena.run?, left]
      exact ih later run
    | joint junction word =>
      obtain ⟨next, joined, run⟩ := Option.bind_eq_some_iff.1 run
      obtain ⟨b, j, joined, later⟩ := h.joint joined
      rw [Arena.run?, joined]
      exact ih later run
    | leaf t =>
      obtain ⟨b, read, later⟩ := h.leaf t
      rw [Arena.run?, read]
      exact ih later run

end Arena

end WhereClause
