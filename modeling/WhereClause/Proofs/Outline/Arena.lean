import WhereClause.Proofs.Outline.Layout
import WhereClause.Proofs.Outline.Shape

namespace WhereClause

namespace Node

def isKept (n : Node Token) : Bool := !n.prune.isBare

theorem numbers_isKept_eq_nil {ns : List (Node Token)} {i : Nat} : numbers isKept i ns = [] ↔ pruneAll ns = [] := by
  induction ns generalizing i with
  | nil => exact iff_of_true rfl rfl
  | cons n ns ih =>
    cases bare : n.prune.isBare with
    | true => simp [numbers, isKept, pruneAll, bare, ih]
    | false => simp [numbers, isKept, pruneAll, bare]

theorem isBare_cell (n : Node Token) {ids : List Nat} {parent : Option Nat} (same : ids = [] ↔ n.children = []) :
    (n.cell ids parent).isBare = n.isBare := by
  rw [Cell.isBare, cell]
  cases n with
  | run items cs => cases items <;> cases cs <;> cases ids <;> simp_all [isBare, tokens, children]
  | marker j word => rfl
  | group cs => cases cs <;> cases ids <;> simp_all [isBare, tokens, children]
  | boolGroup cs => cases cs <;> cases ids <;> simp_all [isBare, tokens, children]
  | call name cs => rfl

theorem cell_prune (n : Node Token) (ids : List Nat) (parent : Option Nat) :
    n.prune.cell ids parent = n.cell ids parent := by cases n <;> rfl

theorem isBare_prune (n : Node Token) {i : Nat} {parent : Option Nat} :
    (n.cell (numbers isKept i n.children) parent).isBare = n.prune.isBare := by
  rw [← cell_prune]
  exact isBare_cell n.prune (by rw [children_prune, numbers_isKept_eq_nil])

end Node

namespace Arena

open Node

variable {a : Arena} {before after : List Cell} {i : Nat}

theorem exists_own {keep : Node Token → Bool} {parent : Option Nat} {n : Node Token} (start : before.length = i)
    (whole : a.cells = before ++ layout keep parent i n ++ after) :
    ∃ c, c = n.cell (numbers keep (i + 1) n.children) parent ∧ a.cell? i = some c ∧ (before ++ [c]).length = i + 1 ∧
      a.cells = before ++ [c] ++ layoutAll keep i (i + 1) n.children ++ after := by
  rw [layout_eq, List.append_assoc, List.cons_append] at whole
  refine ⟨_, rfl, ?_, ?_, ?_⟩
  · rw [← start]
    exact cell?_append (start ▸ whole)
  · rw [List.length_append, List.length_singleton, start]
  · rw [whole]
    simp

theorem filter_isBare {parent : Nat} {ns : List (Node Token)} (start : before.length = i)
    (whole : a.cells = before ++ layoutAll isKept parent i ns ++ after) :
    (numbers all i ns).filter (fun child => !a.isBare child) = numbers isKept i ns := by
  induction ns generalizing before i with
  | nil => rfl
  | cons n ns ih =>
    have cut := whole
    rw [layoutAll, ← List.append_assoc, List.append_assoc] at cut
    obtain ⟨c, rfl, lies, -⟩ := exists_own start cut
    have own : a.isBare i = n.prune.isBare := by rw [Arena.isBare, lies, Option.any_some, isBare_prune]
    have next : (before ++ layout isKept (some parent) i n).length = i + n.count := by
      rw [List.length_append, length_layout, start]
    have later := ih next (by rw [whole, layoutAll, ← List.append_assoc before])
    rw [numbers, if_pos rfl, numbers, List.filter_cons, own, later, isKept]

/-- Pruning at the cell of a node takes the bare nodes out of the lists of children from there on. The node has no more
    levels than there are nodes. -/
def Prunes (n : Node Token) : Prop :=
  ∀ ⦃levels : Nat⦄ ⦃a : Arena⦄ ⦃before after : List Cell⦄ ⦃i : Nat⦄ ⦃parent : Option Nat⦄, n.count ≤ levels →
    before.length = i → a.cells = before ++ layout all parent i n ++ after →
      prune? levels a i = some ⟨before ++ layout isKept parent i n ++ after⟩

theorem foldlM_prune? {ns : List (Node Token)} (prunes : ∀ n ∈ ns, Prunes n) {levels parent : Nat}
    (enough : countAll ns ≤ levels) (start : before.length = i)
    (whole : a.cells = before ++ layoutAll all parent i ns ++ after) :
    (numbers all i ns).foldlM (prune? levels) a = some ⟨before ++ layoutAll isKept parent i ns ++ after⟩ := by
  induction ns generalizing a before i with
  | nil => exact congrArg (fun cells => some (Arena.mk cells)) whole
  | cons n ns ih =>
    obtain ⟨first, rest⟩ := List.forall_mem_cons.1 prunes
    rw [countAll] at enough
    rw [layoutAll, ← List.append_assoc, List.append_assoc] at whole
    have own := first (Nat.le_of_add_right_le enough) start whole
    have next : (before ++ layout isKept (some parent) i n).length = i + n.count := by
      rw [List.length_append, length_layout, start]
    have later := ih rest (Nat.le_of_add_left_le enough) next (List.append_assoc _ _ _).symm
    rw [numbers, if_pos rfl, List.foldlM_cons, own, Option.bind_eq_bind, Option.bind_some, later, layoutAll,
      List.append_assoc before]

theorem prune?_layout (n : Node Token) : Prunes n := by
  induction n using Node.induction with
  | node n ih =>
    intro levels a before after i parent enough start whole
    rw [count_eq] at enough
    obtain ⟨levels, rfl⟩ := Nat.exists_eq_add_of_lt enough
    obtain ⟨c, own, here, next, children⟩ := exists_own start whole
    -- The children follow the cell of the node, and are pruned before their list is.
    have below := foldlM_prune? ih (Nat.le_add_right (countAll n.children) levels) next children
    have filtered := filter_isBare (a := ⟨before ++ [c] ++ layoutAll isKept i (i + 1) n.children ++ after⟩) next rfl
    have lies : (Arena.mk (before ++ [c] ++ layoutAll isKept i (i + 1) n.children ++ after)).cells =
        before ++ c :: (layoutAll isKept i (i + 1) n.children ++ after) := by simp
    have updated := update?_append lies
    have listed : c.children = numbers all (i + 1) n.children := by rw [own, cell]
    rw [start] at updated
    rw [prune?, here]
    simp only [Option.bind_eq_bind, Option.bind_some, listed, below, filtered, updated]
    rw [layout_eq, own]
    simp [cell]

mutual

/-- The cell is that of the node, its children are later cells, and they are those of the children of the node. -/
inductive Shows (a : Arena) : Option Nat → Nat → Node Token → Prop where
  | node {parent : Option Nat} {id : Nat} {ids : List Nat} {n : Node Token}
      (lies : a.cell? id = some (n.cell ids parent)) (later : (id :: ids).Pairwise (· < ·))
      (below : ShowsAll a id ids n.children) : Shows a parent id n

inductive ShowsAll (a : Arena) : Nat → List Nat → List (Node Token) → Prop where
  | nil {parent : Nat} : ShowsAll a parent [] []
  | cons {parent id : Nat} {ids : List Nat} {n : Node Token} {ns : List (Node Token)}
      (first : Shows a (some parent) id n) (rest : ShowsAll a parent ids ns) : ShowsAll a parent (id :: ids) (n :: ns)

end

theorem pairwise_numbers {keep : Node Token → Bool} (i : Nat) (ns : List (Node Token)) :
    (i :: numbers keep (i + 1) ns).Pairwise (· < ·) := by
  suffices h : ∀ i, (∀ k ∈ numbers keep i ns, i ≤ k) ∧ (numbers keep i ns).Pairwise (· < ·) from
    List.pairwise_cons.2 (h (i + 1))
  intro i
  induction ns generalizing i with
  | nil => exact ⟨nofun, List.Pairwise.nil⟩
  | cons n ns ih =>
    obtain ⟨above, later⟩ := ih (i + n.count)
    have further : ∀ k ∈ numbers keep (i + n.count) ns, i < k := by
      intro k member
      have bound := above k member
      rw [count_eq] at bound
      omega
    rw [numbers]
    split
    · exact ⟨List.forall_mem_cons.2 ⟨Nat.le_refl i, fun k member => Nat.le_of_lt (further k member)⟩,
        List.pairwise_cons.2 ⟨further, later⟩⟩
    · exact ⟨fun k member => Nat.le_of_lt (further k member), later⟩

theorem showsAll_layout {ns : List (Node Token)} (shows : ∀ n ∈ ns, ∀ {before after : List Cell} {i : Nat}
      {parent : Option Nat}, before.length = i → a.cells = before ++ layout isKept parent i n ++ after →
        a.Shows parent i n.prune)
    {parent : Nat} (start : before.length = i) (whole : a.cells = before ++ layoutAll isKept parent i ns ++ after) :
    a.ShowsAll parent (numbers isKept i ns) (pruneAll ns) := by
  induction ns generalizing before i with
  | nil => exact .nil
  | cons n ns ih =>
    obtain ⟨first, rest⟩ := List.forall_mem_cons.1 shows
    rw [layoutAll, ← List.append_assoc] at whole
    have next : (before ++ layout isKept (some parent) i n).length = i + n.count := by
      rw [List.length_append, length_layout, start]
    have later := ih rest next whole
    rw [numbers, pruneAll, isKept]
    rw [List.append_assoc] at whole
    cases bare : n.prune.isBare with
    | true => exact later
    | false => exact .cons (first start whole) later

theorem shows_layout (n : Node Token) {parent : Option Nat} (start : before.length = i)
    (whole : a.cells = before ++ layout isKept parent i n ++ after) : a.Shows parent i n.prune := by
  induction n using Node.induction generalizing before after i parent with
  | node n ih =>
    obtain ⟨c, rfl, lies, next, children⟩ := exists_own start whole
    have below := showsAll_layout (fun m member _ _ _ _ => ih m member) next children
    rw [← cell_prune] at lies
    exact .node lies (pairwise_numbers i n.children) (children_prune n ▸ below)

theorem exists_prune? {n : Node Token} (cells : a.cells = layout all none 0 n) :
    ∃ b, prune? a.cells.length a 0 = some b ∧ b.Shows none 0 n.prune := by
  have enough : n.count ≤ a.cells.length := by rw [cells, length_layout]
  have whole : a.cells = [] ++ layout all none 0 n ++ [] := by rw [cells, List.nil_append, List.append_nil]
  have pruned := prune?_layout n enough List.length_nil whole
  exact ⟨_, pruned, shows_layout n List.length_nil rfl⟩

theorem exists_ofTokens {ts : List Token} {n : Node Token} (h : Node.ofTokens ts = .ok n) :
    ∃ a, ofTokens ts = .ok (some a) ∧ a.Shows none 0 n := by
  obtain ⟨events, read, built⟩ := bind_eq_ok.1 h
  have found : Node.ofEvents? Token.namesFunction events = some n := by
    unfold Node.ofEvents at built
    split at built
    · next kept => rw [kept, Except.ok.inj built]
    · cases built
  have whole (a : Option Arena) (built : ofEvents? events = a) : ofTokens ts = .ok a := by
    rw [ofTokens, read, ← built]
    rfl
  cases events with
  | nil =>
    cases found
    exact ⟨.start, whole _ rfl, .node rfl (List.pairwise_singleton _ 0) .nil⟩
  | cons event es =>
    obtain ⟨c, run, rfl⟩ := Option.map_eq_some_iff.1 found
    obtain ⟨a, made, cells⟩ := run?_layout .start run
    obtain ⟨b, pruned, shown⟩ := exists_prune? cells
    refine ⟨b, whole _ ?_, shown⟩
    simp only [ofEvents?, List.isEmpty_cons, Bool.false_eq_true, if_false, made, Option.bind_eq_bind, Option.bind_some]
    exact pruned

end Arena

end WhereClause
