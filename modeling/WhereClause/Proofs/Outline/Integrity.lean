import WhereClause.Proofs.Outline.Shape
import WhereClause.Proofs.Outline.Walk

namespace WhereClause

namespace Arena

open Node

def parts (a : Arena) (c : Cell) : List (List Nat) := c.children.splitOnP a.isMarker

/-- Cells in the order in which they were added, as the walks need them to be linked. -/
structure Intact (a : Arena) : Prop where
  root : ∃ c, a.Reaches [] 0 c ∧ c.kind = .run ∧ c.parent = none
  reached : ∀ {p id}, a.follow? 0 p = some id → ∃ c, a.Reaches p id c
  onePath : ∀ {p q id}, a.follow? 0 p = some id → a.follow? 0 q = some id → p = q
  once : ∀ {p id c}, a.Reaches p id c → c.children.Nodup
  child : ∀ {p id c}, a.Reaches p id c → ∀ k ∈ c.children, id < k ∧ ∃ d, a.cell? k = some d ∧ d.parent = some id
  orphan : ∀ {p id c}, a.Reaches p id c → c.parent = none → p = []
  filled : ∀ {p id c}, a.Reaches p id c → p ≠ [] → c.isBare = false
  pair : ∀ {p id c}, a.Reaches p id c → c.kind.isScope = true →
    ∃ k d, c.parent = some k ∧ a.cell? k = some d ∧ d.kind = .run
  group : ∀ {p id c}, a.Reaches p id c → c.kind = .group → c.tokens = [] ∧ ∃ only, c.children = [only]
  parted : ∀ {p id c}, a.Reaches p id c → a.hasMarkers c = true → ∀ part ∈ a.parts c, part.length ≤ 1
  elided : ∀ {p id}, a.follow? 0 p = some id → ∃ q k, a.elided? id = some k ∧ a.follow? 0 (p ++ q) = some k
  dominant : ∀ {p id}, a.follow? 0 p = some id → ∃ q k, a.dominant? id = some k ∧ a.follow? 0 (p ++ q) = some k
  scope : ∀ {p id}, a.follow? 0 p = some id →
    ∃ found, a.scope? id = some found ∧ ∀ k ∈ found, ∃ q, q <+: p ∧ a.follow? 0 q = some k
  -- A pair is read part by part for its own joining words, or for those of the cell that it leads down to.
  binary : ∀ {p id c k d}, a.Reaches p id c → a.dominant? id = some k → a.cell? k = some d →
    c.kind = .boolGroup ∨ a.hasMarkers d = true → ∀ part ∈ a.parts d, part.length ≤ 1

variable {a : Arena} {root m : Node Token} {p : Path} {up : Option Nat} {k : Nat}

theorem length_le_of_mem_splitOnP {α : Type} {sep : α → Bool} {xs : List α}
    (parted : xs.IsChain fun x y => sep x = true ∨ sep y = true) : ∀ part ∈ xs.splitOnP sep, part.length ≤ 1 := by
  induction xs with
  | nil => simp
  | cons x xs ih =>
    have later := ih parted.tail
    rw [List.splitOnP_cons_eq_if_modifyHead]
    split
    · exact List.forall_mem_cons.2 ⟨Nat.zero_le 1, later⟩
    · next own =>
      cases xs with
      | nil => simp
      | cons y ys =>
        have next : sep y = true := (List.isChain_cons_cons.1 parted).1.resolve_left own
        rw [List.splitOnP_cons_eq_if_modifyHead, if_pos next] at later ⊢
        exact List.forall_mem_cons.2 ⟨Nat.le_refl 1, (List.forall_mem_cons.1 later).2⟩

theorem ShowsAll.parted {ids : List Nat} {up : Option Nat} (h : a.ShowsAll k ids m.children)
    (parted : Parted m.children) : ∀ part ∈ a.parts (m.cell ids up), part.length ≤ 1 := by
  have signs : (m.children.map Node.isMarker).IsChain fun x y => x = true ∨ y = true :=
    (List.isChain_map Node.isMarker).2 parted
  rw [← h.map_isMarker] at signs
  exact length_le_of_mem_splitOnP ((List.isChain_map a.isMarker).1 signs)

theorem dominantLink_of_hasMarkers {c : Cell} (lies : a.cell? k = some c) (markers : a.hasMarkers c = true) :
    a.dominantLink k = none := by
  rw [dominantLink_eq lies]
  obtain ⟨kind, tokens, children, parent⟩ := c
  rcases tokens with - | -
  · rcases children with - | ⟨only, - | -⟩
    · rfl
    · have marked : a.isMarker only = true := by simpa [Arena.hasMarkers] using markers
      simp [marked]
    · rfl
  · rfl

theorem dominant?_of_hasMarkers {c : Cell} (lies : a.cell? k = some c) (markers : a.hasMarkers c = true) :
    a.dominant? k = some k := by
  have ends : Ends a.dominantLink a.after k k := .stop (dominantLink_of_hasMarkers lies markers)
  exact ends _ (after_lt lies)

section

variable {c : Cell} (h : a.Shows none 0 root)

include h

theorem Shows.exists_dominant? (found : a.follow? 0 p = some k) :
    ∃ q top, a.dominant? k = some top ∧ a.follow? 0 (p ++ q) = some top := by
  obtain ⟨up, m, showsAt⟩ := h.exists_showsAt found
  obtain ⟨top, ends, path⟩ := showsAt.shows.dominant?
  exact ⟨_, top, ends, by rw [follow?_append, found, Option.bind_some, path]⟩

variable (shaped : ∀ n ∈ root.nodes, n.Shaped)

include shaped

theorem Shows.exists_run (run : root.kind = .run) (r : a.Reaches p k c) (pair : c.kind.isScope = true) :
    ∃ j d, c.parent = some j ∧ a.cell? j = some d ∧ d.kind = .run := by
  obtain ⟨up, m, ids, showsAt, rfl, -, -⟩ := h.exists_of_reaches r
  have scope : m.isScope = true := (isScope_kind m).symm.trans pair
  cases showsAt with
  | root =>
    rw [← isScope_kind, run] at scope
    cases scope
  | @child _ _ j _ _ _ holder _ above lies later listed among shown =>
    have held := shaped holder above.mem_nodes
    cases holder with
    | run items cs => exact ⟨j, _, rfl, lies, rfl⟩
    | marker => cases among
    | _ =>
      rw [(held.enclosed rfl).runs m among] at scope
      cases scope

theorem Shows.exists_only (r : a.Reaches p k c) (kind : c.kind = .group) :
    c.tokens = [] ∧ ∃ only, c.children = [only] := by
  obtain ⟨up, m, ids, showsAt, rfl, -, below⟩ := h.exists_of_reaches r
  cases shaped m showsAt.mem_nodes with
  | group only =>
    cases below with
    | cons first rest =>
      cases rest
      exact ⟨rfl, _, rfl⟩
  | _ => cases kind

theorem Shows.hasMarkers_of_boolGroup (r : a.Reaches p k c) (kind : c.kind = .boolGroup) : a.hasMarkers c = true := by
  obtain ⟨up, m, ids, showsAt, rfl, -, below⟩ := h.exists_of_reaches r
  cases shaped m showsAt.mem_nodes with
  | boolGroup joined enclosed => exact below.hasMarkers.trans joined
  | _ => cases kind

theorem Shows.parted (r : a.Reaches p k c) (markers : a.hasMarkers c = true) :
    ∀ part ∈ a.parts c, part.length ≤ 1 := by
  obtain ⟨up, m, ids, showsAt, rfl, -, below⟩ := h.exists_of_reaches r
  rw [below.hasMarkers] at markers
  exact below.parted ((shaped m showsAt.mem_nodes).parted markers)

theorem Shows.intact (run : root.kind = .run) (filled : ∀ n ∈ nodesOf root.children, n.isBare = false) :
    a.Intact where
  root := by
    cases h with
    | node lies later below => exact ⟨_, ⟨rfl, lies⟩, run, rfl⟩
  reached found := by
    obtain ⟨up, m, showsAt⟩ := h.exists_showsAt found
    obtain ⟨c, lies⟩ := showsAt.shows.exists_cell?
    exact ⟨c, found, lies⟩
  onePath found found' := by
    obtain ⟨up, m, showsAt⟩ := h.exists_showsAt found
    obtain ⟨up', m', showsAt'⟩ := h.exists_showsAt found'
    exact showsAt.path_eq showsAt'
  once r := by
    obtain ⟨up, m, ids, -, rfl, later, -⟩ := h.exists_of_reaches r
    exact nodup_of_later later
  child r k listed := by
    obtain ⟨up, m, ids, -, rfl, later, below⟩ := h.exists_of_reaches r
    obtain ⟨place, own⟩ := List.mem_iff_getElem?.1 listed
    obtain ⟨m', -, shown⟩ := below.exists_getElem? own
    cases shown with
    | node lies _ _ => exact ⟨(List.pairwise_cons.1 later).1 k listed, _, lies, rfl⟩
  orphan r alone := by
    obtain ⟨up, m, ids, showsAt, rfl, -, -⟩ := h.exists_of_reaches r
    cases alone
    cases showsAt with
    | root => rfl
  filled r below_root := by
    obtain ⟨up, m, ids, showsAt, rfl, -, below⟩ := h.exists_of_reaches r
    cases showsAt with
    | root => exact absurd rfl below_root
    | child above lies later listed among shown =>
      exact below.isBare.trans (filled m (mem_nodesOf_children above.mem_nodes among))
  pair := h.exists_run shaped run
  group := h.exists_only shaped
  parted := h.parted shaped
  elided found := by
    obtain ⟨up, m, showsAt⟩ := h.exists_showsAt found
    obtain ⟨k, ends, path⟩ := showsAt.shows.elided?
    exact ⟨_, k, ends, by rw [follow?_append, found, Option.bind_some, path]⟩
  dominant := h.exists_dominant?
  scope found := by
    obtain ⟨up, m, showsAt⟩ := h.exists_showsAt found
    obtain ⟨found, scopes, above⟩ := showsAt.exists_scopes
    exact ⟨found, scopes.scope? showsAt.lt_length, above⟩
  binary {p id c k d} r ends lies binary := by
    rcases binary with kind | markers
    · have markers := h.hasMarkers_of_boolGroup shaped r kind
      cases ends.symm.trans (dominant?_of_hasMarkers r.cell markers)
      cases lies.symm.trans r.cell
      exact h.parted shaped r markers
    · obtain ⟨q, top, ends', reached⟩ := h.exists_dominant? r.follows
      cases ends.symm.trans ends'
      exact h.parted shaped ⟨reached, lies⟩ markers

end

/-- The arena that is built for tokens shows their outline: it is intact, and the walks over it lead to where the rows
    of the outline say. -/
theorem ofTokens_intact {ts : List Token} {n : Node Token} (h : Node.ofTokens ts = .ok n) :
    ∃ a, ofTokens ts = .ok (some a) ∧ a.Shows none 0 n ∧ (∀ row ∈ n.rows, ∃ id c, a.Tells row id c) ∧ a.Intact := by
  obtain ⟨a, built, shown⟩ := exists_ofTokens h
  obtain ⟨run, shaped, filled⟩ := shaped_ofTokens h
  exact ⟨a, built, shown, shown.tells, shown.intact shaped run filled⟩

theorem ofTokens_intact_call :
    ∃ n, Node.ofTokens (Token.scan .filter "length(trim(Name)) eq 3 and (a or () b)").tokens = .ok n ∧
      ∃ a, ofTokens (Token.scan .filter "length(trim(Name)) eq 3 and (a or () b)").tokens = .ok (some a) ∧
        a.Shows none 0 n ∧ (∀ row ∈ n.rows, ∃ id c, a.Tells row id c) ∧ a.Intact := by
  cases built : Node.ofTokens (Token.scan .filter "length(trim(Name)) eq 3 and (a or () b)").tokens with
  | error fault =>
    have accepted : (Node.ofTokens (Token.scan .filter
      "length(trim(Name)) eq 3 and (a or () b)").tokens).toBool = true := by decide +kernel
    rw [built] at accepted
    cases accepted
  | ok n => exact ⟨n, rfl, ofTokens_intact built⟩

end Arena

end WhereClause
