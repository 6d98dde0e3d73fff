import WhereClause.Proofs.Outline.Arena

namespace WhereClause

namespace Arena

open Node

structure Reaches (a : Arena) (path : Path) (id : Nat) (c : Cell) : Prop where
  follows : a.follow? 0 path = some id
  cell : a.cell? id = some c

variable {a : Arena} {parent : Option Nat} {i : Nat} {n : Node Token}

theorem follow?_append (p q : Path) : a.follow? i (p ++ q) = (a.follow? i p).bind fun k => a.follow? k q := by
  induction p generalizing i with
  | nil => rfl
  | cons place p ih =>
    rw [List.cons_append, follow?, follow?]
    cases a.cell? i with
    | none => rfl
    | some c =>
      cases listed : c.children[place]? with
      | none => simp [listed]
      | some k => simp [listed, ih]

theorem ShowsAll.length {ids : List Nat} {ns : List (Node Token)} (h : a.ShowsAll i ids ns) :
    ids.length = ns.length := by
  induction ns generalizing ids with
  | nil =>
    cases h
    rfl
  | cons n ns ih =>
    cases h with
    | cons first rest => rw [List.length_cons, List.length_cons, ih rest]

theorem ShowsAll.exists_getElem? {ids : List Nat} {ns : List (Node Token)} (h : a.ShowsAll i ids ns) {place k : Nat}
    (listed : ids[place]? = some k) : ∃ m ∈ ns, a.Shows (some i) k m := by
  induction ns generalizing ids place with
  | nil =>
    cases h
    cases listed
  | cons n ns ih =>
    cases h with
    | cons first rest =>
      cases place with
      | zero =>
        cases listed
        exact ⟨n, List.mem_cons_self, first⟩
      | succ place =>
        obtain ⟨m, among, shown⟩ := ih rest listed
        exact ⟨m, List.mem_cons_of_mem n among, shown⟩

theorem Shows.isMarker (h : a.Shows parent i n) : a.isMarker i = n.isMarker := by
  cases h with
  | node lies later below =>
    rw [Arena.isMarker, lies]
    cases n <;> rfl

theorem ShowsAll.map_isMarker {ids : List Nat} {ns : List (Node Token)} (h : a.ShowsAll i ids ns) :
    ids.map a.isMarker = ns.map Node.isMarker := by
  induction ns generalizing ids with
  | nil =>
    cases h
    rfl
  | cons n ns ih =>
    cases h with
    | cons first rest => rw [List.map_cons, List.map_cons, first.isMarker, ih rest]

theorem lt_length_of_cell? {c : Cell} (lies : a.cell? i = some c) : i < a.cells.length :=
  (List.getElem?_eq_some_iff.1 lies).1

def after (a : Arena) (id : Nat) : Nat := a.cells.length - 1 - id

theorem after_lt {c : Cell} (lies : a.cell? i = some c) : a.after i < a.cells.length := by
  have within := lt_length_of_cell? lies
  rw [after]
  omega

theorem Shows.exists_cell? (h : a.Shows parent i n) : ∃ c, a.cell? i = some c := by
  cases h with
  | node lies later below => exact ⟨_, lies⟩

inductive Steps (a : Arena) (link : Nat → Option Nat) (path : Node Token → Path) (i : Nat) (n : Node Token) : Prop where
  | stop (ends : link i = none) (own : path n = [])
  | down {c : Cell} {k : Nat} {m : Node Token} (leads : link i = some k) (later : i < k) (lies : a.cell? i = some c)
      (only : c.children = [k]) (child : n.children = [m]) (shown : a.Shows (some i) k m) (own : path n = 0 :: path m)

theorem Shows.exists_ends {link : Nat → Option Nat} {path : Node Token → Path}
    (steps : ∀ {parent i n}, a.Shows parent i n → a.Steps link path i n) (h : a.Shows parent i n) :
    ∃ k, Ends link a.after i k ∧ a.follow? i (path n) = some k := by
  induction n using Node.induction generalizing parent i with
  | node n ih =>
    cases steps h with
    | stop ends own =>
      rw [own]
      exact ⟨i, .stop ends, rfl⟩
    | @down c k m leads later lies only child shown own =>
      obtain ⟨last, ends, reached⟩ := ih m (child ▸ List.mem_singleton_self m) shown
      have fewer : a.after k < a.after i := by
        obtain ⟨c, lies⟩ := shown.exists_cell?
        have within := lt_length_of_cell? lies
        rw [after, after]
        omega
      rw [own, follow?, lies, Option.bind_eq_bind, Option.bind_some, only]
      exact ⟨last, .step leads fewer ends, reached⟩

theorem Shows.steps_elideLink (h : a.Shows parent i n) : a.Steps a.elideLink elidedPath i n := by
  cases h with
  | node lies later below =>
    cases n with
    | run items cs =>
      cases items with
      | cons item items => exact .stop (by rw [elideLink, lies]; rfl) rfl
      | nil =>
        cases below with
        | nil => exact .stop (by rw [elideLink, lies]; rfl) rfl
        | cons first rest =>
          cases rest with
          | nil =>
            have lower := List.rel_of_pairwise_cons later List.mem_cons_self
            exact .down (by rw [elideLink, lies]; rfl) lower lies rfl rfl first rfl
          | cons => exact .stop (by rw [elideLink, lies]; rfl) rfl
    | _ => exact .stop (by rw [elideLink, lies]; rfl) rfl

theorem Shows.elided? (h : a.Shows parent i n) :
    ∃ k, a.elided? i = some k ∧ a.follow? i n.elidedPath = some k := by
  obtain ⟨k, ends, path⟩ := h.exists_ends Shows.steps_elideLink
  obtain ⟨c, lies⟩ := h.exists_cell?
  exact ⟨k, ends _ (after_lt lies), path⟩

theorem dominantPath_eq (n : Node Token) : n.dominantPath = match n.tokens id, n.children with
  | [], [m] => if m.isMarker then [] else 0 :: m.dominantPath
  | _, _ => [] := by
  cases n with
  | run items cs => cases items <;> rcases cs with - | ⟨m, - | -⟩ <;> rfl
  | group cs => rcases cs with - | ⟨m, - | -⟩ <;> rfl
  | boolGroup cs => rcases cs with - | ⟨m, - | -⟩ <;> rfl
  | _ => rfl

theorem dominantLink_eq {c : Cell} (lies : a.cell? i = some c) : a.dominantLink i = match c.tokens, c.children with
  | [], [only] => if a.isMarker only then none else some only
  | _, _ => none := by
  obtain ⟨kind, tokens, children, parent⟩ := c
  rw [dominantLink, lies]
  cases tokens <;> rcases children with - | ⟨only, - | -⟩ <;> rfl

theorem Shows.steps_dominantLink (h : a.Shows parent i n) : a.Steps a.dominantLink dominantPath i n := by
  cases h with
  | @node _ _ ids _ lies later below =>
    have own := dominantPath_eq n
    have link := dominantLink_eq lies
    dsimp only [cell] at link
    generalize n.tokens id = tokens at own link
    generalize children : n.children = cs at own below
    cases tokens with
    | cons => exact .stop link own
    | nil =>
      cases below with
      | nil => exact .stop link own
      | @cons _ k _ m _ first rest =>
        cases rest with
        | cons => exact .stop link own
        | nil =>
          simp only [first.isMarker] at link
          cases marked : m.isMarker with
          | true => exact .stop (by simpa [marked] using link) (by simpa [marked] using own)
          | false =>
            have lower := List.rel_of_pairwise_cons later List.mem_cons_self
            exact .down (by simpa [marked] using link) lower lies rfl children first (by simpa [marked] using own)

theorem Shows.dominant? (h : a.Shows parent i n) :
    ∃ k, a.dominant? i = some k ∧ a.follow? i n.dominantPath = some k := by
  obtain ⟨k, ends, path⟩ := h.exists_ends Shows.steps_dominantLink
  obtain ⟨c, lies⟩ := h.exists_cell?
  exact ⟨k, ends _ (after_lt lies), path⟩

inductive ShowsAt (a : Arena) (root : Node Token) : Path → Option Nat → Nat → Node Token → Prop where
  | root (shown : a.Shows none 0 root) : ShowsAt a root [] none 0 root
  | child {p : Path} {up : Option Nat} {j k place : Nat} {ids : List Nat} {holder m : Node Token}
      (above : ShowsAt a root p up j holder) (lies : a.cell? j = some (holder.cell ids up))
      (later : (j :: ids).Pairwise (· < ·)) (listed : ids[place]? = some k) (among : m ∈ holder.children)
      (shown : a.Shows (some j) k m) : ShowsAt a root (p ++ [place]) (some j) k m

variable {root : Node Token} {p q : Path} {up : Option Nat} {k : Nat} {m : Node Token}

theorem ShowsAt.shows (h : a.ShowsAt root p up k m) : a.Shows up k m := by
  cases h with
  | root shown => exact shown
  | child above lies later listed among shown => exact shown

theorem Shows.exists_showsAt (h : a.Shows none 0 root) (found : a.follow? 0 p = some k) :
    ∃ up m, a.ShowsAt root p up k m := by
  induction p using List.reverseRecOn generalizing k with
  | nil =>
    cases found
    exact ⟨none, root, .root h⟩
  | append_singleton p place ih =>
    rw [follow?_append] at found
    obtain ⟨j, above, found⟩ := Option.bind_eq_some_iff.1 found
    obtain ⟨c, lies, found⟩ := Option.bind_eq_some_iff.1 found
    obtain ⟨next, listed, last⟩ := Option.bind_eq_some_iff.1 found
    cases last
    obtain ⟨up, holder, showsAt⟩ := ih above
    cases showsAt.shows with
    | @node _ _ ids _ own later below =>
      cases Option.some.inj (lies.symm.trans own)
      obtain ⟨m, among, shown⟩ := below.exists_getElem? listed
      exact ⟨some j, m, .child showsAt own later listed among shown⟩

theorem ShowsAt.follow? (h : a.ShowsAt root p up k m) : a.follow? 0 p = some k := by
  induction h with
  | root shown => rfl
  | child above lies later listed among shown ih =>
    rw [follow?_append, ih, Option.bind_some, Arena.follow?, lies]
    simp only [Option.bind_eq_bind, Option.bind_some, cell, listed]
    rfl

theorem ShowsAt.mem_nodes (h : a.ShowsAt root p up k m) : m ∈ root.nodes := by
  induction h with
  | root shown => exact nodes_eq root ▸ List.mem_cons_self
  | child above lies later listed among shown ih =>
    rw [nodes_eq]
    exact List.mem_cons_of_mem root (mem_nodesOf_children ih among)

theorem Shows.parent_eq {up up' : Option Nat} {m m' : Node Token} (h : a.Shows up k m) (h' : a.Shows up' k m') :
    up = up' := by
  cases h with
  | node lies later below =>
    cases h' with
    | node lies' later' below' => exact congrArg Cell.parent (Option.some.inj (lies.symm.trans lies'))

theorem nodup_of_later {ids : List Nat} (later : (k :: ids).Pairwise (· < ·)) : ids.Nodup :=
  (List.pairwise_cons.1 later).2.imp Nat.ne_of_lt

theorem ShowsAt.path_eq {up' : Option Nat} {m' : Node Token} (h : a.ShowsAt root p up k m)
    (h' : a.ShowsAt root q up' k m') : p = q := by
  induction h generalizing q up' m' with
  | root shown =>
    have same := shown.parent_eq h'.shows
    cases h' with
    | root => rfl
    | child => cases same
  | child above lies later listed among shown ih =>
    have same := shown.parent_eq h'.shows
    cases h' with
    | root => cases same
    | child above' lies' later' listed' among' shown' =>
      cases same
      cases ih above'
      have ids := congrArg Cell.children (Option.some.inj (lies.symm.trans lies'))
      dsimp only [cell] at ids
      rw [← ids, ← listed] at listed'
      have within := (List.getElem?_eq_some_iff.1 listed).1
      cases (List.getElem?_inj within (nodup_of_later later)).1 listed'.symm
      rfl

theorem Shows.exists_of_reaches {c : Cell} (h : a.Shows none 0 root) (r : a.Reaches p k c) :
    ∃ up m ids, a.ShowsAt root p up k m ∧ c = m.cell ids up ∧ (k :: ids).Pairwise (· < ·) ∧
      a.ShowsAll k ids m.children := by
  obtain ⟨up, m, showsAt⟩ := h.exists_showsAt r.follows
  cases showsAt.shows with
  | @node _ _ ids _ lies later below =>
    exact ⟨up, m, ids, showsAt, Option.some.inj (r.cell.symm.trans lies), later, below⟩

theorem Shows.scopeLink_eq (h : a.Shows up k m) : a.scopeLink k = if m.isScope then none else up := by
  cases h with
  | node lies later below =>
    rw [Arena.scopeLink_eq lies, ← isScope_kind]
    rfl

/-- The walk up from a cell ends, and what it finds there is a pair or the root. -/
inductive Scopes (a : Arena) (k : Nat) : Option Nat → Prop where
  | pair {top : Nat} {c : Cell} (ends : Ends a.scopeLink (fun id => id) k top) (lies : a.cell? top = some c)
      (scope : c.kind.isScope = true) : Scopes a k (some top)
  | none {top : Nat} {c : Cell} (ends : Ends a.scopeLink (fun id => id) k top) (lies : a.cell? top = some c)
      (scope : c.kind.isScope = false) : Scopes a k none

variable {found : Option Nat}

theorem Scopes.scope? (h : a.Scopes k found) (within : k < a.cells.length) : a.scope? k = some found := by
  cases h with
  | pair ends lies scope => simp [Arena.scope?, ends _ within, lies, scope]
  | none ends lies scope => simp [Arena.scope?, ends _ within, lies, scope]

theorem Scopes.step {j : Nat} (h : a.Scopes j found) (leads : a.scopeLink k = some j) (lower : j < k) :
    a.Scopes k found := by
  cases h with
  | pair ends lies scope => exact .pair (.step leads lower ends) lies scope
  | none ends lies scope => exact .none (.step leads lower ends) lies scope

theorem Shows.scopes (h : a.Shows up k m) (outer : ∀ j ∈ up, j < k ∧ a.Scopes j found)
    (alone : up = none → found = none) : a.Scopes k (if m.isScope then some k else found) := by
  have link := h.scopeLink_eq
  cases h with
  | @node _ _ ids _ lies later below =>
    have kind : (m.cell ids up).kind.isScope = m.isScope := isScope_kind m
    cases scope : m.isScope with
    | true =>
      rw [scope] at link kind
      exact .pair (.stop link) lies kind
    | false =>
      rw [scope] at link kind
      cases up with
      | none =>
        rw [alone rfl]
        exact .none (.stop link) lies kind
      | some j =>
        obtain ⟨lower, further⟩ := outer j rfl
        exact further.step link lower

theorem ShowsAt.lower (h : a.ShowsAt root p up k m) : ∀ j ∈ up, j < k := by
  cases h with
  | root => exact nofun
  | child above lies later listed among shown =>
    rintro j ⟨⟩
    exact List.rel_of_pairwise_cons later (List.mem_of_getElem? listed)

theorem ShowsAt.lt_length (h : a.ShowsAt root p up k m) : k < a.cells.length := by
  obtain ⟨c, lies⟩ := h.shows.exists_cell?
  exact lt_length_of_cell? lies

theorem ShowsAt.exists_scopes (h : a.ShowsAt root p up k m) :
    ∃ found, a.Scopes k found ∧ ∀ j ∈ found, ∃ q, q <+: p ∧ a.follow? 0 q = some j := by
  induction h with
  | root shown =>
    refine ⟨_, shown.scopes nofun fun _ => rfl, ?_⟩
    cases root.isScope with
    | true =>
      rintro j ⟨⟩
      exact ⟨[], List.prefix_rfl, rfl⟩
    | false => exact nofun
  | @child p up j k place ids holder m above lies later listed among shown ih =>
    obtain ⟨found, outer, within⟩ := ih
    have here := ShowsAt.child above lies later listed among shown
    refine ⟨_, shown.scopes (fun i own => ⟨here.lower i own, Option.some.inj own ▸ outer⟩) nofun, ?_⟩
    cases m.isScope with
    | true =>
      rintro i ⟨⟩
      exact ⟨_, List.prefix_rfl, here.follow?⟩
    | false =>
      intro i member
      obtain ⟨q, before, reached⟩ := within i member
      exact ⟨q, before.trans (List.prefix_append p [place]), reached⟩

/-- The row says of the cell at its path what the cell and the walks from it say. -/
structure Tells (a : Arena) (row : Row) (id : Nat) (c : Cell) : Prop where
  reaches : a.Reaches row.path id c
  kind : c.kind = row.kind
  tokens : c.tokens = row.tokens
  parent : c.parent.map some = row.parent.map (a.follow? 0)
  scope : ∃ found, a.scope? id = some found ∧ found.map some = row.scope.map (a.follow? 0)
  elided : ∃ k, a.elided? id = some k ∧ a.follow? 0 row.elided = some k
  dominant : ∃ k, a.dominant? id = some k ∧ a.follow? 0 row.dominant = some k
  isBare : c.isBare = row.isBare
  hasMarkers : a.hasMarkers c = row.hasMarkers

theorem rowsAt_eq (parent scope : Option Path) (n : Node Token) : rowsAt p parent scope n =
    row p parent scope n :: rowsBelow p (if n.isScope then some p else scope) 0 n.children := by
  cases n <;> rfl

structure Around (a : Arena) (up : Option Nat) (parent scope : Option Path) : Prop where
  parent : up.map some = parent.map (a.follow? 0)
  scope : ∃ found, (∀ j ∈ up, a.Scopes j found) ∧ (up = none → found = none) ∧ found.map some = scope.map (a.follow? 0)

theorem ShowsAll.isBare {ids : List Nat} (h : a.ShowsAll k ids m.children) : (m.cell ids up).isBare = m.isBare := by
  apply isBare_cell
  rw [← List.length_eq_zero_iff, ← List.length_eq_zero_iff, h.length]

theorem ShowsAll.hasMarkers {ids : List Nat} (h : a.ShowsAll k ids m.children) :
    a.hasMarkers (m.cell ids up) = m.children.any Node.isMarker := by
  have same := congrArg (List.any · id) h.map_isMarker
  simpa [Arena.hasMarkers, cell, List.any_map] using same

variable {parent scope : Option Path}

theorem ShowsAt.around (h : a.ShowsAt root p up k m) (around : a.Around up parent scope) :
    a.Around (some k) (some p) (if m.isScope then some p else scope) := by
  obtain ⟨found, outer, alone, same⟩ := around.scope
  have scopes := h.shows.scopes (fun j own => ⟨h.lower j own, outer j own⟩) alone
  refine ⟨congrArg some h.follow?.symm, if m.isScope then some k else found, ?_, nofun, ?_⟩
  · rintro j ⟨⟩
    exact scopes
  · cases m.isScope with
    | true => exact congrArg some h.follow?.symm
    | false => exact same

theorem ShowsAt.tells (h : a.ShowsAt root p up k m) (around : a.Around up parent scope) :
    ∃ c, a.Tells (row p parent scope m) k c := by
  have walk (q : Path) : a.follow? 0 (p ++ q) = a.follow? k q := by rw [follow?_append, h.follow?, Option.bind_some]
  obtain ⟨last, elided, elidedPath⟩ := h.shows.elided?
  obtain ⟨top, dominant, dominantPath⟩ := h.shows.dominant?
  obtain ⟨found, scopes, -, same⟩ := (h.around around).scope
  cases h.shows with
  | node lies later below =>
    exact ⟨_, {
      reaches := ⟨h.follow?, lies⟩
      kind := rfl
      tokens := rfl
      parent := around.parent
      scope := ⟨found, (scopes k rfl).scope? h.lt_length, same⟩
      elided := ⟨last, elided, (walk _).trans elidedPath⟩
      dominant := ⟨top, dominant, (walk _).trans dominantPath⟩
      isBare := below.isBare
      hasMarkers := below.hasMarkers }⟩

theorem ShowsAt.rowsAt_tells (n : Node Token) (h : a.ShowsAt root p up k n) (around : a.Around up parent scope) :
    ∀ row ∈ rowsAt p parent scope n, ∃ id c, a.Tells row id c := by
  induction n using Node.induction generalizing p up k parent scope with
  | node n ih =>
    rw [rowsAt_eq]
    refine List.forall_mem_cons.2 ⟨⟨k, h.tells around⟩, ?_⟩
    have inner := h.around around
    cases h.shows with
    | @node _ _ ids _ lies later below =>
      -- The rows of the children from the one with index `i` on.
      suffices rows : ∀ ns ids' i, (∀ m ∈ ns, m ∈ n.children) → ids.drop i = ids' → a.ShowsAll k ids' ns →
          ∀ row ∈ rowsBelow p (if n.isScope then some p else scope) i ns, ∃ id c, a.Tells row id c from
        rows n.children ids 0 (fun _ => id) rfl below
      intro ns
      induction ns with
      | nil => exact nofun
      | cons m ns further =>
        intro ids' i among rest shown
        obtain ⟨own, others⟩ := List.forall_mem_cons.1 among
        cases shown with
        | @cons _ k' ids' _ _ first later' =>
          have listed : ids[i]? = some k' := by rw [← List.head?_drop, rest, List.head?_cons]
          have next : ids.drop (i + 1) = ids' := by rw [← List.tail_drop, rest, List.tail_cons]
          rw [rowsBelow, List.forall_mem_append]
          exact ⟨ih m own (.child h lies later listed own first) inner, further ids' (i + 1) others next later'⟩

theorem Shows.tells (h : a.Shows none 0 root) : ∀ row ∈ root.rows, ∃ id c, a.Tells row id c :=
  ShowsAt.rowsAt_tells root (.root h) ⟨rfl, none, nofun, fun _ => rfl, rfl⟩

end Arena

end WhereClause
