import WhereClause.Outline.Path
import WhereClause.Proofs.Outline.Balance
import WhereClause.Proofs.Outline.Depth

namespace WhereClause

namespace Node

variable {α : Type}

mutual

def levels (l : Nat) : Node α → List Nat
  | .run _ cs => l :: levelsOf (l + 1) cs
  | .marker .. => [l]
  | .group cs => l :: levelsOf (l + 1) cs
  | .boolGroup cs => l :: levelsOf (l + 1) cs
  | .call _ cs => l :: levelsOf (l + 1) cs

def levelsOf (l : Nat) : List (Node α) → List Nat
  | [] => []
  | n :: ns => n.levels l ++ levelsOf l ns

end

mutual

theorem levels_rowsAt (path : Path) (parent scope : Option Path) : (n : Node Token) →
    (rowsAt path parent scope n).map (·.path.length) = n.levels path.length
  | .run _ cs => congrArg (path.length :: ·) (levels_rowsBelow path scope 0 cs)
  | .marker .. => rfl
  | .group cs => congrArg (path.length :: ·) (levels_rowsBelow path (some path) 0 cs)
  | .boolGroup cs => congrArg (path.length :: ·) (levels_rowsBelow path (some path) 0 cs)
  | .call _ cs => congrArg (path.length :: ·) (levels_rowsBelow path (some path) 0 cs)

theorem levels_rowsBelow (path : Path) (scope : Option Path) (i : Nat) : (ns : List (Node Token)) →
    (rowsBelow path scope i ns).map (·.path.length) = levelsOf (path.length + 1) ns
  | [] => rfl
  | n :: ns => by
    have own := levels_rowsAt (path ++ [i]) (some path) scope n
    rw [List.length_append, List.length_singleton] at own
    rw [rowsBelow, List.map_append, own, levels_rowsBelow path scope (i + 1) ns, levelsOf]

end

def Within (d l : Nat) (ns : List (Node α)) : Prop := ∀ m ∈ levelsOf l ns, m ≤ d

variable {d l : Nat}

theorem rows_within {n : Node Token} : (∀ row ∈ n.rows, row.path.length ≤ d) ↔ Within d 0 [n] := by
  have whole : levelsOf 0 [n] = n.rows.map (·.path.length) :=
    (List.append_nil _).trans (levels_rowsAt [] none none n).symm
  rw [Within, whole, List.forall_mem_map]

theorem within_nil : Within d l ([] : List (Node α)) := nofun

theorem within_append {ns ms : List (Node α)} : Within d l (ns ++ ms) ↔ Within d l ns ∧ Within d l ms := by
  induction ns with
  | nil => exact (and_iff_right within_nil).symm
  | cons n ns ih =>
    simp only [Within, List.cons_append, levelsOf, List.forall_mem_append] at ih ⊢
    rw [ih, and_assoc]

theorem within_pruneAll_cons {n : Node α} {ns : List (Node α)} :
    Within d l (pruneAll (n :: ns)) ↔ Within d l (pruneAll [n]) ∧ Within d l (pruneAll ns) := by
  rw [pruneAll_cons, within_append]

theorem le_of_within {ns : List (Node α)} (h : Within d (l + 1) ns) (filled : ns ≠ []) : l ≤ d := by
  obtain ⟨n, ns, rfl⟩ := List.exists_cons_of_ne_nil filled
  have first : l + 1 ∈ levelsOf (l + 1) (n :: ns) := by cases n <;> simp [levelsOf, levels]
  exact Nat.le_of_succ_le (h _ first)

theorem within_singleton {n : Node α} (h : n.levels l = l :: levelsOf (l + 1) n.children) :
    Within d l [n] ↔ l ≤ d ∧ Within d (l + 1) n.children := by
  rw [Within, levelsOf, levelsOf, List.append_nil, h, List.forall_mem_cons]
  exact Iff.rfl

theorem within_pruneAll_run {items : List α} {cs : List (Node α)} :
    Within d l (pruneAll [.run items cs]) ↔ (items ≠ [] → l ≤ d) ∧ Within d (l + 1) (pruneAll cs) := by
  rw [pruneAll_run]
  split
  · next bare =>
    rw [bare.2]
    simp [bare.1, within_nil]
  · next filled =>
    rw [within_singleton rfl]
    refine and_congr_left fun below => ⟨fun own _ => own, fun own => ?_⟩
    by_cases bare : items = []
    · exact le_of_within below fun empty => filled ⟨bare, empty⟩
    · exact own bare

theorem within_pruneAll_pair {pair : List (Node α) → Node α}
    (kept : ∀ cs, pruneAll [pair cs] = if pruneAll cs = [] then [] else [pair (pruneAll cs)])
    (below : ∀ cs, (pair cs).levels l = l :: levelsOf (l + 1) cs ∧ (pair cs).children = cs)
    {cs : List (Node α)} : Within d l (pruneAll [pair cs]) ↔ Within d (l + 1) (pruneAll cs) := by
  rw [kept]
  split
  · next bare => simp [bare, within_nil]
  · next filled =>
    obtain ⟨levels, children⟩ := below (pruneAll cs)
    rw [within_singleton (children.symm ▸ levels), children, and_iff_right_of_imp]
    exact fun within => le_of_within within filled

theorem within_pruneAll_call {name : α} {cs : List (Node α)} :
    Within d l (pruneAll [.call name cs]) ↔ l ≤ d ∧ Within d (l + 1) (pruneAll cs) := by
  rw [pruneAll_call]
  exact within_singleton rfl

theorem within_marker {j : Junction} {word : Token} : Within d l [(.marker j word : Node α)] ↔ l ≤ d := by
  simp [Within, levelsOf, levels]

end Node

namespace Nest

variable {α : Type} (calls : α → Bool)

/-- The levels at which the tokens of a pair are held, `base` being the level of the pair and `level` that of the
    run; `last` is the token right before. A joining word is one level below the pair. A pair is one level below the
    run before it, which is also where the run goes on. The name of a call counts for the run and for the call. -/
def levels (base level : Nat) : Option α → Nest α → List Nat
  | _, .nil => []
  | _, .leaf item rest => level :: levels base level (some item) rest
  | _, .joint _ _ rest => (base + 1) :: levels base (base + 1) none rest
  | last, .pair inner rest =>
    (last.filter calls).toList.map (fun _ => level + 1) ++
      (levels (level + 1) (level + 2) none inner ++ levels base (level + 1) none rest)

theorem within_paired {d l : Nat} (items : List α) (joined : Bool) (children : List (Node α)) :
    ((paired calls items joined children).1 ≠ [] → l ≤ d) ∧
        Node.Within d (l + 1) (Node.pruneAll [(paired calls items joined children).2]) ↔
      (items ≠ [] → l ≤ d) ∧
        (∀ m ∈ (items.getLast?.filter calls).toList.map (fun _ => l + 1), m ≤ d) ∧
          Node.Within d (l + 2) (Node.pruneAll children) := by
  rcases paired_cases calls items with ⟨before, name, rfl, named, own⟩ | ⟨other, own⟩
  · have last : (some name).filter calls = some name := by simp [named]
    have filled : before ++ [name] ≠ [] := List.append_ne_nil_of_right_ne_nil _ (List.cons_ne_nil _ _)
    rw [own, List.getLast?_concat, last, Node.within_pruneAll_call]
    simp only [Option.toList_some, List.map_cons, List.map_nil, List.forall_mem_singleton]
    constructor
    · rintro ⟨-, call, below⟩
      exact ⟨fun _ => Nat.le_of_succ_le call, call, below⟩
    · rintro ⟨run, call, below⟩
      exact ⟨fun _ => run filled, call, below⟩
  · have unnamed : items.getLast?.filter calls = none := by simpa using other
    have below : Node.Within d (l + 1) (Node.pruneAll [if joined then .boolGroup children else .group children]) ↔
        Node.Within d (l + 2) (Node.pruneAll children) := by
      cases joined
      · exact Node.within_pruneAll_pair Node.pruneAll_group fun _ => ⟨rfl, rfl⟩
      · exact Node.within_pruneAll_pair Node.pruneAll_boolGroup fun _ => ⟨rfl, rfl⟩
    rw [own, unnamed, below]
    simp

theorem within_outline {d : Nat} (n : Nest α) (items : List α) (base level : Nat) :
    Node.Within d level (Node.pruneAll [(outline calls items n).1]) ∧
        Node.Within d (base + 1) (Node.pruneAll (outline calls items n).2) ↔
      (items ≠ [] → level ≤ d) ∧ ∀ m ∈ n.levels calls base level items.getLast?, m ≤ d := by
  induction n generalizing items base level with
  | nil =>
    rw [outline, Node.within_pruneAll_run]
    simp [levels, Node.pruneAll, Node.within_nil]
  | leaf item rest ih =>
    have filled : items ++ [item] ≠ [] := List.append_ne_nil_of_right_ne_nil _ (List.cons_ne_nil _ _)
    rw [outline, ih, levels, List.getLast?_concat, List.forall_mem_cons]
    constructor
    · rintro ⟨run, later⟩
      exact ⟨fun _ => run filled, run filled, later⟩
    · rintro ⟨-, run, later⟩
      exact ⟨fun _ => run, later⟩
  | joint j word rest ih =>
    have later := ih [] base (base + 1)
    rw [← Node.within_pruneAll_cons] at later
    rw [outline, Node.within_pruneAll_run, Node.within_pruneAll_cons, Node.pruneAll_marker, Node.within_marker,
      later, levels, List.forall_mem_cons]
    simp [Node.pruneAll, Node.within_nil]
  | pair inner rest inside after =>
    -- The pair and the run that goes on after it both stand one level below the run.
    have held := inside [] (level + 1) (level + 2)
    have later := after [] base (level + 1)
    have own := within_paired calls (d := d) (l := level) items inner.hasJoint (inner.children calls)
    rw [← Node.within_pruneAll_cons] at held
    rw [children, held] at own
    rw [outline, Node.within_pruneAll_run, Node.within_pruneAll_cons, levels, List.forall_mem_append,
      List.forall_mem_append]
    simp only [ne_eq, not_true_eq_false, false_implies, true_and, List.getLast?_nil] at own later ⊢
    rw [and_assoc, and_assoc, later, ← and_assoc, own, and_assoc, and_assoc]

theorem within_children {d base : Nat} (n : Nest α) :
    Node.Within d (base + 1) (Node.pruneAll (n.children calls)) ↔
      ∀ m ∈ n.levels calls base (base + 1) none, m ≤ d := by
  have whole := within_outline calls (d := d) n [] base (base + 1)
  rw [← Node.within_pruneAll_cons] at whole
  rw [children, whole]
  simp

theorem within_node {d base : Nat} (n : Nest α) :
    Node.Within d base (Node.pruneAll [n.node calls]) ↔ ∀ m ∈ n.levels calls base (base + 1) none, m ≤ d := by
  rw [← within_children, node]
  split
  · exact Node.within_pruneAll_pair Node.pruneAll_boolGroup fun _ => ⟨rfl, rfl⟩
  · exact Node.within_pruneAll_pair Node.pruneAll_group fun _ => ⟨rfl, rfl⟩

theorem depth_enclosed_le (n : Nest α) : n.enclosed.depth ≤ n.depth := by
  unfold enclosed
  split
  · exact Nat.le_trans (Nat.le_succ _) (Nat.le_max_left ..)
  · exact Nat.le_refl _

/-- The most pairs in one part of a pair, at any depth; `before` are the pairs before in the part. -/
def widest (before : Nat) : Nest α → Nat
  | .nil => before
  | .leaf _ rest => rest.widest before
  | .joint _ _ rest => max before (rest.widest 0)
  | .pair inner rest => max (inner.widest 0) (rest.widest (before + 1))

theorem le_widest (n : Nest α) (before : Nat) : before ≤ n.widest before := by
  induction n generalizing before with
  | nil => exact Nat.le_refl before
  | leaf item rest ih => exact ih before
  | joint j word rest ih => exact Nat.le_max_left ..
  | pair inner rest inside after =>
    have further := after (before + 1)
    rw [widest]
    omega

theorem levels_le {n : Nest α} {r before : Nat} (row : n.widest before ≤ r) (base : Nat) (last : Option α) :
    ∀ m ∈ n.levels calls base (base + 1 + before) last, m ≤ base + (n.depth + 1) * (r + 1) := by
  induction n generalizing before base last with
  | nil => nofun
  | leaf item rest ih =>
    have own := Nat.le_trans (le_widest rest before) row
    refine List.forall_mem_cons.2 ⟨?_, ih row base _⟩
    rw [Nat.add_one_mul]
    omega
  | joint j word rest ih =>
    rw [widest, Nat.max_le] at row
    refine List.forall_mem_cons.2 ⟨?_, ih row.2 base none⟩
    rw [Nat.add_one_mul]
    omega
  | pair inner rest inside after =>
    rw [widest, Nat.max_le] at row
    have own := Nat.le_trans (le_widest rest (before + 1)) row.2
    have deeper : (inner.depth + 1 + 1) * (r + 1) ≤ ((pair inner rest).depth + 1) * (r + 1) :=
      Nat.mul_le_mul_right _ (Nat.succ_le_succ (Nat.le_max_left ..))
    have wider : (rest.depth + 1) * (r + 1) ≤ ((pair inner rest).depth + 1) * (r + 1) :=
      Nat.mul_le_mul_right _ (Nat.succ_le_succ (Nat.le_max_right ..))
    rw [Nat.add_one_mul] at deeper
    refine List.forall_mem_append.2 ⟨?_, List.forall_mem_append.2 ⟨fun m member => ?_, fun m member => ?_⟩⟩
    · rintro m member
      obtain ⟨-, -, rfl⟩ := List.mem_map.1 member
      rw [Nat.add_one_mul] at deeper
      omega
    · have held := inside row.1 (base + 1 + before + 1) none m member
      omega
    · have later := after row.2 base none m member
      omega

theorem rows_within (n : Nest Token) {d : Nat} :
    (∀ row ∈ (Node.run [] (Node.pruneAll [n.enclosed.node Token.namesFunction])).rows, row.path.length ≤ d) ↔
      ∀ m ∈ n.enclosed.levels Token.namesFunction 1 2 none, m ≤ d := by
  rw [Node.rows_within, Node.within_singleton rfl, and_iff_right (Nat.zero_le d)]
  exact within_node Token.namesFunction n.enclosed

def inRow (item : α) : Nat → Nest α
  | 0 => .nil
  | k + 1 => .pair (.leaf item .nil) (inRow item k)

theorem mem_levels_inRow (item : α) (k base level : Nat) (last : Option α) :
    level + k + 2 ∈ (inRow item (k + 1)).levels calls base level last := by
  have step (k level : Nat) (last : Option α) : (inRow item (k + 1)).levels calls base level last =
      (last.filter calls).toList.map (fun _ => level + 1) ++
        ([level + 2] ++ (inRow item k).levels calls base (level + 1) none) := rfl
  rw [step]
  induction k generalizing level last with
  | zero => exact List.mem_append_right _ (List.mem_append_left _ (List.mem_singleton_self _))
  | succ k ih =>
    have further := ih (level + 1) none
    rw [← step, Nat.add_right_comm level 1 k] at further
    exact List.mem_append_right _ (List.mem_append_right _ further)

theorem depth_inRow_le (item : α) (k : Nat) : (inRow item k).depth ≤ 1 := by
  induction k with
  | zero => exact Nat.zero_le 1
  | succ k ih => exact Nat.max_le.2 ⟨Nat.le_refl 1, ih⟩

end Nest

namespace Node

theorem ofTokens_eq_ok {ts : List Token} {root : Node Token} : ofTokens ts = .ok root ↔
    ∃ n : Nest Token, n.events = (Token.significant ts).map Event.ofToken ∧ n.depth ≤ Balance.limit ∧
      root = .run [] (pruneAll [n.enclosed.node Token.namesFunction]) := by
  have outlined {n : Nest Token} (events : n.events = (Token.significant ts).map Event.ofToken) :
      ofEvents Token.namesFunction ((Token.significant ts).map Event.ofToken) =
        .ok (.run [] (pruneAll [n.enclosed.node Token.namesFunction])) := by
    rw [← events, ofEvents, Nest.ofEvents?_events]
  rw [ofTokens_eq]
  constructor
  · intro h
    obtain ⟨_, balanced, built⟩ := bind_eq_ok.1 h
    obtain ⟨n, events, shallow⟩ := Balance.check_iff.1 balanced
    rw [outlined events] at built
    exact ⟨n, events, shallow, (Except.ok.inj built).symm⟩
  · rintro ⟨n, events, shallow, rfl⟩
    rw [Balance.check_iff.2 ⟨n, events, shallow⟩]
    exact outlined events

/-- The nodes of an outline lie within `d` levels of the root exactly if the tokens do, counted by their parentheses.
    If no part of a pair, up to the next joining word, holds more than `r` pairs, the nodes lie within
    `(r + 1) * (limit + 1) + 1` levels: two for each pair where no two pairs stand in a row. -/
theorem rows_within_iff {ts : List Token} {root : Node Token} (h : ofTokens ts = .ok root) :
    ∃ n : Nest Token, n.events = (Token.significant ts).map Event.ofToken ∧
      (∀ d, (∀ row ∈ root.rows, row.path.length ≤ d) ↔
        ∀ m ∈ n.enclosed.levels Token.namesFunction 1 2 none, m ≤ d) ∧
      ∀ r, n.enclosed.widest 0 ≤ r → ∀ row ∈ root.rows, row.path.length ≤ (r + 1) * (Balance.limit + 1) + 1 := by
  obtain ⟨n, events, shallow, rfl⟩ := ofTokens_eq_ok.1 h
  refine ⟨n, events, fun d => n.rows_within, fun r row => n.rows_within.2 fun m member => ?_⟩
  have bound := Nest.levels_le Token.namesFunction row 1 none m member
  have deepest : (n.enclosed.depth + 1) * (r + 1) ≤ (Balance.limit + 1) * (r + 1) :=
    Nat.mul_le_mul_right _ (Nat.succ_le_succ (Nat.le_trans n.depth_enclosed_le shallow))
  rw [Nat.mul_comm (Balance.limit + 1)] at deepest
  omega

theorem rows_within_iff_call :
    ∃ root, ofTokens (Token.scan .filter "contains(a, (b)) (c) and d").tokens = .ok root ∧
      ∃ n : Nest Token,
        n.events = (Token.significant (Token.scan .filter "contains(a, (b)) (c) and d").tokens).map Event.ofToken ∧
        (∀ d, (∀ row ∈ root.rows, row.path.length ≤ d) ↔
          ∀ m ∈ n.enclosed.levels Token.namesFunction 1 2 none, m ≤ d) ∧
        ∀ r, n.enclosed.widest 0 ≤ r → ∀ row ∈ root.rows, row.path.length ≤ (r + 1) * (Balance.limit + 1) + 1 := by
  cases built : ofTokens (Token.scan .filter "contains(a, (b)) (c) and d").tokens with
  | error fault =>
    have accepted : (ofTokens (Token.scan .filter "contains(a, (b)) (c) and d").tokens).toBool = true := by
      decide +kernel
    rw [built] at accepted
    cases accepted
  | ok root => exact ⟨root, rfl, rows_within_iff built⟩

end Node

def Token.pairsInRow (k : Nat) : List Token :=
  (List.replicate k [⟨.symbol, "(", .start⟩, ⟨.word, "a", .start⟩, ⟨.symbol, ")", .start⟩]).flatten

namespace Node

theorem events_pairsInRow (k : Nat) : (Nest.inRow ⟨.word, "a", .start⟩ k).events =
    (Token.significant (Token.pairsInRow k)).map Event.ofToken := by
  induction k with
  | zero => rfl
  | succ k ih =>
    have first : Token.pairsInRow (k + 1) =
      [⟨.symbol, "(", .start⟩, ⟨.word, "a", .start⟩, ⟨.symbol, ")", .start⟩] ++ Token.pairsInRow k := rfl
    rw [Token.significant] at ih ⊢
    rw [first, List.filter_append, List.map_append, ← ih]
    rfl

theorem exists_row_beyond (k : Nat) : ∃ root, ofTokens (Token.pairsInRow (k + 2)) = .ok root ∧
    ∃ row ∈ root.rows, k + 5 ≤ row.path.length := by
  have shallow : (Nest.inRow (⟨.word, "a", .start⟩ : Token) (k + 2)).depth ≤ Balance.limit :=
    Nat.le_trans (Nest.depth_inRow_le _ _) (by decide)
  refine ⟨_, ofTokens_eq_ok.2 ⟨_, events_pairsInRow (k + 2), shallow, rfl⟩, ?_⟩
  by_contra lacking
  have within := (Nest.rows_within _ (d := k + 4)).1 fun row member => by
    by_contra deep
    exact lacking ⟨row, member, by omega⟩
  have deepest := Nest.mem_levels_inRow Token.namesFunction (⟨.word, "a", .start⟩ : Token) (k + 1) 1 2 none
  exact absurd (within _ deepest) (by omega)

theorem rows_pairsInRow : ∃ root, ofTokens (Token.pairsInRow 129) = .ok root ∧
    ∃ row ∈ root.rows, 2 * (Balance.limit + 1) + 1 < row.path.length :=
  exists_row_beyond 127

end Node

end WhereClause
