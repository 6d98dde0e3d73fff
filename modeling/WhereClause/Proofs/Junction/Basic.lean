import Mathlib.Data.List.Forall2
import WhereClause.Condition
import WhereClause.Proofs.Expr.Gather
import WhereClause.Proofs.Outline.Compiled
import WhereClause.Proofs.Outline.Pairs

namespace WhereClause

theorem forall_of_forall₂ {α β : Type} {p : β → Prop} {as : List α} {bs : List β}
    (h : List.Forall₂ (fun _ b => p b) as bs) : ∀ b ∈ bs, p b := by
  induction h with
  | nil => nofun
  | cons own _ ih => exact List.forall_mem_cons.2 ⟨own, ih⟩

mutual

def Expr.joins : Expr → List (Junction × List Condition)
  | .apply _ left right third =>
    Expr.operandJoins left ++ Expr.operandJoins right ++ Expr.operandJoins third
  | .group inner => inner.joins
  | .run atoms => Atom.joinsOf atoms
  | .nested c => c.joins

def Expr.operandJoins : Option Expr → List (Junction × List Condition)
  | none => []
  | some e => e.joins

def Atom.joins : Atom → List (Junction × List Condition)
  | .expr e => e.joins
  | _ => []

def Atom.joinsOf : List Atom → List (Junction × List Condition)
  | [] => []
  | a :: as => a.joins ++ Atom.joinsOf as

def Condition.joins : Condition → List (Junction × List Condition)
  | .empty => []
  | .test e => e.joins
  | .all parts => (.all, parts) :: Condition.joinsOf parts
  | .any parts => (.any, parts) :: Condition.joinsOf parts

def Condition.joinsOf : List Condition → List (Junction × List Condition)
  | [] => []
  | c :: cs => c.joins ++ Condition.joinsOf cs

end

@[simp] theorem Atom.joinsOf_eq (as : List Atom) : joinsOf as = as.flatMap joins := by
  induction as with
  | nil => rfl
  | cons a as ih => simp [joinsOf, ih]

@[simp] theorem Condition.joinsOf_eq (cs : List Condition) : joinsOf cs = cs.flatMap joins := by
  induction cs with
  | nil => rfl
  | cons c cs ih => simp [joinsOf, ih]

theorem gathers_joins : Gathers Expr.joins Expr.operandJoins Atom.joins where
  function op left right third _ := by simp [Expr.joins, Atom.joins]
  between op left right third _ := by simp [Expr.joins, Atom.joins]
  group _ := rfl
  run as := Atom.joinsOf_eq as
  absent := rfl
  present _ := rfl
  comma := rfl
  inner _ := rfl

theorem Condition.join_eq {cs : List Condition} (full : ∀ c ∈ cs, c.isEmpty = false) :
    ∀ j, join j cs = match j with | .all => .all cs | .any => .any cs := by
  have kept : withoutEmpty cs = cs := List.filter_eq_self.2 fun c member => by simp [full c member]
  rintro ⟨⟩ <;> simp [join, kept]

theorem Condition.joins_join {cs : List Condition} (full : ∀ c ∈ cs, c.isEmpty = false) (j : Junction) :
    (join j cs).joins = (j, cs) :: cs.flatMap joins := by
  rw [join_eq full]
  cases j <;> simp [joins]

def Expr.IsApplied : Expr → Prop
  | .apply .. => True
  | _ => False

theorem Expr.Formed.applied_or {atoms : List Atom} {e : Expr} (h : Formed atoms e) :
    e.IsApplied ∨ ∃ a, atoms = [a] ∧ a.isOperator = false ∧ (a = .expr e ∨ e.hasOperator = false) := by
  induction h with
  | expr e => exact Or.inr ⟨_, rfl, rfl, Or.inl rfl⟩
  | parameter p => exact Or.inr ⟨_, rfl, rfl, Or.inr rfl⟩
  | column c => exact Or.inr ⟨_, rfl, rfl, Or.inr rfl⟩
  | call | between | inner => exact Or.inl trivial
  | chain function left right nonempty fits formed ih =>
    rcases ih with applied | ⟨a, same, -, -⟩
    · exact Or.inl applied
    · cases same

/-- A part of a joined condition: it says something, and if it is a test, an operator is applied. -/
def Condition.Proper (c : Condition) : Prop := c.isEmpty = false ∧ ∀ e, c = .test e → e.IsApplied

namespace Node

def parted? {α : Type} : Node α → Option (List (Node α))
  | .boolGroup ns => some ns
  | _ => none

def Sound (n : Node Lexeme) : Prop :=
  n.isBare = false ∧
    match n with
    | .run items _ => ∀ x ∈ items, ∀ e, x.atom ≠ .expr e
    | .boolGroup ns => (ns.filter fun m => !m.isMarker).length ≤ (ns.filterMap junction?).length + 1
    | .call name _ => name.atom.isOperator = true
    | _ => True

def AllSound (ns : List (Node Lexeme)) : Prop := ∀ n ∈ nodesOf ns, n.Sound

theorem allSound_cons {n : Node Lexeme} {ns : List (Node Lexeme)} :
    AllSound (n :: ns) ↔ AllSound [n] ∧ AllSound ns := by
  simp [AllSound, nodesOf, or_imp, forall_and]

theorem allSound_singleton {n : Node Lexeme} : AllSound [n] ↔ n.Sound ∧ AllSound n.children := by
  simp only [AllSound, nodesOf, List.append_nil, nodes_eq, List.forall_mem_cons]

def JoinedFrom (join : Junction × List Condition) (ns : List (Node Lexeme)) : Prop :=
  join.1 = firstJunction ns ∧ join.2.length = (ns.filterMap junction?).length + 1 ∧
    ∀ c ∈ join.2, c.Proper

/-- What is known of joined conditions and warnings that come from nodes. -/
structure Compiled (ns : List (Node Lexeme)) (ws : List Warning)
    (joins : List (Junction × List Condition)) : Prop where
  joins : List.Forall₂ JoinedFrom joins ((nodesOf ns).filterMap parted?)
  warnings : ws = ((nodesOf ns).filterMap parted?).flatMap mixed
  calls : ∀ name cs, .call name cs ∈ nodesOf ns → ∀ n ∈ cs, n.isMarker = false

namespace Compiled

theorem nil : Compiled [] [] [] := ⟨.nil, rfl, nofun⟩

theorem cons {n : Node Lexeme} {ns : List (Node Lexeme)} {us vs : List Warning}
    {first rest : List (Junction × List Condition)} (own : Compiled [n] us first)
    (later : Compiled ns vs rest) : Compiled (n :: ns) (us ++ vs) (first ++ rest) where
  joins := by
    have whole := List.rel_append own.joins later.joins
    simpa [nodesOf] using whole
  warnings := by
    rw [own.warnings, later.warnings]
    simp [nodesOf]
  calls name cs member := by
    rcases List.mem_append.1 member with here | further
    · exact own.calls name cs (by simpa [nodesOf] using here)
    · exact later.calls name cs further

theorem unparted {n : Node Lexeme} {ws : List Warning} {joins : List (Junction × List Condition)}
    (below : Compiled n.children ws joins) (none : n.parted? = none)
    (call : n.isCall = true → ∀ m ∈ n.children, m.isMarker = false) : Compiled [n] ws joins where
  joins := by simpa [nodesOf, nodes_eq, none] using below.joins
  warnings := by
    rw [below.warnings]
    simp [nodesOf, nodes_eq n, none]
  calls name cs member := by
    rw [nodesOf, nodesOf, List.append_nil, nodes_eq, List.mem_cons] at member
    rcases member with rfl | further
    · exact call rfl
    · exact below.calls name cs further

theorem parted {ns : List (Node Lexeme)} {ws : List Warning} {cs : List Condition}
    (below : Compiled ns ws (cs.flatMap Condition.joins)) (proper : ∀ c ∈ cs, c.Proper)
    (count : cs.length = (ns.filterMap junction?).length + 1) :
    Compiled [.boolGroup ns] (mixed ns ++ ws) (Condition.join (firstJunction ns) cs).joins where
  joins := by
    rw [Condition.joins_join fun c member => (proper c member).1]
    exact .cons ⟨rfl, count, proper⟩ (by simpa [nodesOf] using below.joins)
  warnings := by
    rw [below.warnings]
    simp [nodesOf, nodes, parted?]
  calls name cs member := by
    simp only [nodesOf, nodes, List.append_nil, List.mem_cons, reduceCtorEq, false_or] at member
    exact below.calls name cs member

end Compiled

theorem applied_of_ofAtoms {own as : List Atom} {e : Expr} (h : Expr.ofAtoms (own ++ as) = .ok e)
    (operator : e.hasOperator = true) (simple : ∀ a ∈ own, ∀ e, a ≠ .expr e)
    (single : own = [] → as = [.expr e] → e.IsApplied) : e.IsApplied := by
  rcases (Expr.formed_of_ofAtoms h).applied_or with applied | ⟨a, only, -, rfl | absent⟩
  · exact applied
  · cases own with
    | nil => exact single rfl only
    | cons b own =>
      simp only [List.cons_append, List.cons.injEq] at only
      exact absurd only.1 (simple b List.mem_cons_self e)
  · rw [absent] at operator
    cases operator

theorem applied_of_call {name : Atom} {as : List Atom} {e : Expr}
    (h : Expr.ofAtoms (name :: as) = .ok e) (operator : name.isOperator = true) : e.IsApplied := by
  rcases (Expr.formed_of_ofAtoms h).applied_or with applied | ⟨a, only, none, -⟩
  · exact applied
  · cases only
    rw [none] at operator
    cases operator

/-- What atoms among others tell of the nodes that they stand for. -/
structure Standing (ns : List (Node Lexeme)) (as : List Atom) : Prop where
  unmarked : ∀ n ∈ ns, n.isMarker = false
  count : ns.length ≤ as.length
  -- An expression that is all there is comes from an operator or from a single pair.
  single : ∀ e, as = [.expr e] → (∃ n, ns = [n] ∧ n.elided.isGrouping = true) ∨ e.IsApplied

theorem Standing.expr {n : Node Lexeme} {ns : List (Node Lexeme)} {e : Expr} {bs : List Atom}
    (unmarked : n.isMarker = false) (own : n.elided.isGrouping = true ∨ e.IsApplied)
    (later : Standing ns bs) : Standing (n :: ns) (.expr e :: bs) where
  unmarked := List.forall_mem_cons.2 ⟨unmarked, later.unmarked⟩
  count := Nat.succ_le_succ later.count
  single f only := by
    simp only [List.cons.injEq, Atom.expr.injEq] at only
    obtain ⟨rfl, rfl⟩ := only
    obtain rfl := List.length_eq_zero_iff.1 (Nat.le_zero.1 later.count)
    exact own.imp_left fun grouping => ⟨n, rfl, grouping⟩

theorem Standing.run {items : List Lexeme} {ns rest : List (Node Lexeme)} {as bs : List Atom}
    (sound : (Node.run items ns).Sound) (below : Standing ns as) (later : Standing rest bs) :
    Standing (.run items ns :: rest) (items.map Lexeme.atom ++ as ++ bs) := by
  obtain ⟨full, simple⟩ := sound
  have present : 0 < items.length + ns.length := by
    cases items with
    | nil => cases ns <;> simp_all [isBare]
    | cons x items => exact Nat.add_pos_left (Nat.succ_pos _) _
  refine ⟨List.forall_mem_cons.2 ⟨rfl, later.unmarked⟩, ?_, fun e only => ?_⟩
  · have first := below.count
    have second := later.count
    simp only [List.length_cons, List.length_append, List.length_map]
    omega
  · cases items with
    | cons x items =>
      simp only [List.map_cons, List.cons_append, List.cons.injEq] at only
      exact absurd only.1 (simple x List.mem_cons_self e)
    | nil =>
      have first := below.count
      have second := later.count
      have whole := congrArg List.length only
      simp only [List.map_nil, List.nil_append, List.length_append, List.length_cons,
        List.length_nil] at only whole present
      obtain rfl : rest = [] := List.length_eq_zero_iff.1 (by omega)
      obtain rfl : bs = [] := List.length_eq_zero_iff.1 (by omega)
      rw [List.append_nil] at only
      refine (below.single e only).imp_left ?_
      rintro ⟨n, rfl, grouping⟩
      exact ⟨_, rfl, grouping⟩

structure Parts (last : Option Token) (expected : Bool) (ns : List (Node Lexeme))
    (cs : List Condition) : Prop where
  proper : ∀ c ∈ cs, c.Proper
  count : cs.length = (ns.filter fun m => !m.isMarker).length
  enough : last.isSome = true ∨ ns ≠ [] →
    (ns.filterMap junction?).length + expected.toNat ≤ cs.length

theorem Parts.total {ns : List (Node Lexeme)} {cs : List Condition} (parts : Parts none true ns cs)
    (full : ns ≠ [])
    (between : (ns.filter fun m => !m.isMarker).length ≤ (ns.filterMap junction?).length + 1) :
    cs.length = (ns.filterMap junction?).length + 1 := by
  have enough := parts.enough (Or.inr full)
  rw [← parts.count] at between
  exact Nat.le_antisymm between enough

theorem Parts.join {last : Option Token} {expected : Bool} {ns : List (Node Lexeme)}
    {cs : List Condition} (parts : Parts last expected ns cs) (j : Junction) (full : 0 < cs.length) :
    (Condition.join j cs).Proper := by
  have kept := Condition.join_eq (fun c member => (parts.proper c member).1) j
  have some : cs.isEmpty = false := by
    cases cs with
    | nil => cases full
    | cons c cs => rfl
  rw [kept]
  cases j <;> exact ⟨some, nofun⟩

theorem joins_of_isOperator {a : Atom} (h : a.isOperator = true) : a.joins = [] := by
  cases a <;> first | rfl | cases h

theorem flatMap_joins_items {items : List Lexeme} (simple : ∀ x ∈ items, ∀ e, x.atom ≠ .expr e) :
    (items.map Lexeme.atom).flatMap Atom.joins = [] := by
  simp only [List.flatMap_eq_nil_iff, List.forall_mem_map]
  intro x member
  cases atom : x.atom with
  | expr e => exact absurd atom (simple x member e)
  | _ => rfl

theorem compiled_traces : Traces
    (fun n ws c => AllSound [n] → Compiled [n] ws c.joins ∧ c.Proper)
    (fun last expected ns ws cs => AllSound ns →
      Compiled ns ws (cs.flatMap Condition.joins) ∧ Parts last expected ns cs)
    (fun ns ws as => AllSound ns → Compiled ns ws (as.flatMap Atom.joins) ∧ Standing ns as) where
  bare n bare sound := by
    have full := (allSound_singleton.1 sound).1.1
    rw [bare] at full
    cases full
  inner n ws c h sound := by
    obtain ⟨below, proper⟩ := h (allSound_singleton.1 sound).2
    exact ⟨.unparted (n := .run [] [n]) below rfl nofun, proper⟩
  redundant n ws c _ h sound := by
    obtain ⟨below, proper⟩ := h (allSound_singleton.1 sound).2
    exact ⟨.unparted (n := .group [n]) below rfl nofun, proper⟩
  run items ns ws as e single h formed operator sound := by
    obtain ⟨⟨full, simple⟩, soundBelow⟩ := allSound_singleton.1 sound
    obtain ⟨below, standing⟩ := h soundBelow
    have joins : (Condition.test e).joins = as.flatMap Atom.joins := by
      refine (gathers_joins.formed (Expr.formed_of_ofAtoms formed)).trans ?_
      rw [List.flatMap_append, flatMap_joins_items simple, List.nil_append]
    refine ⟨joins ▸ .unparted (n := .run items ns) below rfl nofun, rfl, ?_⟩
    rintro _ ⟨⟩
    refine applied_of_ofAtoms formed operator (List.forall_mem_map.2 simple) fun none only => ?_
    rcases standing.single e only with ⟨n, one, -⟩ | applied
    · exact (single n (List.map_eq_nil_iff.1 none) one).elim
    · exact applied
  group ns ws as e single h formed operator sound := by
    obtain ⟨-, soundBelow⟩ := allSound_singleton.1 sound
    obtain ⟨below, standing⟩ := h soundBelow
    have joins : (Condition.test e).joins = as.flatMap Atom.joins :=
      gathers_joins.formed (Expr.formed_of_ofAtoms formed)
    refine ⟨joins ▸ .unparted (n := .group ns) below rfl nofun, rfl, ?_⟩
    rintro _ ⟨⟩
    have alone : Expr.ofAtoms ([] ++ as) = .ok e := formed
    refine applied_of_ofAtoms alone operator nofun fun _ only => ?_
    rcases standing.single e only with ⟨n, one, grouping⟩ | applied
    · rw [single n one] at grouping
      cases grouping
    · exact applied
  call name ns ws as e h formed operator sound := by
    obtain ⟨⟨-, named⟩, soundBelow⟩ := allSound_singleton.1 sound
    obtain ⟨below, standing⟩ := h soundBelow
    have joins : (Condition.test e).joins = as.flatMap Atom.joins := by
      refine (gathers_joins.formed (Expr.formed_of_ofAtoms formed)).trans ?_
      rw [List.flatMap_cons, joins_of_isOperator named, List.nil_append]
    refine ⟨joins ▸ .unparted (n := .call name ns) below rfl fun _ => standing.unmarked, rfl, ?_⟩
    rintro _ ⟨⟩
    exact applied_of_call formed named
  joined ns ws cs full h sound := by
    obtain ⟨⟨-, between⟩, soundBelow⟩ := allSound_singleton.1 sound
    obtain ⟨below, parts⟩ := h soundBelow
    exact ⟨below.parted parts.proper (parts.total full between), parts.join (firstJunction ns)
      (by have := parts.total full between; omega)⟩
  noParts last expected absent sound := by
    refine ⟨.nil, nofun, rfl, ?_⟩
    rintro (known | none)
    · obtain ⟨word, rfl⟩ := Option.isSome_iff_exists.1 known
      cases expected with
      | false => exact Nat.le_refl 0
      | true => exact (absent word rfl rfl).elim
    · exact absurd rfl none
  marker last j word ns ws cs h sound := by
    obtain ⟨own, soundRest⟩ := allSound_cons.1 sound
    obtain ⟨below, parts⟩ := h soundRest
    have compiled : Compiled [.marker j word] [] [] := .unparted (n := .marker j word) .nil rfl nofun
    refine ⟨compiled.cons below, parts.proper, parts.count, fun _ => ?_⟩
    have marked : (Node.marker j word :: ns).filterMap junction? = j :: ns.filterMap junction? := rfl
    rw [marked]
    exact parts.enough (Or.inl rfl)
  part last expected n ns us vs c cs unmarked first rest sound := by
    obtain ⟨own, soundRest⟩ := allSound_cons.1 sound
    obtain ⟨compiled, proper⟩ := first own
    obtain ⟨below, parts⟩ := rest soundRest
    refine ⟨compiled.cons below, List.forall_mem_cons.2 ⟨proper, parts.proper⟩, ?_, fun _ => ?_⟩
    · simp [unmarked, parts.count]
    · have word : n.junction? = none := by
        cases n with
        | marker j word => cases unmarked
        | _ => rfl
      have expectedOne := Bool.toNat_le expected
      rw [List.filterMap_cons_none word, List.length_cons]
      cases ns with
      | nil => simpa using Nat.le_add_left_of_le expectedOne
      | cons m ns =>
        have enough := parts.enough (Or.inr (List.cons_ne_nil m ns))
        exact Nat.add_le_add enough expectedOne
  noAtoms _ := ⟨.nil, nofun, Nat.le_refl 0, nofun⟩
  items items ns rest us vs as bs own later sound := by
    obtain ⟨here, soundRest⟩ := allSound_cons.1 sound
    obtain ⟨self, soundBelow⟩ := allSound_singleton.1 here
    obtain ⟨below, standing⟩ := own soundBelow
    obtain ⟨further, above⟩ := later soundRest
    refine ⟨?_, .run self standing above⟩
    rw [List.flatMap_append, List.flatMap_append, flatMap_joins_items self.2, List.nil_append]
    exact .cons (.unparted (n := .run items ns) below rfl nofun) further
  called name ns rest us vs as e bs own formed later sound := by
    obtain ⟨here, soundRest⟩ := allSound_cons.1 sound
    obtain ⟨⟨-, named⟩, soundBelow⟩ := allSound_singleton.1 here
    obtain ⟨below, standing⟩ := own soundBelow
    obtain ⟨further, above⟩ := later soundRest
    have joins : (Atom.expr e).joins = as.flatMap Atom.joins := by
      refine (gathers_joins.formed (Expr.formed_of_ofAtoms formed)).trans ?_
      rw [List.flatMap_cons, joins_of_isOperator named, List.nil_append]
    refine ⟨?_, .expr rfl (Or.inr (applied_of_call formed named)) above⟩
    rw [List.flatMap_cons, joins]
    exact .cons (.unparted (n := .call name ns) below rfl fun _ => standing.unmarked) further
  grouped ns rest us vs as e bs own formed later sound := by
    obtain ⟨here, soundRest⟩ := allSound_cons.1 sound
    obtain ⟨-, soundBelow⟩ := allSound_singleton.1 here
    obtain ⟨below, standing⟩ := own soundBelow
    obtain ⟨further, above⟩ := later soundRest
    have joins : e.joins = as.flatMap Atom.joins :=
      gathers_joins.formed (Expr.formed_of_ofAtoms formed)
    refine ⟨?_, .expr rfl (Or.inl rfl) above⟩
    rw [List.flatMap_cons, Atom.joins, Expr.joins, joins]
    exact .cons (.unparted (n := .group ns) below rfl nofun) further
  nested ns rest us vs cs bs own later sound := by
    obtain ⟨here, soundRest⟩ := allSound_cons.1 sound
    obtain ⟨⟨bare, between⟩, soundBelow⟩ := allSound_singleton.1 here
    obtain ⟨below, parts⟩ := own soundBelow
    obtain ⟨further, above⟩ := later soundRest
    have full : ns ≠ [] := by
      rintro rfl
      cases bare
    refine ⟨?_, .expr rfl (Or.inl rfl) above⟩
    exact .cons (below.parted parts.proper (parts.total full between)) further

end Node

end WhereClause
