import WhereClause.Proofs.Outline.Prune

namespace WhereClause

/-- What stands between two parentheses, from left to right. -/
inductive Nest (α : Type) where
  | nil
  | leaf (item : α) (rest : Nest α)
  | joint (j : Junction) (word : Token) (rest : Nest α)
  | pair (inner rest : Nest α)
deriving DecidableEq, Inhabited

namespace Nest

variable {α : Type}

def events : Nest α → List (Event α)
  | .nil => []
  | .leaf item rest => .leaf item :: rest.events
  | .joint j word rest => .joint j word :: rest.events
  | .pair inner rest => .enter :: (inner.events ++ .leave :: rest.events)

def hasJoint : Nest α → Bool
  | .nil => false
  | .leaf _ rest => rest.hasJoint
  | .joint .. => true
  | .pair _ rest => rest.hasJoint

def isBlank : Nest α → Bool
  | .nil => true
  | .pair inner rest => inner.isBlank && rest.isBlank
  | .leaf .. | .joint .. => false

def enclosed : Nest α → Nest α
  | .pair inner .nil => inner
  | n => n

def outer (n : Nest α) : Nest α := .pair n.enclosed .nil

theorem events_append_inj {m n : Nest α} {es fs : List (Event α)}
    (h : m.events ++ .leave :: es = n.events ++ .leave :: fs) : m = n ∧ es = fs := by
  induction m generalizing n es fs with
  | nil => cases n <;> simp_all [events]
  | leaf item rest ih =>
    cases n with
    | leaf other later =>
      simp only [events, List.cons_append, List.cons.injEq, Event.leaf.injEq] at h
      obtain ⟨rfl, rfl⟩ := ih h.2
      simp [h.1]
    | _ => simp [events] at h
  | joint j word rest ih =>
    cases n with
    | joint k other later =>
      simp only [events, List.cons_append, List.cons.injEq, Event.joint.injEq] at h
      obtain ⟨rfl, rfl⟩ := ih h.2
      simp [h.1]
    | _ => simp [events] at h
  | pair inner rest inside after =>
    cases n with
    | pair held later =>
      simp only [events, List.cons_append, List.append_assoc, List.cons.injEq, true_and] at h
      obtain ⟨rfl, further⟩ := inside h
      obtain ⟨rfl, rfl⟩ := after further
      simp
    | _ => simp [events] at h

theorem events_inj {m n : Nest α} : m.events = n.events ↔ m = n := by
  constructor
  · intro h
    have closed : m.events ++ [.leave] = n.events ++ [.leave] := by rw [h]
    exact (events_append_inj closed).1
  · rintro rfl
    rfl

theorem joinsAhead_events (n : Nest α) (depth : Nat) (es : List (Event α)) :
    Event.joinsAhead depth (n.events ++ es) =
      ((depth = 0 && n.hasJoint) || Event.joinsAhead depth es) := by
  induction n generalizing depth es with
  | nil => simp [events, hasJoint]
  | leaf item rest ih => simpa [events, hasJoint, Event.joinsAhead] using ih depth es
  | joint j word rest ih =>
    simp only [events, hasJoint, List.cons_append, Event.joinsAhead, ih]
    cases decide (depth = 0) <;> simp
  | pair inner rest inside after =>
    simp only [events, hasJoint, List.cons_append, List.append_assoc, Event.joinsAhead, inside, after]
    simp

theorem leavesAtEnd_events (n : Nest α) (depth : Nat) (es : List (Event α)) :
    Event.leavesAtEnd depth (n.events ++ es) = Event.leavesAtEnd depth es := by
  induction n generalizing depth es with
  | nil => rfl
  | leaf item rest ih => exact ih depth es
  | joint j word rest ih => exact ih depth es
  | pair inner rest inside after =>
    simp only [events, List.cons_append, List.append_assoc, Event.leavesAtEnd, inside, after]

theorem enclose_events (n : Nest α) : Event.enclose n.events = n.outer.events := by
  have added (h : n.enclosed = n) : .enter :: n.events ++ [.leave] = n.outer.events := by
    simp [outer, h, events]
  cases n with
  | pair inner rest =>
    have last : Event.leavesAtEnd 0 (inner.events ++ .leave :: rest.events) = rest.events.isEmpty :=
      leavesAtEnd_events inner 0 _
    simp only [events, Event.enclose, last]
    cases rest with
    | nil => rfl
    | _ => exact added rfl
  | _ => exact added rfl

def closings (ns : List (Nest α)) : List (Event α) := ns.flatMap fun n => .leave :: n.events

theorem exists_of_checkFrom {opened ts : List Token} (h : Balance.checkFrom opened ts = .ok ()) :
    ∃ (n : Nest Token) (ns : List (Nest Token)),
      ns.length = opened.length ∧ ts.map Event.ofToken = n.events ++ closings ns := by
  induction ts generalizing opened with
  | nil =>
    cases opened with
    | nil => exact ⟨.nil, [], rfl, rfl⟩
    | cons t outer => cases h
  | cons t ts ih =>
    rw [Balance.checkFrom.eq_def] at h
    dsimp only at h
    split at h
    · next opens =>
      split at h
      · cases h
      · obtain ⟨inner, ns, count, whole⟩ := ih h
        obtain ⟨rest, ns, rfl⟩ := List.exists_cons_of_length_eq_add_one count
        exact ⟨.pair inner rest, ns, Nat.succ.inj count, by
          simp [Event.ofToken, opens, whole, events, closings]⟩
    · next inside =>
      split at h
      · next closes =>
        cases opened with
        | nil => cases h
        | cons _ outer =>
          obtain ⟨rest, ns, count, whole⟩ := ih h
          exact ⟨.nil, rest :: ns, by simp [count], by
            simp [Event.ofToken, inside, closes, whole, events, closings]⟩
      · next within =>
        obtain ⟨rest, ns, count, whole⟩ := ih h
        cases word : t.junction? with
        | some j =>
          exact ⟨.joint j t rest, ns, count, by
            simp [Event.ofToken, inside, within, word, whole, events]⟩
        | none =>
          exact ⟨.leaf t rest, ns, count, by
            simp [Event.ofToken, inside, within, word, whole, events]⟩

theorem exists_of_check {ts : List Token} (h : Balance.check ts = .ok ()) :
    ∃ n : Nest Token, n.events = ts.map Event.ofToken := by
  obtain ⟨n, ns, count, whole⟩ := exists_of_checkFrom h
  obtain rfl := List.length_eq_zero_iff.1 count
  exact ⟨n, by simpa [closings] using whole.symm⟩

variable (calls : α → Bool)

def paired (items : List α) (joined : Bool) (children : List (Node α)) : List α × Node α :=
  match items.getLast?.filter calls with
  | some name => (items.dropLast, .call name children)
  | none => (items, if joined then .boolGroup children else .group children)

/-- The outline of a pair that starts with the items: the first run and what follows it in the pair.
    After a pair the run goes on in another one below it. -/
def outline : List α → Nest α → Node α × List (Node α)
  | items, .nil => (.run items [], [])
  | items, .leaf item rest => outline (items ++ [item]) rest
  | items, .joint j word rest =>
    let later := outline [] rest
    (.run items [], .marker j word :: later.1 :: later.2)
  | items, .pair inner rest =>
    let held := outline [] inner
    let later := outline [] rest
    let own := paired calls items inner.hasJoint (held.1 :: held.2)
    (.run own.1 [own.2, later.1], later.2)

def children (n : Nest α) : List (Node α) := (n.outline calls []).1 :: (n.outline calls []).2

def node (n : Nest α) : Node α :=
  if n.hasJoint then .boolGroup (n.children calls) else .group (n.children calls)

theorem paired_cases (items : List α) :
    (∃ before name, items = before ++ [name] ∧ calls name = true ∧
      ∀ joined children, paired calls items joined children = (before, .call name children)) ∨
    ((∀ name ∈ items.getLast?, calls name = false) ∧ ∀ joined children,
      paired calls items joined children =
        (items, if joined then .boolGroup children else .group children)) := by
  cases last : items.getLast?.filter calls with
  | none =>
    refine Or.inr ⟨?_, fun joined children => by simp only [paired, last]⟩
    simpa using last
  | some name =>
    obtain ⟨found, named⟩ := Option.filter_eq_some_iff.1 last
    obtain ⟨before, rfl⟩ := List.getLast?_eq_some_iff.1 found
    refine Or.inl ⟨before, name, rfl, named, fun joined children => ?_⟩
    simp only [paired, last, List.dropLast_concat]

theorem enter_eq_openNode (joined : Bool) (c : Cursor α) :
    c.enter calls joined =
      c.openNode (paired calls c.items joined []).1 (paired calls c.items joined []).2 := by
  cases last : c.items.getLast? with
  | none => simp only [Cursor.enter, paired, last, Option.filter_none]
  | some name =>
    simp only [Cursor.enter, paired, last, Option.filter_some]
    cases calls name <;> rfl

theorem paired_fst (items : List α) (joined : Bool) (children others : List (Node α)) :
    (paired calls items joined children).1 = (paired calls items joined others).1 := by
  unfold paired
  split <;> rfl

theorem isScope_paired (items : List α) (joined : Bool) (children : List (Node α)) :
    (paired calls items joined children).2.isScope = true := by
  unfold paired
  split
  · rfl
  · cases joined <;> rfl

theorem foldl_add_paired (items : List α) (joined : Bool) (children more : List (Node α)) :
    more.foldl Node.add (paired calls items joined children).2 =
      (paired calls items joined (children ++ more)).2 := by
  induction more generalizing children with
  | nil => simp
  | cons n more ih =>
    have first : (paired calls items joined children).2.add n =
        (paired calls items joined (children ++ [n])).2 := by
      unfold paired
      split
      · rfl
      · cases joined <;> rfl
    rw [List.foldl_cons, first, ih, List.append_assoc, List.singleton_append]

theorem isScope_add (pair n : Node α) : (pair.add n).isScope = pair.isScope := by
  cases pair <;> rfl

theorem scope?_runs {runs : List (Node α)} (passed : ∀ n ∈ runs, n.isScope = false)
    {pair : Node α} (scope : pair.isScope = true) (n : Node α) (outer : List (Node α)) :
    Cursor.scope? n (runs ++ pair :: outer) =
      some (pair.add (runs.foldl (fun n holder => holder.add n) n), outer) := by
  induction runs generalizing n with
  | nil => simp [Cursor.scope?, scope]
  | cons run runs ih =>
    have own : run.isScope = false := passed run List.mem_cons_self
    have further := ih (fun m member => passed m (List.mem_cons_of_mem _ member)) (run.add n)
    simp [Cursor.scope?, own, further]

/-- From inside a pair the cursor comes out with what the rest of the pair determines, whatever stands
    around the pair and after it. -/
theorem run?_events (n : Nest α) (items : List α) {runs : List (Node α)}
    (passed : ∀ n ∈ runs, n.isScope = false) {pair : Node α} (scope : pair.isScope = true)
    (holder : Node α) (outer : List (Node α)) (es : List (Event α)) :
    Cursor.run? calls ⟨items, runs ++ pair :: holder :: outer⟩ (n.events ++ .leave :: es) =
      Cursor.run? calls ⟨[], holder.add (((runs.foldl (fun n holder => holder.add n)
        (outline calls items n).1) :: (outline calls items n).2).foldl Node.add pair) :: outer⟩ es := by
  have none : ∀ n ∈ ([] : List (Node α)), n.isScope = false := nofun
  induction n generalizing items runs pair holder outer es with
  | nil =>
    simp [events, Cursor.run?, Cursor.leave?, Cursor.run, scope?_runs passed scope, outline]
  | leaf item rest ih =>
    simp only [events, List.cons_append, Cursor.run?, Cursor.leaf, outline]
    exact ih (items ++ [item]) passed scope holder outer es
  | joint j word rest ih =>
    have marked : ((pair.add (runs.foldl (fun n holder => holder.add n) (.run items []))).add
        (.marker j word)).isScope = true := by rw [isScope_add, isScope_add, scope]
    have later := ih [] none marked holder outer es
    simpa [events, Cursor.run?, Cursor.joint?, Cursor.run, scope?_runs passed scope, outline] using later
  | pair inner rest inside after =>
    have joined : Event.joinsAhead 0 (inner.events ++ .leave :: (rest.events ++ .leave :: es)) =
        inner.hasJoint := by
      simp [joinsAhead_events, Event.joinsAhead]
    -- The pair is entered below the run, which is then one more run to close.
    let own := paired calls items inner.hasJoint (inner.children calls)
    have held := inside [] none
      (isScope_paired calls items inner.hasJoint []) (.run own.1 [])
      (runs ++ pair :: holder :: outer) (rest.events ++ .leave :: es)
    have within : ∀ n ∈ Node.run own.1 [own.2] :: runs, n.isScope = false :=
      List.forall_mem_cons.2 ⟨rfl, passed⟩
    have later := after [] within scope holder outer es
    rw [List.nil_append, List.foldl_nil, foldl_add_paired, List.nil_append] at held
    simp only [events, List.cons_append, List.append_assoc, Cursor.run?, joined, enter_eq_openNode,
      Cursor.openNode, paired_fst calls items inner.hasJoint [] (inner.children calls)]
    exact held.trans (later.trans rfl)

theorem ofEvents?_events (n : Nest α) :
    Node.ofEvents? calls n.events = some (.run [] (Node.pruneAll [n.enclosed.node calls])) := by
  have entered : Cursor.start.run? calls (Event.enclose n.events) =
      some ⟨[], [.run [] [n.enclosed.node calls]]⟩ := by
    have joined : Event.joinsAhead 0 (n.enclosed.events ++ [.leave]) = n.enclosed.hasJoint := by
      simp [joinsAhead_events, Event.joinsAhead]
    have none : ∀ n ∈ ([] : List (Node α)), n.isScope = false := nofun
    have held := run?_events calls n.enclosed [] none
      (isScope_paired calls [] n.enclosed.hasJoint []) (.run [] []) [] []
    rw [List.nil_append, List.foldl_nil, foldl_add_paired, List.nil_append] at held
    rw [enclose_events, outer, events, events, Cursor.run?, joined, enter_eq_openNode]
    exact held
  have blank : Node.pruneAll [n.enclosed.node calls, .run [] []] =
      Node.pruneAll [n.enclosed.node calls] := by
    rw [Node.pruneAll_cons, Node.pruneAll.eq_2 (.run [] [])]
    exact List.append_nil _
  rw [Node.ofEvents?, entered, ← blank]
  rfl

end Nest

end WhereClause
