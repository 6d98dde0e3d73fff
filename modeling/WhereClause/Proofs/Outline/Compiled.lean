import WhereClause.Compile
import WhereClause.Proofs.Expr.Formed

namespace WhereClause

namespace Outcome

variable {α β : Type}

theorem andThen_result_ok {x : Outcome α} {next : α → Outcome β} {b : β} :
    (x.andThen next).result = .ok b ↔ ∃ a, x.result = .ok a ∧ (next a).result = .ok b := by
  obtain ⟨warnings, result⟩ := x
  cases result <;> simp [andThen]

theorem eq_of_result_ok {x : Outcome α} {a : α} (h : x.result = .ok a) : x = ⟨x.warnings, .ok a⟩ := by
  rw [← h]

theorem andThen_eq_mk {x : Outcome α} {next : α → Outcome β} {ws : List Warning} {b : β} :
    x.andThen next = ⟨ws, .ok b⟩ ↔
      ∃ us a vs, x = ⟨us, .ok a⟩ ∧ next a = ⟨vs, .ok b⟩ ∧ us ++ vs = ws := by
  obtain ⟨warnings, result⟩ := x
  cases result with
  | error fault => simp [andThen]
  | ok a =>
    cases later : next a
    simp only [andThen, later, mk.injEq, Except.ok.injEq]
    constructor
    · rintro ⟨rfl, rfl⟩
      exact ⟨warnings, a, _, ⟨rfl, rfl⟩, later, rfl⟩
    · rintro ⟨_, _, vs, ⟨rfl, rfl⟩, found, rfl⟩
      rw [later] at found
      cases found
      exact ⟨rfl, rfl⟩

theorem ok_eq_mk {a b : α} {ws : List Warning} : ok a = ⟨ws, .ok b⟩ ↔ ws = [] ∧ a = b := by
  simp [ok, eq_comm]

theorem ofExcept_eq_mk {x : Except Fault α} {ws : List Warning} {a : α} :
    ofExcept x = ⟨ws, .ok a⟩ ↔ ws = [] ∧ x = .ok a := by
  cases x <;> simp [ofExcept, ok, fail, eq_comm]

theorem ofExcept_eq_ok {x : Except Fault α} {a : α} : (ofExcept x).result = .ok a ↔ x = .ok a := by
  cases x <;> simp [ofExcept, ok, fail]

end Outcome

namespace Node

def mixed (ns : List (Node Lexeme)) : List Warning :=
  if (ns.filterMap junction?).any (· ≠ firstJunction ns) then [.mixed (firstJunction ns)] else []

/-- Properties of nodes and what they compile to, with the warnings on the way: as a condition, as the
    parts between joining words and as atoms among others. Of parts it is also known which joining word
    came last and whether a part has to come next. -/
structure Traces (whole : Node Lexeme → List Warning → Condition → Prop)
    (parts : Option Token → Bool → List (Node Lexeme) → List Warning → List Condition → Prop)
    (among : List (Node Lexeme) → List Warning → List Atom → Prop) : Prop where
  bare : ∀ n, n.isBare = true → whole n [] .empty
  -- A run of no items and one child, or a pair with nothing but another pair in it.
  inner : ∀ n ws c, whole n ws c → whole (.run [] [n]) ws c
  redundant : ∀ n ws c, n.elided.isGrouping = true → whole n ws c → whole (.group [n]) ws c
  run : ∀ items ns ws as e, (∀ n, items = [] → ns = [n] → False) → among ns ws as →
    Expr.ofAtoms (items.map Lexeme.atom ++ as) = .ok e → e.hasOperator = true →
    whole (.run items ns) ws (.test e)
  group : ∀ ns ws as e, (∀ n, ns = [n] → n.elided.isGrouping = false) → among ns ws as →
    Expr.ofAtoms as = .ok e → e.hasOperator = true → whole (.group ns) ws (.test e)
  call : ∀ name ns ws as e, among ns ws as → Expr.ofAtoms (name.atom :: as) = .ok e →
    e.hasOperator = true → whole (.call name ns) ws (.test e)
  joined : ∀ ns ws cs, ns ≠ [] → parts none true ns ws cs →
    whole (.boolGroup ns) (mixed ns ++ ws) (Condition.join (firstJunction ns) cs)
  noParts : ∀ last expected, (∀ word, expected = true → last = some word → False) →
    parts last expected [] [] []
  marker : ∀ last j word ns ws cs, parts (some word) true ns ws cs →
    parts last false (.marker j word :: ns) ws cs
  part : ∀ last expected n ns us vs c cs, n.isMarker = false → whole n us c →
    parts last false ns vs cs → parts last expected (n :: ns) (us ++ vs) (c :: cs)
  noAtoms : among [] [] []
  items : ∀ items ns rest us vs as bs, among ns us as → among rest vs bs →
    among (.run items ns :: rest) (us ++ vs) (items.map Lexeme.atom ++ as ++ bs)
  called : ∀ name ns rest us vs as e bs, among ns us as → Expr.ofAtoms (name.atom :: as) = .ok e →
    among rest vs bs → among (.call name ns :: rest) (us ++ vs) (.expr e :: bs)
  grouped : ∀ ns rest us vs as e bs, among ns us as → Expr.ofAtoms as = .ok e → among rest vs bs →
    among (.group ns :: rest) (us ++ vs) (.expr (.group e) :: bs)
  nested : ∀ ns rest us vs cs bs, parts none true ns us cs → among rest vs bs →
    among (.boolGroup ns :: rest) (mixed ns ++ us ++ vs)
      (.expr (.nested (Condition.join (firstJunction ns) cs)) :: bs)

theorem joined_eq_mk {ns : List (Node Lexeme)} {parts : Outcome (List Condition)} {ws : List Warning}
    {c : Condition} :
    joined ns parts = ⟨ws, .ok c⟩ ↔
      ∃ us cs, parts = ⟨us, .ok cs⟩ ∧ mixed ns ++ us = ws ∧ Condition.join (firstJunction ns) cs = c := by
  simp only [joined, mixed]
  by_cases both : ((ns.filterMap junction?).any (· ≠ firstJunction ns)) = true
  · simp only [both, if_true, Outcome.bind_eq, Outcome.pure_eq, Outcome.andThen_eq_mk,
      Outcome.ok_eq_mk, Outcome.warn, Outcome.mk.injEq]
    constructor
    · rintro ⟨_, _, _, ⟨rfl, -⟩, ⟨us, cs, _, found, ⟨rfl, same⟩, rfl⟩, rfl⟩
      exact ⟨us, cs, found, by simp, same⟩
    · rintro ⟨us, cs, found, rfl, same⟩
      exact ⟨_, (), us, ⟨rfl, trivial⟩, ⟨us, cs, [], found, ⟨rfl, same⟩, by simp⟩, rfl⟩
  · rw [if_neg both, if_neg both]
    simp only [Outcome.bind_eq, Outcome.pure_eq, Outcome.andThen_eq_mk, Outcome.ok_eq_mk]
    constructor
    · rintro ⟨us, cs, _, found, ⟨rfl, same⟩, rfl⟩
      exact ⟨us, cs, found, by simp, same⟩
    · rintro ⟨us, cs, found, rfl, same⟩
      exact ⟨us, cs, [], found, ⟨rfl, same⟩, by simp⟩

theorem test_eq_mk {n : Node Lexeme} {atoms : Outcome (List Atom)} {ws : List Warning} {c : Condition} :
    test n atoms = ⟨ws, .ok c⟩ ↔
      ∃ as e, atoms = ⟨ws, .ok as⟩ ∧ Expr.ofAtoms as = .ok e ∧ e.hasOperator = true ∧ c = .test e := by
  simp only [test, Outcome.bind_eq, Outcome.andThen_eq_mk]
  constructor
  · rintro ⟨us, as, vs, found, ⟨_, e, _, built, rest, rfl⟩, rfl⟩
    obtain ⟨rfl, formed⟩ := Outcome.ofExcept_eq_mk.1 built
    split at rest
    · next operator =>
      obtain ⟨rfl, rfl⟩ := Outcome.ok_eq_mk.1 rest
      exact ⟨as, e, by simpa using found, formed, operator, rfl⟩
    · cases rest
  · rintro ⟨as, e, found, formed, operator, rfl⟩
    have built : Outcome.ofExcept (Expr.ofAtoms as) = ⟨[], .ok e⟩ :=
      Outcome.ofExcept_eq_mk.2 ⟨rfl, formed⟩
    refine ⟨ws, as, [], found, ⟨[], e, [], built, ?_, rfl⟩, by simp⟩
    rw [if_pos operator]
    rfl

theorem map_eq_mk {x : Outcome (List Atom)} {f : List Atom → List Atom} {ws : List Warning}
    {bs : List Atom} :
    (x.andThen fun as => .ok (f as)) = ⟨ws, .ok bs⟩ ↔ ∃ as, x = ⟨ws, .ok as⟩ ∧ f as = bs := by
  simp only [Outcome.andThen_eq_mk, Outcome.ok_eq_mk]
  constructor
  · rintro ⟨us, as, _, found, ⟨rfl, same⟩, rfl⟩
    exact ⟨as, by simpa using found, same⟩
  · rintro ⟨as, found, same⟩
    exact ⟨ws, as, [], found, ⟨rfl, same⟩, by simp⟩

namespace Traces

variable {whole : Node Lexeme → List Warning → Condition → Prop}
  {parts : Option Token → Bool → List (Node Lexeme) → List Warning → List Condition → Prop}
  {among : List (Node Lexeme) → List Warning → List Atom → Prop}

theorem all (k : Traces whole parts among) :
    (∀ n ws c, compile n = ⟨ws, .ok c⟩ → whole n ws c) ∧
      (∀ last expected ns ws cs, partsOf last expected ns = ⟨ws, .ok cs⟩ →
        parts last expected ns ws cs) ∧
      (∀ ns ws as, atomsOf ns = ⟨ws, .ok as⟩ → among ns ws as) ∧
      (∀ n us own here rest vs bs, atoms n = ⟨us, .ok own⟩ → asOperand n own = ⟨[], .ok here⟩ →
        among rest vs bs → among (n :: rest) (us ++ vs) (here ++ bs)) := by
  -- One case for each equation of the compilation. The last property is about a node among others, whose
  -- atoms `asOperand` has made one expression of if it is a call.
  refine Node.compile.mutual_induct
    (fun n => ∀ ws c, compile n = ⟨ws, .ok c⟩ → whole n ws c)
    (fun last expected ns => ∀ ws cs, partsOf last expected ns = ⟨ws, .ok cs⟩ →
      parts last expected ns ws cs)
    (fun ns => ∀ ws as, atomsOf ns = ⟨ws, .ok as⟩ → among ns ws as)
    (fun n => ∀ us own here rest vs bs, atoms n = ⟨us, .ok own⟩ → asOperand n own = ⟨[], .ok here⟩ →
      among rest vs bs → among (n :: rest) (us ++ vs) (here ++ bs))
    ?bareRun ?innerRun ?run ?bareGroup ?innerGroup ?singleGroup ?group ?bareBool ?bool ?call ?marker
    ?items ?called ?grouped ?nested ?lone ?missing ?noParts ?early ?next ?part ?noAtoms ?atoms
  case bareRun =>
    rintro ws c ⟨⟩
    exact k.bare _ rfl
  case innerRun =>
    intro n ih ws c h
    rw [compile] at h
    exact k.inner n ws c (ih ws c h)
  case run =>
    intro items ns bare single ih ws c h
    rw [compile.eq_3 items ns bare single] at h
    simp only [Outcome.bind_eq, Outcome.pure_eq, test_eq_mk, map_eq_mk] at h
    obtain ⟨_, e, ⟨as, found, rfl⟩, formed, operator, rfl⟩ := h
    exact k.run items ns ws as e single (ih ws as found) formed operator
  case bareGroup =>
    rintro ws c ⟨⟩
    exact k.bare _ rfl
  case innerGroup =>
    intro n grouping ih ws c h
    rw [compile, if_pos grouping] at h
    exact k.redundant n ws c grouping (ih ws c h)
  case singleGroup =>
    intro n grouping ih ws c h
    rw [compile, if_neg grouping, test_eq_mk] at h
    obtain ⟨as, e, found, formed, operator, rfl⟩ := h
    refine k.group [n] ws as e ?_ (ih ws as found) formed operator
    rintro m ⟨⟩
    simpa using grouping
  case group =>
    intro ns bare single ih ws c h
    rw [compile.eq_6 ns bare single, test_eq_mk] at h
    obtain ⟨as, e, found, formed, operator, rfl⟩ := h
    exact k.group ns ws as e (fun n only => (single n only).elim) (ih ws as found) formed operator
  case bareBool =>
    rintro ws c ⟨⟩
    exact k.bare _ rfl
  case bool =>
    intro ns bare ih ws c h
    rw [compile.eq_8 ns bare, joined_eq_mk] at h
    obtain ⟨us, cs, found, rfl, rfl⟩ := h
    exact k.joined ns us cs bare (ih us cs found)
  case call =>
    intro name ns ih ws c h
    rw [compile] at h
    simp only [Outcome.bind_eq, Outcome.pure_eq, test_eq_mk, map_eq_mk] at h
    obtain ⟨_, e, ⟨as, found, rfl⟩, formed, operator, rfl⟩ := h
    exact k.call name ns ws as e (ih ws as found) formed operator
  case marker =>
    rintro j word ws c ⟨⟩
  case items =>
    intro items ns ih us own here rest vs bs h operand above
    rw [atoms] at h
    obtain ⟨as, found, rfl⟩ := map_eq_mk.1 h
    cases operand
    exact k.items items ns rest us vs as bs (ih us as found) above
  case called =>
    intro name ns ih us own here rest vs bs h operand above
    rw [atoms] at h
    obtain ⟨as, found, rfl⟩ := map_eq_mk.1 h
    obtain ⟨_, e, _, built, same, -⟩ := Outcome.andThen_eq_mk.1 operand
    obtain ⟨-, formed⟩ := Outcome.ofExcept_eq_mk.1 built
    obtain ⟨-, rfl⟩ := Outcome.ok_eq_mk.1 same
    exact k.called name ns rest us vs as e bs (ih us as found) formed above
  case grouped =>
    intro ns ih us own here rest vs bs h operand above
    rw [atoms] at h
    obtain ⟨us, as, _, found, grouped, rfl⟩ := Outcome.andThen_eq_mk.1 h
    obtain ⟨_, e, _, built, same, rfl⟩ := Outcome.andThen_eq_mk.1 grouped
    obtain ⟨rfl, formed⟩ := Outcome.ofExcept_eq_mk.1 built
    obtain ⟨rfl, rfl⟩ := Outcome.ok_eq_mk.1 same
    cases operand
    simpa using k.grouped ns rest us vs as e bs (ih us as found) formed above
  case nested =>
    intro ns ih us own here rest vs bs h operand above
    rw [atoms] at h
    obtain ⟨ws, c, _, built, same, rfl⟩ := Outcome.andThen_eq_mk.1 h
    obtain ⟨us, cs, found, rfl, rfl⟩ := joined_eq_mk.1 built
    obtain ⟨rfl, rfl⟩ := Outcome.ok_eq_mk.1 same
    cases operand
    simpa using k.nested ns rest us vs cs bs (ih us cs found) above
  case lone =>
    rintro j word us own here rest vs bs ⟨⟩
  case missing =>
    rintro word ws cs ⟨⟩
  case noParts =>
    intro last expected present ws cs h
    rw [partsOf.eq_2 last expected present] at h
    cases h
    exact k.noParts last expected fun word needed found => present word needed found
  case early =>
    rintro last j word ns ws cs ⟨⟩
  case next =>
    intro last expected j word ns late ih ws cs h
    rw [partsOf, if_neg late] at h
    obtain rfl : expected = false := by simpa using late
    exact k.marker last j word ns ws cs (ih ws cs h)
  case part =>
    intro last expected n ns unmarked first ih ws cs h
    rw [partsOf.eq_4 last expected n ns unmarked] at h
    obtain ⟨us, c, _, found, later, rfl⟩ := Outcome.andThen_eq_mk.1 h
    obtain ⟨vs, rest, _, further, same, rfl⟩ := Outcome.andThen_eq_mk.1 later
    obtain ⟨rfl, rfl⟩ := Outcome.ok_eq_mk.1 same
    have noMarker : n.isMarker = false := by
      cases n with
      | marker j word => exact absurd rfl (unmarked j word)
      | _ => rfl
    simpa using k.part last expected n ns us vs c rest noMarker (first us c found) (ih vs rest further)
  case noAtoms =>
    rintro ws as ⟨⟩
    exact k.noAtoms
  case atoms =>
    intro n ns first ih ws as h
    rw [atomsOf] at h
    obtain ⟨us, own, _, found, operands, rfl⟩ := Outcome.andThen_eq_mk.1 h
    obtain ⟨none, here, _, operand, later, rfl⟩ := Outcome.andThen_eq_mk.1 operands
    obtain ⟨vs, rest, _, further, same, rfl⟩ := Outcome.andThen_eq_mk.1 later
    obtain ⟨rfl, rfl⟩ := Outcome.ok_eq_mk.1 same
    have quiet : none = [] := by
      have warnings := congrArg Outcome.warnings operand
      unfold asOperand at warnings
      split at warnings
      · cases formed : Expr.ofAtoms own <;> rw [formed] at warnings <;> exact warnings.symm
      · exact warnings.symm
    subst quiet
    simpa using first us own here ns vs rest found operand (ih vs rest further)

theorem compile (k : Traces whole parts among) {n : Node Lexeme} {ws : List Warning} {c : Condition}
    (h : n.compile = ⟨ws, .ok c⟩) : whole n ws c := k.all.1 n ws c h

end Traces

structure Keeps (whole : Node Lexeme → Condition → Prop)
    (parts : List (Node Lexeme) → List Condition → Prop)
    (among : List (Node Lexeme) → List Atom → Prop) : Prop where
  bare : ∀ n, n.isBare = true → whole n .empty
  inner : ∀ n c, whole n c → whole (.run [] [n]) c
  redundant : ∀ n c, n.elided.isGrouping = true → whole n c → whole (.group [n]) c
  run : ∀ items ns as e, among ns as → Expr.ofAtoms (items.map Lexeme.atom ++ as) = .ok e →
    e.hasOperator = true → whole (.run items ns) (.test e)
  group : ∀ ns as e, among ns as → Expr.ofAtoms as = .ok e → e.hasOperator = true →
    whole (.group ns) (.test e)
  call : ∀ name ns as e, among ns as → Expr.ofAtoms (name.atom :: as) = .ok e →
    e.hasOperator = true → whole (.call name ns) (.test e)
  joined : ∀ ns cs, parts ns cs → whole (.boolGroup ns) (Condition.join (firstJunction ns) cs)
  noParts : parts [] []
  marker : ∀ j word ns cs, parts ns cs → parts (.marker j word :: ns) cs
  part : ∀ n ns c cs, n.isMarker = false → whole n c → parts ns cs → parts (n :: ns) (c :: cs)
  noAtoms : among [] []
  items : ∀ items ns rest as bs, among ns as → among rest bs →
    among (.run items ns :: rest) (items.map Lexeme.atom ++ as ++ bs)
  called : ∀ name ns rest as e bs, among ns as → Expr.ofAtoms (name.atom :: as) = .ok e →
    among rest bs → among (.call name ns :: rest) (.expr e :: bs)
  grouped : ∀ ns rest as e bs, among ns as → Expr.ofAtoms as = .ok e → among rest bs →
    among (.group ns :: rest) (.expr (.group e) :: bs)
  nested : ∀ ns rest cs bs, parts ns cs → among rest bs →
    among (.boolGroup ns :: rest) (.expr (.nested (Condition.join (firstJunction ns) cs)) :: bs)

namespace Keeps

variable {whole : Node Lexeme → Condition → Prop} {parts : List (Node Lexeme) → List Condition → Prop}
  {among : List (Node Lexeme) → List Atom → Prop}

theorem traces (k : Keeps whole parts among) :
    Traces (fun n _ c => whole n c) (fun _ _ ns _ cs => parts ns cs) (fun ns _ as => among ns as) where
  bare := k.bare
  inner n _ := k.inner n
  redundant n _ := k.redundant n
  run items ns _ as e _ := k.run items ns as e
  group ns _ as e _ := k.group ns as e
  call name ns _ := k.call name ns
  joined ns _ cs _ := k.joined ns cs
  noParts _ _ _ := k.noParts
  marker _ j word ns _ := k.marker j word ns
  part _ _ n ns _ _ := k.part n ns
  noAtoms := k.noAtoms
  items items ns rest _ _ := k.items items ns rest
  called name ns rest _ _ := k.called name ns rest
  grouped ns rest _ _ := k.grouped ns rest
  nested ns rest _ _ := k.nested ns rest

theorem compile (k : Keeps whole parts among) {n : Node Lexeme} {c : Condition}
    (h : n.compile.result = .ok c) : whole n c := k.traces.compile (Outcome.eq_of_result_ok h)

end Keeps

end Node

theorem Condition.exists_of_any {s : Settings} {v : Vocabulary} {filter : String}
    {p : Condition → Bool} (h : (compile s v filter).result.toOption.any p = true) :
    ∃ c, (compile s v filter).result = .ok c ∧ p c = true := by
  cases compiled : (compile s v filter).result with
  | error fault => simp [compiled, Except.toOption] at h
  | ok c => exact ⟨c, rfl, by simpa [compiled, Except.toOption] using h⟩

def Node.ofFilter (s : Settings) (v : Vocabulary) (filter : String) : Except Fault (Node Lexeme) := do
  let events ← Event.ofFilter s v filter
  Node.ofEvents Lexeme.namesFunction events

theorem Condition.compile_eq_ok {s : Settings} {v : Vocabulary} {filter : String} {c : Condition} :
    (compile s v filter).result = .ok c ↔
      ∃ outline, Node.ofFilter s v filter = .ok outline ∧ outline.compile.result = .ok c := by
  constructor
  · intro h
    obtain ⟨events, read, h⟩ := Outcome.andThen_result_ok.1 h
    obtain ⟨outline, built, compiled⟩ := Outcome.andThen_result_ok.1 h
    have read : Event.ofFilter s v filter = .ok events := Outcome.ofExcept_eq_ok.1 read
    exact ⟨outline, bind_eq_ok.2 ⟨events, read, Outcome.ofExcept_eq_ok.1 built⟩, compiled⟩
  · rintro ⟨outline, found, compiled⟩
    obtain ⟨events, read, built⟩ := bind_eq_ok.1 found
    refine Outcome.andThen_result_ok.2 ⟨events, Outcome.ofExcept_eq_ok.2 read, ?_⟩
    exact Outcome.andThen_result_ok.2 ⟨outline, Outcome.ofExcept_eq_ok.2 built, compiled⟩

theorem Condition.compile_eq_mk {s : Settings} {v : Vocabulary} {filter : String} {ws : List Warning}
    {c : Condition} (h : compile s v filter = ⟨ws, .ok c⟩) :
    ∃ outline, Node.ofFilter s v filter = .ok outline ∧ outline.compile = ⟨ws, .ok c⟩ := by
  obtain ⟨_, events, _, lifted, later, rfl⟩ := Outcome.andThen_eq_mk.1 h
  obtain ⟨_, outline, _, raised, compiled, rfl⟩ := Outcome.andThen_eq_mk.1 later
  obtain ⟨rfl, read⟩ := Outcome.ofExcept_eq_mk.1 lifted
  obtain ⟨rfl, built⟩ := Outcome.ofExcept_eq_mk.1 raised
  exact ⟨outline, bind_eq_ok.2 ⟨events, read, built⟩, by simpa using compiled⟩

theorem Node.ofFilter_eq_ok {s : Settings} {v : Vocabulary} {filter : String} {outline : Node Lexeme}
    (h : ofFilter s v filter = .ok outline) :
    ∃ tokens, (Token.scan s.tokens filter).complete = .ok tokens ∧
      Balance.check (Token.significant tokens) = .ok () ∧
      ofEvents? Lexeme.namesFunction
        (Event.resolve v s.stem 0 ((Token.significant tokens).map Event.ofToken)) = some outline := by
  obtain ⟨events, read, built⟩ := bind_eq_ok.1 h
  obtain ⟨tokens, scanned, read⟩ := bind_eq_ok.1 read
  obtain ⟨resolved, read, same⟩ := bind_eq_ok.1 read
  obtain ⟨_, balanced, mapped⟩ := bind_eq_ok.1 read
  cases mapped
  cases same
  refine ⟨tokens, scanned, balanced, ?_⟩
  unfold Node.ofEvents at built
  split at built
  · next n found =>
    cases built
    exact found
  · cases built

end WhereClause
