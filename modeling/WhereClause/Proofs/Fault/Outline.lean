import WhereClause.Proofs.Fault.Expr
import WhereClause.Proofs.Outline.Every
import WhereClause.Proofs.Outline.Words

namespace WhereClause

namespace Outcome

variable {α β : Type} {p : Fault → Prop}

def fault? (x : Outcome α) : Option Fault :=
  match x.result with
  | .error f => some f
  | .ok _ => none

theorem result_of_fault? {x : Outcome α} {f : Fault} (h : x.fault? = some f) : x.result = .error f := by
  unfold fault? at h
  split at h
  · next failed => rw [failed, Option.some.inj h]
  · cases h

theorem failsWith_ofExcept {x : Except Fault α} (h : FailsWith p x) : FailsWith p (ofExcept x).result := by
  cases x <;> exact h

theorem failsWith_andThen {x : Outcome α} {next : α → Outcome β} (h : FailsWith p x.result)
    (later : ∀ a, x.result = .ok a → FailsWith p (next a).result) : FailsWith p (x.andThen next).result := by
  obtain ⟨warnings, result⟩ := x
  cases result with
  | error f => exact failsWith_error (h f rfl)
  | ok a => exact later a rfl

end Outcome

namespace Node

variable {listed lost : Token → Prop}

theorem leavesOf_singleton {α : Type} (n : Node α) : leavesOf [n] = n.own ++ leavesOf n.children := by
  cases n <;> simp [leavesOf, leaves, own, children]

/-- All tokens of the nodes are listed, and those that nothing could be made of are lost. -/
structure Lists (listed lost : Token → Prop) (ns : List (Node Lexeme)) : Prop where
  words : ∀ t ∈ words Lexeme.token ns, listed t
  unknown : Every (·.UnknownIn lost) ns

theorem Lists.below {n : Node Lexeme} (h : Lists listed lost [n]) : Lists listed lost n.children where
  words t member := h.words t (words_singleton Lexeme.token n ▸ List.mem_append_right _ member)
  unknown x member := h.unknown x (leavesOf_singleton n ▸ List.mem_append_right _ member)

theorem Lists.cons {n : Node Lexeme} {ns : List (Node Lexeme)} (h : Lists listed lost (n :: ns)) :
    Lists listed lost [n] ∧ Lists listed lost ns := by
  have split := words_append Lexeme.token [n] ns
  obtain ⟨own, rest⟩ := every_cons.1 h.unknown
  obtain ⟨here, later⟩ := List.forall_mem_append.1 (split ▸ h.words)
  exact ⟨⟨here, own⟩, ⟨later, rest⟩⟩

theorem Lists.word {j : Junction} {word : Token} (h : Lists listed lost [.marker j word]) : listed word :=
  h.words word List.mem_cons_self

theorem unknownIn_of_atomsOf {ns : List (Node Lexeme)} {as : List Atom} (h : (atomsOf ns).result = .ok as)
    (unknown : Every (·.UnknownIn lost) ns) : ∀ a ∈ as, a.UnknownIn lost := by
  have keeps : Keeps (fun n _ => Every (·.UnknownIn lost) [n] → True)
      (fun ns cs => Every (·.UnknownIn lost) ns → ∀ c ∈ cs, True)
      (fun ns as => Every (·.UnknownIn lost) ns → ∀ a ∈ as, a.UnknownIn lost) :=
    keeps_of_formed (fun _ => True) (fun _ _ _ _ => trivial) (fun _ _ => nofun) (fun _ _ => nofun)
      (fun _ _ _ => nofun) trivial (fun _ _ => trivial) (fun _ _ _ => trivial)
  exact keeps.traces.all.2.2.1 ns _ as (Outcome.eq_of_result_ok h) unknown

theorem unknownIn_of_items (items : List Lexeme) {ns : List (Node Lexeme)} {bs : List Atom}
    (h : ((atomsOf ns).andThen fun as => .ok (items.map Lexeme.atom ++ as)).result = .ok bs)
    (unknown : Every (·.UnknownIn lost) [.run items ns]) : ∀ a ∈ bs, a.UnknownIn lost := by
  obtain ⟨own, below⟩ := every_run.1 unknown
  obtain ⟨as, found, whole⟩ := Outcome.andThen_result_ok.1 h
  cases whole
  exact List.forall_mem_append.2 ⟨own, unknownIn_of_atomsOf found below⟩

theorem failsWith_joined {ns : List (Node Lexeme)} {parts : Outcome (List Condition)} {p : Fault → Prop}
    (h : FailsWith p parts.result) : FailsWith p (joined ns parts).result := by
  have joins : FailsWith p
      (parts.andThen fun cs => .ok (Condition.join (firstJunction ns) cs)).result :=
    Outcome.failsWith_andThen h fun _ _ => failsWith_ok _
  simp only [joined]
  split
  · exact Outcome.failsWith_andThen (failsWith_ok ()) fun _ _ => joins
  · exact joins

variable (known : ∀ t, lost t → listed t)

include known

theorem failsWith_test {n : Node Lexeme} {atoms : Outcome (List Atom)} (h : Lists listed lost [n])
    (fails : FailsWith (Fault.Cites listed lost) atoms.result)
    (unknown : ∀ as, atoms.result = .ok as → ∀ a ∈ as, a.UnknownIn lost) :
    FailsWith (Fault.Cites listed lost) (test n atoms).result := by
  refine Outcome.failsWith_andThen fails fun as found => ?_
  have formed := Expr.failsWith_ofAtoms known (unknown as found)
  refine Outcome.failsWith_andThen (Outcome.failsWith_ofExcept formed) fun e _ => ?_
  split
  · exact failsWith_ok _
  · refine failsWith_error (Fault.cites_missingOperator fun t first => h.words t ?_)
    rw [firstToken?_eq] at first
    exact List.mem_of_head? first

theorem failsWith_all :
    (∀ n, Lists listed lost [n] → FailsWith (Fault.Cites listed lost) (compile n).result) ∧
      (∀ last expected ns, (∀ word ∈ last, listed word) → Lists listed lost ns →
        FailsWith (Fault.Cites listed lost) (partsOf last expected ns).result) ∧
      (∀ ns, Lists listed lost ns → FailsWith (Fault.Cites listed lost) (atomsOf ns).result) ∧
      ∀ n, Lists listed lost [n] →
        FailsWith (Fault.Cites listed lost) ((atoms n).andThen (asOperand n)).result := by
  have first : ∀ word ∈ (none : Option Token), listed word := fun word h => absurd h (Option.not_mem_none word)
  -- One case for each equation of the compilation. The last property is about a node among others, whose
  -- atoms `asOperand` makes one expression of if it is a call.
  refine Node.compile.mutual_induct
    (fun n => Lists listed lost [n] → FailsWith (Fault.Cites listed lost) (compile n).result)
    (fun last expected ns => (∀ word ∈ last, listed word) → Lists listed lost ns →
      FailsWith (Fault.Cites listed lost) (partsOf last expected ns).result)
    (fun ns => Lists listed lost ns → FailsWith (Fault.Cites listed lost) (atomsOf ns).result)
    (fun n => Lists listed lost [n] →
      FailsWith (Fault.Cites listed lost) ((atoms n).andThen (asOperand n)).result)
    ?bareRun ?innerRun ?run ?bareGroup ?innerGroup ?singleGroup ?group ?bareBool ?bool ?call ?marker
    ?items ?called ?grouped ?nested ?lone ?missing ?noParts ?early ?next ?part ?noAtoms ?atoms
  case bareRun => exact fun _ => failsWith_ok _
  case innerRun =>
    intro n ih h
    exact ih h.below
  case run =>
    intro items ns bare single ih h
    rw [compile.eq_3 items ns bare single]
    exact failsWith_test known h (Outcome.failsWith_andThen (ih h.below) fun _ _ => failsWith_ok _)
      fun as found => unknownIn_of_items items found h.unknown
  case bareGroup => exact fun _ => failsWith_ok _
  case innerGroup =>
    intro n grouping ih h
    rw [compile, if_pos grouping]
    exact ih h.below
  case singleGroup =>
    intro n grouping ih h
    rw [compile, if_neg grouping]
    exact failsWith_test known h (ih h.below) fun as found => unknownIn_of_atomsOf found h.below.unknown
  case group =>
    intro ns bare single ih h
    rw [compile.eq_6 ns bare single]
    exact failsWith_test known h (ih h.below) fun as found => unknownIn_of_atomsOf found h.below.unknown
  case bareBool => exact fun _ => failsWith_ok _
  case bool =>
    intro ns bare ih h
    rw [compile.eq_8 ns bare]
    exact failsWith_joined (ih first h.below)
  case call =>
    intro name ns ih h
    rw [compile]
    exact failsWith_test known h (Outcome.failsWith_andThen (ih h.below) fun _ _ => failsWith_ok _)
      fun as found => unknownIn_of_items [name] found h.unknown
  case marker => exact fun j word h => failsWith_error (Fault.cites_atToken _ h.word)
  case items =>
    intro items ns ih h
    rw [atoms]
    exact Outcome.failsWith_andThen (Outcome.failsWith_andThen (ih h.below) fun _ _ => failsWith_ok _)
      fun _ _ => failsWith_ok _
  case called =>
    intro name ns ih h
    rw [atoms]
    refine Outcome.failsWith_andThen (Outcome.failsWith_andThen (ih h.below) fun _ _ => failsWith_ok _)
      fun own found => ?_
    have formed := Expr.failsWith_ofAtoms known (unknownIn_of_items [name] found h.unknown)
    exact Outcome.failsWith_andThen (Outcome.failsWith_ofExcept formed) fun _ _ => failsWith_ok _
  case grouped =>
    intro ns ih h
    rw [atoms]
    refine Outcome.failsWith_andThen (Outcome.failsWith_andThen (ih h.below) fun as found => ?_)
      fun _ _ => failsWith_ok _
    have formed := Expr.failsWith_ofAtoms known (unknownIn_of_atomsOf found h.below.unknown)
    exact Outcome.failsWith_andThen (Outcome.failsWith_ofExcept formed) fun _ _ => failsWith_ok _
  case nested =>
    intro ns ih h
    rw [atoms]
    refine Outcome.failsWith_andThen ?_ fun _ _ => failsWith_ok _
    exact Outcome.failsWith_andThen (failsWith_joined (ih first h.below)) fun _ _ => failsWith_ok _
  case lone => exact fun j word h => failsWith_error (Fault.cites_atToken _ h.word)
  case missing => exact fun word last _ => failsWith_error (Fault.cites_atToken _ (last word rfl))
  case noParts =>
    intro last expected present _ _
    rw [partsOf.eq_2 last expected present]
    exact failsWith_ok _
  case early => exact fun last j word ns _ h => failsWith_error (Fault.cites_atToken _ h.cons.1.word)
  case next =>
    intro last expected j word ns late ih _ h
    rw [partsOf, if_neg late]
    exact ih (by rintro _ ⟨⟩; exact h.cons.1.word) h.cons.2
  case part =>
    intro last expected n ns unmarked first ih word h
    rw [partsOf.eq_4 last expected n ns unmarked]
    refine Outcome.failsWith_andThen (first h.cons.1) fun _ _ => ?_
    exact Outcome.failsWith_andThen (ih word h.cons.2) fun _ _ => failsWith_ok _
  case noAtoms => exact fun _ => failsWith_ok _
  case atoms =>
    intro n ns first ih h
    have regroup : atomsOf (n :: ns) = (n.atoms.andThen (asOperand n)).andThen fun here =>
        (atomsOf ns).andThen fun rest => .ok (here ++ rest) := by
      rw [atomsOf, Outcome.andThen_assoc]
      rfl
    rw [regroup]
    refine Outcome.failsWith_andThen (first h.cons.1) fun _ _ => ?_
    exact Outcome.failsWith_andThen (ih h.cons.2) fun _ _ => failsWith_ok _

theorem failsWith_compile {n : Node Lexeme} (h : Lists listed lost [n]) :
    FailsWith (Fault.Cites listed lost) n.compile.result :=
  (failsWith_all known).1 n h

end Node

end WhereClause
