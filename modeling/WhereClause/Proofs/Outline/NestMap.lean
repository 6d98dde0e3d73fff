import WhereClause.Proofs.Outline.Compiled
import WhereClause.Proofs.Outline.Map
import WhereClause.Proofs.Outline.Pairs

namespace WhereClause

namespace Nest

variable {α β : Type} (φ : α → β) (ψ : Token → Token)

def map : Nest α → Nest β
  | .nil => .nil
  | .leaf item rest => .leaf (φ item) rest.map
  | .joint j word rest => .joint j (ψ word) rest.map
  | .pair inner rest => .pair inner.map rest.map

theorem junctions_map (n : Nest α) : (n.map φ ψ).junctions = n.junctions := by
  induction n <;> simp_all [map, junctions]

theorem hasJoint_map (n : Nest α) : (n.map φ ψ).hasJoint = n.hasJoint := by
  induction n <;> simp_all [map, hasJoint]

theorem events_map (n : Nest α) : (n.map φ ψ).events = n.events.map (Event.map φ ψ) := by
  induction n <;> simp_all [map, events, Event.map]

theorem pairs_map {calls : α → Bool} {others : β → Bool} (same : ∀ x, others (φ x) = calls x)
    (n : Nest α) (last : Option α) :
    (n.map φ ψ).pairs others (last.map φ) =
      (n.pairs calls last).map fun p => (p.1.map φ, p.2.map φ ψ) := by
  induction n generalizing last with
  | nil => rfl
  | leaf item rest ih => exact ih (some item)
  | joint j word rest ih => exact ih none
  | pair inner rest inside after =>
    have held := inside none
    have later := after none
    rw [Option.map_none] at held later
    rw [map, pairs, pairs, held, later, List.map_cons, List.map_append]
    congr 2
    cases last with
    | none => rfl
    | some x => cases named : calls x <;> simp [Option.filter, same, named]

theorem exists_of_map {n : Nest β} {es : List (Event α)} {fs : List (Event β)}
    (h : es.map (Event.map φ ψ) = n.events ++ fs) :
    ∃ (m : Nest α) (gs : List (Event α)), m.map φ ψ = n ∧ es = m.events ++ gs ∧
      gs.map (Event.map φ ψ) = fs := by
  induction n generalizing es fs with
  | nil => exact ⟨.nil, es, rfl, rfl, h⟩
  | leaf item rest ih =>
    obtain ⟨event, es, rfl, same, further⟩ := List.map_eq_cons_iff.1 h
    obtain ⟨m, gs, rfl, rfl, later⟩ := ih further
    cases event with
    | leaf x =>
      cases same
      exact ⟨.leaf x m, gs, rfl, rfl, later⟩
    | _ => cases same
  | joint j word rest ih =>
    obtain ⟨event, es, rfl, same, further⟩ := List.map_eq_cons_iff.1 h
    obtain ⟨m, gs, rfl, rfl, later⟩ := ih further
    cases event with
    | joint k other =>
      cases same
      exact ⟨.joint _ other m, gs, rfl, rfl, later⟩
    | _ => cases same
  | pair inner rest inside after =>
    rw [events, List.cons_append, List.append_assoc] at h
    obtain ⟨event, es, rfl, same, further⟩ := List.map_eq_cons_iff.1 h
    obtain ⟨held, gs, rfl, rfl, closed⟩ := inside further
    obtain ⟨close, gs, rfl, ending, further⟩ := List.map_eq_cons_iff.1 closed
    obtain ⟨m, gs, rfl, rfl, later⟩ := after further
    cases event with
    | enter =>
      cases close with
      | leave => exact ⟨.pair held m, gs, rfl, by simp [events], later⟩
      | _ => cases ending
    | _ => cases same

end Nest

theorem Event.map_resolve (v : Vocabulary) (stem : String) (n : Nat) (es : List (Event Token)) :
    (resolve v stem n es).map (map Lexeme.token id) = es := by
  induction es generalizing n with
  | nil => rfl
  | cons event es ih => cases event <;> simp [resolve, map, ih, Lexeme.read]

theorem Nest.exists_of_ofFilter {s : Settings} {v : Vocabulary} {filter : String}
    {outline : Node Lexeme} (h : Node.ofFilter s v filter = .ok outline) :
    ∃ (tokens : List Token) (m : Nest Lexeme),
      (Token.scan s.tokens filter).complete = .ok tokens ∧
      (m.map Lexeme.token id).events = (Token.significant tokens).map Event.ofToken ∧
      m.events = Event.resolve v s.stem 0 ((Token.significant tokens).map Event.ofToken) ∧
      outline = .run [] (Node.pruneAll [m.enclosed.node Lexeme.namesFunction]) := by
  obtain ⟨tokens, scanned, balanced, built⟩ := Node.ofFilter_eq_ok h
  obtain ⟨n, whole⟩ := exists_of_check balanced
  have forgotten : (Event.resolve v s.stem 0 n.events).map (Event.map Lexeme.token id) =
      n.events ++ [] := by rw [Event.map_resolve, List.append_nil]
  obtain ⟨m, gs, rfl, read, none⟩ := exists_of_map Lexeme.token id forgotten
  obtain rfl := List.map_eq_nil_iff.1 none
  rw [List.append_nil] at read
  rw [← whole, read, ofEvents?_events] at built
  exact ⟨tokens, m, scanned, whole, whole ▸ read.symm, (Option.some.inj built).symm⟩

end WhereClause
