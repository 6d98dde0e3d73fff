import WhereClause.Proofs.Literal.Filter
import WhereClause.Proofs.Outline.Depth
import WhereClause.Proofs.Reading.Filter

namespace WhereClause

theorem Lexeme.next_read (v : Vocabulary) (stem : String) (n : Nat) (t : Token) :
    (read v stem n t).next n = n + (Token.value? v t).toList.length := by
  have parameter := Token.parameter?_ofToken v (Parameter.numbered stem n) t
  rw [next, read, Atom.isParameter_eq, parameter, Option.isSome_map]
  cases Token.value? v t <;> rfl

namespace Nest

def values (v : Vocabulary) : Nest Token → List Value
  | .nil => []
  | .leaf t rest => (Token.value? v t).toList ++ rest.values v
  | .joint _ _ rest => rest.values v
  | .pair inner rest => inner.values v ++ rest.values v

/-- The nest with the meanings of its tokens; `n` is the number of the next parameter. -/
def resolve (v : Vocabulary) (stem : String) : Nat → Nest Token → Nest Lexeme
  | _, .nil => .nil
  | n, .leaf t rest => .leaf (Lexeme.read v stem n t) (resolve v stem ((Lexeme.read v stem n t).next n) rest)
  | n, .joint j word rest => .joint j word (resolve v stem n rest)
  | n, .pair inner rest => .pair (resolve v stem n inner) (resolve v stem (n + (inner.values v).length) rest)

theorem resolve_events (v : Vocabulary) (stem : String) (m : Nest Token) (n : Nat) (es : List (Event Token)) :
    Event.resolve v stem n (m.events ++ es) =
      (m.resolve v stem n).events ++ Event.resolve v stem (n + (m.values v).length) es := by
  induction m generalizing n es with
  | nil => rfl
  | leaf t rest ih =>
    rw [events, List.cons_append, Event.resolve, ih, resolve, events, values, List.length_append,
      ← Nat.add_assoc, ← Lexeme.next_read, List.cons_append]
  | joint j word rest ih => exact congrArg (Event.joint j word :: ·) (ih n es)
  | pair inner rest inside after =>
    rw [events, List.cons_append, List.append_assoc, Event.resolve, inside, List.cons_append, Event.resolve,
      after, resolve, events, values, List.length_append, ← Nat.add_assoc]
    simp

theorem events_resolve (v : Vocabulary) (stem : String) (m : Nest Token) (n : Nat) :
    (m.resolve v stem n).events = Event.resolve v stem n m.events := by
  have whole := resolve_events v stem m n []
  rw [List.append_nil] at whole
  rw [whole, Event.resolve, List.append_nil]

def compile (n : Nest Lexeme) : Outcome Condition :=
  Node.compile (.run [] (Node.pruneAll [n.enclosed.node Lexeme.namesFunction]))

end Nest

theorem Condition.ofTokens_of_resolve {v : Vocabulary} {stem : String} {n : Nest Lexeme} {ts : List Token}
    (balanced : Balance.check (Token.significant ts) = .ok ())
    (resolved : Event.resolve v stem 0 ((Token.significant ts).map Event.ofToken) = n.events) :
    ofTokens v stem ts = n.compile := by
  have built : Node.ofEvents Lexeme.namesFunction n.events =
      .ok (.run [] (Node.pruneAll [n.enclosed.node Lexeme.namesFunction])) := by
    rw [Node.ofEvents, Nest.ofEvents?_events]
  rw [ofTokens_eq, balanced, resolved, built]
  exact (Outcome.ok_andThen _ _).trans (Outcome.ok_andThen _ _)

theorem Condition.ofTokens_of_events (v : Vocabulary) (stem : String) {n : Nest Token} {ts : List Token}
    (events : n.events = (Token.significant ts).map Event.ofToken) (shallow : n.depth ≤ Balance.limit) :
    ofTokens v stem ts = (n.resolve v stem 0).compile := by
  refine ofTokens_of_resolve (Balance.check_iff.2 ⟨n, events, shallow⟩) ?_
  rw [← events, Nest.events_resolve]

theorem Lexeme.parameters_read (v : Vocabulary) (stem : String) (n : Nat) (t : Token) :
    (read v stem n t).atom.reading.filterMap Atom.parameter? =
      (Token.value? v t).toList.map fun x => ⟨Parameter.numbered stem n, x⟩ := by
  have parameter := Token.parameter?_ofToken v (Parameter.numbered stem n) t
  rw [read]
  cases comma : t.isComma with
  | true =>
    rw [Atom.ofToken_of_isComma v _ comma] at parameter ⊢
    rw [Option.map_eq_none_iff.1 parameter.symm]
    rfl
  | false =>
    rw [Atom.reading_of_isSimple (Atom.isSimple_ofToken v _ comma), List.filterMap_cons, parameter]
    cases Token.value? v t <;> rfl

namespace Nest

theorem parameters_resolve (v : Vocabulary) (stem : String) (m : Nest Token) (n : Nat) :
    ((Event.leaves (m.resolve v stem n).events).flatMap (·.atom.reading)).filterMap Atom.parameter? =
      (m.values v).mapIdx fun i x => ⟨Parameter.numbered stem (n + i), x⟩ := by
  have split (n : Nat) (xs ys : List Value) :
      ((xs ++ ys).mapIdx fun i x => (⟨Parameter.numbered stem (n + i), x⟩ : Parameter)) =
        (xs.mapIdx fun i x => ⟨Parameter.numbered stem (n + i), x⟩) ++
          ys.mapIdx fun i x => ⟨Parameter.numbered stem (n + xs.length + i), x⟩ := by
    rw [List.mapIdx_append]
    congr 2
    funext i x
    rw [Nat.add_comm i, Nat.add_assoc]
  have leaves_append (es fs : List (Event Lexeme)) :
      Event.leaves (es ++ fs) = Event.leaves es ++ Event.leaves fs := List.filterMap_append
  induction m generalizing n with
  | nil => rfl
  | leaf t rest ih =>
    have own : Event.leaves ((Nest.leaf t rest).resolve v stem n).events = Lexeme.read v stem n t ::
      Event.leaves (rest.resolve v stem ((Lexeme.read v stem n t).next n)).events := rfl
    rw [own, List.flatMap_cons, List.filterMap_append, ih, Lexeme.parameters_read, values, split,
      Lexeme.next_read]
    cases Token.value? v t <;> rfl
  | joint j word rest ih => exact ih n
  | pair inner rest inside after =>
    have own : Event.leaves ((Nest.pair inner rest).resolve v stem n).events =
        Event.leaves (inner.resolve v stem n).events ++
          Event.leaves (rest.resolve v stem (n + (inner.values v).length)).events := leaves_append _ _
    rw [own, List.flatMap_append, List.filterMap_append, inside, after, values, split]

theorem parameters_of_compile {v : Vocabulary} {stem : String} {m : Nest Token} {n : Nat} {c : Condition}
    (h : (m.resolve v stem n).compile.result = .ok c) :
    c.parameters = (m.values v).mapIdx fun i x => ⟨Parameter.numbered stem (n + i), x⟩ := by
  have built := ofEvents?_events Lexeme.namesFunction (m.resolve v stem n)
  rw [parameters_eq_reading.ofCondition c, Node.reading_of_compile h, Node.leaves_ofEvents? built,
    parameters_resolve]

end Nest

end WhereClause
