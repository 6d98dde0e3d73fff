import WhereClause.Proofs.Outline.Mirror
import WhereClause.Proofs.Outline.Resolve

namespace WhereClause

namespace Parameter

def number (stem : String) (p : Parameter) : Nat := Text.numberOf (p.name.toList.drop stem.toList.length)

def shift (stem : String) (k : Nat) (p : Parameter) : Parameter := ⟨numbered stem (p.number stem + k), p.value⟩

theorem number_numbered (stem : String) (n : Nat) (x : Value) : number stem ⟨numbered stem n, x⟩ = n := by
  rw [number, numbered, String.toList_append, List.drop_left, Nat.repr, String.toList_ofList]
  exact Text.numberOf_digitsOf n

theorem shift_numbered (stem : String) (k n : Nat) (x : Value) :
    shift stem k ⟨numbered stem n, x⟩ = ⟨numbered stem (n + k), x⟩ := by
  rw [shift, number_numbered]

end Parameter

def Change.shift (stem : String) (k : Nat) : Change := ⟨Parameter.shift stem k, id⟩

theorem Lexeme.read_shift (v : Vocabulary) (stem : String) (k n : Nat) (t : Token) :
    read v stem (n + k) t = (read v stem n t).change (.shift stem k) id := by
  have meaning : Atom.ofToken v (Parameter.numbered stem (n + k)) t =
      (Atom.ofToken v (Parameter.numbered stem n) t).change (.shift stem k) :=
    Atom.ofToken_change rfl rfl rfl rfl rfl (Parameter.shift_numbered stem k n) rfl
  rw [read, read, meaning]
  rfl

namespace Nest

theorem resolve_shift (v : Vocabulary) (stem : String) (k : Nat) (m : Nest Token) (n : Nat) :
    m.resolve v stem (n + k) = (m.resolve v stem n).map (Lexeme.change (.shift stem k) id) id := by
  induction m generalizing n with
  | nil => rfl
  | leaf t rest ih =>
    have next : (Lexeme.read v stem (n + k) t).next (n + k) = (Lexeme.read v stem n t).next n + k := by
      rw [Lexeme.next_read, Lexeme.next_read, Nat.add_right_comm]
    rw [resolve, resolve, next, ih, Lexeme.read_shift]
    rfl
  | joint j word rest ih => exact congrArg (Nest.joint j word) (ih n)
  | pair inner rest inside after =>
    rw [resolve, resolve, inside, Nat.add_right_comm, after]
    rfl

theorem compile_change (χ : Change) (n : Nest Lexeme) :
    Outcome.Mirrors (Condition.change χ) n.compile (n.map (Lexeme.change χ id) id).compile := by
  have names (x : Lexeme) : (x.change χ id).namesFunction = x.namesFunction := rfl
  have image := Node.ofEvents?_map (Lexeme.change χ id) id names n.events
  rw [← events_map, ofEvents?_events, ofEvents?_events, Option.map_some, Option.some.injEq] at image
  rw [compile, compile, image]
  exact Node.compile_change χ id _

/-- The nest compiles to the same wherever its parameters begin, but for their numbers. -/
theorem compile_resolve {v : Vocabulary} {stem : String} {m : Nest Token} {c : Condition}
    (h : (m.resolve v stem 0).compile.result = .ok c) (k : Nat) :
    (m.resolve v stem k).compile.result = .ok (c.change (.shift stem k)) := by
  have mirror := (compile_change (.shift stem k) (m.resolve v stem 0)).result
  rw [← resolve_shift, Nat.zero_add, h] at mirror
  exact mirror.eq_ok

end Nest

end WhereClause
