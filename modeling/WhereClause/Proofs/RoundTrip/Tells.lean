import WhereClause.Proofs.RoundTrip.Leaf
import WhereClause.Proofs.RoundTrip.Yield

namespace WhereClause

namespace Event

def token : Event Lexeme → Token
  | .enter => ⟨.symbol, "(", .start⟩
  | .leave => ⟨.symbol, ")", .start⟩
  | .joint _ word => word
  | .leaf x => x.token

def IsRead (v : Vocabulary) : Event Lexeme → Prop
  | .joint j word => word = Token.word j.word
  | .leaf x => x.Leaf v
  | _ => True

end Event

namespace Nest

open Token

def tokens (n : Nest Lexeme) : List Token := n.events.map Event.token

theorem tokens_append (m n : Nest Lexeme) : (m ++ n).tokens = m.tokens ++ n.tokens := by
  rw [tokens, events_append, List.map_append, tokens, tokens]

/-- The text is cut into the tokens of the nest, every word is read back, and these are the parameters. -/
structure Tells (v : Vocabulary) (n : Nest Lexeme) (text : String) (ps : List Parameter) : Prop where
  spells : Spells text n.tokens
  read : ∀ e ∈ n.events, e.IsRead v
  parameters : (Event.leaves n.events).flatMap (·.atom.parameters) = ps

namespace Tells

variable {v : Vocabulary} {m n : Nest Lexeme} {s t : String} {ps qs : List Parameter}

theorem nil : Tells v .nil "" [] := by
  refine ⟨⟨fun rest _ => ?_, rfl⟩, nofun, rfl⟩
  rw [String.toList_empty, List.nil_append]
  exact (Option.map_id' ..).symm

theorem leaf {x : Lexeme} (h : x.Leaf v) : Tells v (.leaf x .nil) x.token.text x.atom.parameters where
  spells := h.spells
  read e member := by
    obtain rfl := List.mem_singleton.1 member
    exact h
  parameters := List.append_nil _

theorem append_of_spells (first : Tells v m s ps) (second : Tells v n t qs) {text : String}
    (spells : Spells text (m.tokens ++ n.tokens)) : Tells v (m ++ n) text (ps ++ qs) where
  spells := by rwa [tokens_append]
  read := by
    rw [events_append]
    exact List.forall_mem_append.2 ⟨first.read, second.read⟩
  parameters := by
    have both : Event.leaves (m.events ++ n.events) = Event.leaves m.events ++ Event.leaves n.events :=
      List.filterMap_append
    rw [events_append, both, List.flatMap_append, first.parameters, second.parameters]

theorem between (first : Tells v m s ps) (second : Tells v n t qs) :
    Tells v (m ++ n) (s ++ " " ++ t) (ps ++ qs) :=
  first.append_of_spells second (first.spells.between second.spells)

theorem pair (h : Tells v n s ps) : Tells v (.pair n .nil) ("(" ++ s ++ ")") ps where
  spells := by
    have close : Spells ")" [⟨.symbol, ")", .start⟩] := Spells.symbol (c := ')') (by decide)
    have inside := h.spells.append close fun rest _ => by
      exact ends_cons (Or.inr (by decide)) rest
    have whole := inside.symbol_append (c := '(') (by decide)
    rw [String.append_assoc]
    simpa [tokens, events, Event.token] using whole
  read := by
    simpa [events, or_imp, forall_and, Event.IsRead] using h.read
  parameters := by
    simpa [events, Event.leaves] using h.parameters

theorem attach (first : Tells v m s ps) (second : Tells v n t qs) :
    Tells v (m ++ .pair n .nil) (s ++ "(" ++ t ++ ")") (ps ++ qs) := by
  have apart : s ++ "(" ++ t ++ ")" = s ++ ("(" ++ t ++ ")") := by simp only [String.append_assoc]
  rw [apart]
  refine first.append_of_spells second.pair (first.spells.append second.pair.spells fun rest _ => ?_)
  rw [String.append_assoc]
  exact Spells.ends_symbol (c := '(') (by decide) _ rest

theorem comma (first : Tells v m s ps) (second : Tells v n t qs) :
    Tells v (m ++ (.leaf Atom.comma.lexeme .nil ++ n)) (s ++ "," ++ t) (ps ++ qs) := by
  have comma := leaf (v := v) Atom.leaf_comma
  have spells : Spells ("," ++ t) (Nest.tokens (.leaf Atom.comma.lexeme .nil) ++ n.tokens) :=
    second.spells.symbol_append (c := ',') (by decide)
  refine first.append_of_spells (comma.append_of_spells second spells) ?_
  rw [tokens_append, String.append_assoc]
  exact first.spells.append spells fun rest _ => Spells.ends_symbol (c := ',') (by decide) t rest

theorem joint (j : Junction) (first : Tells v m s ps) (second : Tells v n t qs) :
    Tells v (m ++ (.joint j (Token.word j.word) .nil ++ n)) (s ++ (" " ++ j.word ++ " ") ++ t) (ps ++ qs) := by
  have word : Tells v (.joint j (Token.word j.word) .nil) j.word [] := by
    refine ⟨Spells.word (by cases j <;> decide), ?_, rfl⟩
    intro e member
    obtain rfl := List.mem_singleton.1 member
    rfl
  have whole := (first.between word).between second
  rw [append_assoc, List.append_nil] at whole
  simpa only [String.append_assoc] using whole

theorem joined {α : Type} {separator : Nest Lexeme} {mark : String} {f : α → String} {g : α → List Parameter}
    (glue : ∀ {m n : Nest Lexeme} {s t : String} {ps qs : List Parameter}, Tells v m s ps → Tells v n t qs →
      Tells v (m ++ (separator ++ n)) (s ++ mark ++ t) (ps ++ qs)) {ns : List (Nest Lexeme)} {as : List α}
    (h : List.Forall₂ (fun a n => Tells v n (f a) (g a)) as ns) :
    Tells v (join separator ns) (Text.join mark (as.map f)) (as.flatMap g) := by
  induction h with
  | nil => exact nil
  | @cons a n as ns own later ih =>
    cases later with
    | nil => simpa [join, Text.join] using own
    | cons => exact glue own ih

end Tells

end Nest

end WhereClause
