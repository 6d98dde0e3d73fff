import WhereClause.Proofs.Reading.Filter
import WhereClause.Proofs.RoundTrip.Tells

namespace WhereClause

/-- How many parentheses of the text are open at once at most, given how many are open before it. -/
def Text.nesting (opened : Nat) : List Char → Nat
  | [] => opened
  | c :: cs =>
    max opened (nesting (if c = '(' then opened + 1 else if c = ')' then opened - 1 else opened) cs)

namespace Text

theorem le_nesting (opened : Nat) (cs : List Char) : opened ≤ nesting opened cs := by
  cases cs with
  | nil => exact Nat.le_refl _
  | cons c cs => exact Nat.le_max_left ..

theorem nesting_filter (opened : Nat) (cs : List Char) :
    nesting opened (cs.filter Token.isParenthesis) = nesting opened cs := by
  induction cs generalizing opened with
  | nil => rfl
  | cons c cs ih =>
    cases parenthesis : Token.isParenthesis c with
    | true => rw [List.filter_cons_of_pos parenthesis, nesting, nesting, ih]
    | false =>
      have neither : c ≠ '(' ∧ c ≠ ')' := by simpa [Token.isParenthesis] using parenthesis
      rw [List.filter_cons_of_neg (by simp [parenthesis]), ih, nesting, if_neg neither.1, if_neg neither.2,
        Nat.max_eq_right (le_nesting opened cs)]

end Text

namespace Nest

def parentheses : Nest Lexeme → List Char
  | .nil => []
  | .leaf _ rest => rest.parentheses
  | .joint _ _ rest => rest.parentheses
  | .pair inner rest => '(' :: (inner.parentheses ++ ')' :: rest.parentheses)

variable {v : Vocabulary}

theorem parentheses_tokens {n : Nest Lexeme} (read : ∀ e ∈ n.events, e.IsRead v) :
    n.tokens.flatMap (·.text.toList.filter Token.isParenthesis) = n.parentheses := by
  induction n with
  | nil => rfl
  | leaf x rest ih =>
    obtain ⟨own, later⟩ := List.forall_mem_cons.1 read
    have leaf : Lexeme.Leaf v x := own
    have none : (Event.leaf x).token.text.toList.filter Token.isParenthesis = [] := leaf.bare
    rw [tokens, events, List.map_cons, List.flatMap_cons, none]
    exact ih later
  | joint j word rest ih =>
    obtain ⟨own, later⟩ := List.forall_mem_cons.1 read
    have same : word = Token.word j.word := own
    subst same
    have none : (Token.word j.word).text.toList.filter Token.isParenthesis = [] := by cases j <;> decide
    have first : (Event.joint (α := Lexeme) j (Token.word j.word)).token = Token.word j.word := rfl
    rw [tokens, events, List.map_cons, List.flatMap_cons, first, none]
    exact ih later
  | pair inner rest inside after =>
    simp only [events, List.forall_mem_cons, List.forall_mem_append] at read
    obtain ⟨-, held, -, later⟩ := read
    have opens : (Event.enter (α := Lexeme)).token.text.toList.filter Token.isParenthesis = ['('] := by decide
    have closes : (Event.leave (α := Lexeme)).token.text.toList.filter Token.isParenthesis = [')'] := by decide
    rw [parentheses, ← inside held, ← after later]
    simp only [tokens, events, List.map_cons, List.map_append, List.flatMap_cons, List.flatMap_append, opens,
      closes]
    rfl

theorem nesting_le_append (n : Nest Lexeme) (opened : Nat) (cs : List Char) :
    Text.nesting opened cs ≤ Text.nesting opened (n.parentheses ++ cs) := by
  induction n generalizing opened cs with
  | nil => exact Nat.le_refl _
  | leaf x rest ih => exact ih opened cs
  | joint j word rest ih => exact ih opened cs
  | pair inner rest inside after =>
    have held := inside (opened + 1) (')' :: (rest.parentheses ++ cs))
    have later := after opened cs
    rw [Text.nesting, if_neg (by decide), if_pos rfl, Nat.add_sub_cancel] at held
    rw [parentheses, List.cons_append, List.append_assoc, Text.nesting, if_pos rfl]
    have close : ')' :: rest.parentheses ++ cs = ')' :: (rest.parentheses ++ cs) := rfl
    rw [close]
    omega

theorem checkFrom_cons {opened ts : List Token} {t : Token} (opens : t.opens = false)
    (closes : t.closes = false) : Balance.checkFrom opened (t :: ts) = Balance.checkFrom opened ts := by
  rw [Balance.checkFrom.eq_def]
  simp [opens, closes]

theorem checkFrom_tokens {n : Nest Lexeme} (read : ∀ e ∈ n.events, e.IsRead v) {opened ts : List Token}
    (cs : List Char) (shallow : Text.nesting opened.length (n.parentheses ++ cs) ≤ Balance.limit) :
    Balance.checkFrom opened (n.tokens ++ ts) = Balance.checkFrom opened ts := by
  induction n generalizing opened ts cs with
  | nil => rfl
  | leaf x rest ih =>
    obtain ⟨own, later⟩ := List.forall_mem_cons.1 read
    have leaf : Lexeme.Leaf v x := own
    have within : x.token.opens = false ∧ x.token.closes = false := by
      rcases Event.ofToken_cases x.token with ⟨-, event | event | ⟨j, event⟩⟩ | ⟨opens, closes, -⟩
      · rw [leaf.event] at event
        cases event
      · rw [leaf.event] at event
        cases event
      · rw [leaf.event] at event
        cases event
      · exact ⟨opens, closes⟩
    exact (checkFrom_cons within.1 within.2).trans (ih later cs shallow)
  | joint j word rest ih =>
    obtain ⟨own, later⟩ := List.forall_mem_cons.1 read
    have same : word = Token.word j.word := own
    subst same
    exact (checkFrom_cons rfl rfl).trans (ih later cs shallow)
  | pair inner rest inside after =>
    simp only [events, List.forall_mem_cons, List.forall_mem_append] at read
    obtain ⟨-, held, -, later⟩ := read
    rw [parentheses, List.cons_append, List.append_assoc, List.cons_append, Text.nesting, if_pos rfl] at shallow
    have whole : tokens (.pair inner rest) ++ ts = Event.enter.token ::
        (inner.tokens ++ (Event.leave.token :: (rest.tokens ++ ts))) := by
      simp [tokens, events]
    have deeper := Text.le_nesting (opened.length + 1) (inner.parentheses ++ (')' :: (rest.parentheses ++ cs)))
    have free : opened.length ≠ Balance.limit := by omega
    have further := nesting_le_append inner (opened.length + 1) (')' :: (rest.parentheses ++ cs))
    rw [Text.nesting, if_neg (by decide), if_pos rfl, Nat.add_sub_cancel] at further
    have entered : Balance.checkFrom opened (Event.enter.token :: (inner.tokens ++
          (Event.leave.token :: (rest.tokens ++ ts)))) =
        Balance.checkFrom (Event.enter.token :: opened) (inner.tokens ++
          (Event.leave.token :: (rest.tokens ++ ts))) := by
      rw [Balance.checkFrom.eq_def]
      exact if_neg free
    have left : Balance.checkFrom (Event.enter.token :: opened) (Event.leave.token :: (rest.tokens ++ ts)) =
        Balance.checkFrom opened (rest.tokens ++ ts) := rfl
    have within : Text.nesting (opened.length + 1) (inner.parentheses ++ (')' :: (rest.parentheses ++ cs))) ≤
        Balance.limit := by omega
    rw [whole, entered, @inside held (Event.enter.token :: opened) _ _ within, left]
    exact after later cs (by omega)

end Nest

end WhereClause
