import Mathlib.Data.List.Induction
import WhereClause.Proofs.Outline.Nest

namespace WhereClause

namespace Balance

def level (ts : List Token) : Int := ts.countP Token.opens - ts.countP Token.closes

/-- Every prefix closes no more than it opens and leaves no more open than allowed, and all of it leaves none open. -/
structure Balanced (ts : List Token) : Prop where
  opened : ∀ p, p <+: ts → 0 ≤ level p
  shallow : ∀ p, p <+: ts → level p ≤ limit
  settled : level ts = 0

inductive Refused (before : List Token) (t : Token) : Fault.Structural → Prop where
  | unmatched (closes : t.closes = true) (empty : level before ≤ 0) : Refused before t .unmatchedClose
  | tooDeep (opens : t.opens = true) (full : limit ≤ level before) : Refused before t (.tooDeep limit)

def Admitted (ts : List Token) : Prop := ∀ before t, before ++ [t] <+: ts → ∀ cause, ¬Refused before t cause

def LeavesOpen (ts : List Token) : Prop := ∀ p, p <+: ts → 0 ≤ level p

/-- The fault of tokens that are not balanced: it is at the first token that cannot follow those before it, or, if
    there is none, at the last parenthesis that stays open. -/
inductive Breach (ts : List Token) : Fault → Prop where
  | refused {before : List Token} {t : Token} {cause : Fault.Structural} (first : before ++ [t] <+: ts)
      (admitted : Admitted before) (refused : Refused before t cause) : Breach ts (.atToken cause t)
  | unclosed {before after : List Token} {t : Token} (admitted : Admitted ts) (whole : ts = before ++ t :: after)
      (opens : t.opens = true) (stays : LeavesOpen after)
      (last : ∀ b u a, after = b ++ u :: a → u.opens = true → ¬LeavesOpen a) : Breach ts (.atToken .unclosedOpen t)

theorem opens_of_closes {t : Token} (h : t.closes = true) : t.opens = false := by
  simp_all [Token.closes, Token.opens, Token.isSymbol]

theorem level_append (ts us : List Token) : level (ts ++ us) = level ts + level us := by
  simp only [level, List.countP_append]
  omega

theorem level_singleton (t : Token) : level [t] = if t.opens then 1 else if t.closes then -1 else 0 := by
  cases closes : t.closes with
  | true => simp [level, opens_of_closes closes, closes]
  | false => cases opens : t.opens <;> simp [level, opens, closes]

theorem level_of_opens {t : Token} (h : t.opens = true) : level [t] = 1 := by
  rw [level_singleton, if_pos h]

theorem level_of_closes {t : Token} (h : t.closes = true) : level [t] = -1 := by
  rw [level_singleton, if_neg (by simp [opens_of_closes h]), if_pos h]

theorem level_cons (t : Token) (ts : List Token) : level (t :: ts) = level [t] + level ts :=
  level_append [t] ts

def step (opened : List Token) (t : Token) : List Token :=
  if t.opens then t :: opened else if t.closes then opened.tail else opened

/-- The parentheses that are open after the tokens, the innermost first. -/
def stack (ts : List Token) : List Token := ts.foldl step []

theorem stack_concat (ts : List Token) (t : Token) : stack (ts ++ [t]) = step (stack ts) t := by
  rw [stack, List.foldl_append, stack]
  rfl

theorem length_step {opened : List Token} {t : Token} (closed : t.closes = true → opened ≠ []) :
    ((step opened t).length : Int) = opened.length + level [t] := by
  rw [step, level_singleton]
  split
  · rw [List.length_cons]
    omega
  · split
    · next closes =>
      have positive := List.length_pos_iff.2 (closed closes)
      rw [List.length_tail]
      omega
    · omega

theorem checkFrom_step {opened : List Token} {t : Token} (closed : t.closes = true → opened ≠ [])
    (room : t.opens = true → opened.length ≠ limit) (ts : List Token) :
    checkFrom opened (t :: ts) = checkFrom (step opened t) ts := by
  rw [checkFrom.eq_def, step]
  dsimp only
  split
  · next opens => rw [if_neg (room opens)]
  · split
    · next closes =>
      cases opened with
      | nil => exact absurd rfl (closed closes)
      | cons u outer => rfl
    · rfl

theorem admitted_nil : Admitted [] := by
  intro before t first
  simp at first

theorem Admitted.of_prefix {ts p : List Token} (h : Admitted ts) (within : p <+: ts) : Admitted p :=
  fun before t first => h before t (first.trans within)

theorem admitted_concat {ts : List Token} {t : Token} :
    Admitted (ts ++ [t]) ↔ Admitted ts ∧ ∀ cause, ¬Refused ts t cause := by
  constructor
  · intro h
    exact ⟨h.of_prefix (List.prefix_append ts [t]), h ts t (List.prefix_refl _)⟩
  · rintro ⟨admitted, own⟩ before u first
    rcases List.prefix_concat_iff.1 first with whole | within
    · obtain ⟨rfl, last⟩ := List.append_inj' whole rfl
      cases last
      exact own
    · exact admitted before u within

theorem Admitted.run {ts : List Token} (h : Admitted ts) :
    ((stack ts).length : Int) = level ts ∧ level ts ≤ limit ∧
      ∀ rest, check (ts ++ rest) = checkFrom (stack ts) rest := by
  induction ts using List.reverseRecOn with
  | nil => exact ⟨rfl, Int.natCast_nonneg limit, fun _ => rfl⟩
  | append_singleton ts t ih =>
    obtain ⟨admitted, own⟩ := admitted_concat.1 h
    obtain ⟨count, room, run⟩ := ih admitted
    have closed (closes : t.closes = true) : stack ts ≠ [] := by
      intro empty
      rw [empty] at count
      exact own _ (.unmatched closes (by simp [← count]))
    have free (opens : t.opens = true) : ¬ (limit : Int) ≤ level ts := fun full => own _ (.tooDeep opens full)
    rw [stack_concat, level_append]
    refine ⟨?_, ?_, fun rest => ?_⟩
    · rw [length_step closed, count]
    · rw [level_singleton]
      split
      · next opens =>
        have below := free opens
        omega
      · split <;> omega
    · rw [List.append_assoc, run, List.singleton_append]
      exact checkFrom_step closed (fun opens full => free opens (by omega)) rest

theorem admitted_or_refused (ts : List Token) :
    Admitted ts ∨ ∃ before t cause, before ++ [t] <+: ts ∧ Admitted before ∧ Refused before t cause := by
  induction ts using List.reverseRecOn with
  | nil => exact Or.inl admitted_nil
  | append_singleton ts t ih =>
    rcases ih with admitted | ⟨before, u, cause, first, admitted, refused⟩
    · by_cases own : ∃ cause, Refused ts t cause
      · obtain ⟨cause, refused⟩ := own
        exact Or.inr ⟨ts, t, cause, List.prefix_refl _, admitted, refused⟩
      · exact Or.inl (admitted_concat.2 ⟨admitted, not_exists.1 own⟩)
    · exact Or.inr ⟨before, u, cause, first.trans (List.prefix_append ts [t]), admitted, refused⟩

theorem check_of_refused {ts before : List Token} {t : Token} {cause : Fault.Structural}
    (first : before ++ [t] <+: ts) (admitted : Admitted before) (refused : Refused before t cause) :
    check ts = .error (.atToken cause t) := by
  obtain ⟨after, rfl⟩ := first
  obtain ⟨count, room, run⟩ := admitted.run
  rw [List.append_assoc, run, List.singleton_append, checkFrom.eq_def]
  dsimp only
  cases refused with
  | unmatched closes empty =>
    have nothing : stack before = [] := List.length_eq_zero_iff.1 (by omega)
    rw [if_neg (by simp [opens_of_closes closes]), if_pos closes, nothing]
  | tooDeep opens full => rw [if_pos opens, if_pos (by omega)]

/-- How many parentheses the tokens close that were open before them. -/
def surplus : List Token → Nat
  | [] => 0
  | t :: ts => if t.opens then surplus ts - 1 else if t.closes then surplus ts + 1 else surplus ts

def unclosed : List Token → List Token
  | [] => []
  | t :: ts => if t.opens && surplus ts = 0 then unclosed ts ++ [t] else unclosed ts

theorem foldl_step (ts opened : List Token) :
    ts.foldl step opened = unclosed ts ++ opened.drop (surplus ts) := by
  induction ts generalizing opened with
  | nil => rfl
  | cons t ts ih =>
    rw [List.foldl_cons, ih, step, unclosed, surplus]
    cases opens : t.opens with
    | true => cases closed : surplus ts <;> simp
    | false => cases closes : t.closes <;> simp [Nat.add_comm]

theorem forall_prefix_cons {t : Token} {ts : List Token} {n : Nat} :
    (∀ p, p <+: t :: ts → 0 ≤ n + level p) ↔ ∀ p, p <+: ts → 0 ≤ n + level [t] + level p := by
  constructor
  · intro h p within
    have whole := h (t :: p) (List.cons_prefix_cons.2 ⟨rfl, within⟩)
    rw [level_cons] at whole
    omega
  · intro h p within
    rcases List.prefix_cons_iff.1 within with rfl | ⟨q, rfl, below⟩
    · exact Int.natCast_nonneg n
    · rw [level_cons]
      have := h q below
      omega

theorem surplus_le_iff {ts : List Token} {n : Nat} : surplus ts ≤ n ↔ ∀ p, p <+: ts → 0 ≤ n + level p := by
  induction ts generalizing n with
  | nil =>
    have start : (0 : Int) ≤ n + level [] := Int.natCast_nonneg n
    simpa [surplus] using start
  | cons t ts ih =>
    rw [forall_prefix_cons, level_singleton, surplus]
    split
    · have deeper := ih (n := n + 1)
      rw [Int.natCast_add, Int.natCast_one] at deeper
      rw [← deeper]
      omega
    · split
      · cases n with
        | zero =>
          have start : ¬∀ p, p <+: ts → 0 ≤ ((0 : Nat) : Int) + -1 + level p := by
            intro h
            exact absurd (h [] List.nil_prefix) (by decide)
          exact iff_of_false (by omega) start
        | succ n =>
          have same : ((n + 1 : Nat) : Int) + -1 = n := by omega
          rw [same, ← ih]
          omega
      · rw [Int.add_zero]
        exact ih

theorem surplus_eq_zero_iff {ts : List Token} : surplus ts = 0 ↔ LeavesOpen ts := by
  rw [← Nat.le_zero, surplus_le_iff]
  simp [LeavesOpen]

theorem exists_of_unclosed {ts rest : List Token} {t : Token} (h : unclosed ts = t :: rest) :
    ∃ before after, ts = before ++ t :: after ∧ t.opens = true ∧ LeavesOpen after ∧ unclosed after = [] := by
  induction ts generalizing rest with
  | nil => cases h
  | cons u ts ih =>
    cases later : unclosed ts with
    | cons v outer =>
      have same : v = t := by
        rw [unclosed, later] at h
        split at h <;> exact (List.cons.inj h).1
      obtain ⟨before, after, rfl, opens, stays, last⟩ := ih (same ▸ later)
      exact ⟨u :: before, after, rfl, opens, stays, last⟩
    | nil =>
      rw [unclosed, later] at h
      split at h
      · next own =>
        simp only [Bool.and_eq_true, decide_eq_true_eq] at own
        cases h
        exact ⟨[], ts, rfl, own.1, surplus_eq_zero_iff.1 own.2, later⟩
      · cases h

theorem not_leavesOpen_of_unclosed {ts before after : List Token} {t : Token} (h : unclosed ts = [])
    (whole : ts = before ++ t :: after) (opens : t.opens = true) : ¬LeavesOpen after := by
  induction before generalizing ts with
  | nil =>
    subst whole
    rw [← surplus_eq_zero_iff]
    intro stays
    simp [unclosed, opens, stays] at h
  | cons u before ih =>
    subst whole
    rw [List.cons_append, unclosed] at h
    split at h
    · simp at h
    · exact ih h rfl

theorem stack_eq (ts : List Token) : stack ts = unclosed ts := by
  rw [stack, foldl_step, List.drop_nil, List.append_nil]

theorem check_of_admitted {ts : List Token} (h : Admitted ts) : check ts = checkFrom (unclosed ts) [] := by
  have whole := h.run.2.2 []
  rwa [List.append_nil, stack_eq] at whole

theorem Balanced.admitted {ts : List Token} (h : Balanced ts) : Admitted ts := by
  intro before t first cause refused
  cases refused with
  | unmatched closes empty =>
    have deeper := h.opened _ first
    rw [level_append, level_of_closes closes] at deeper
    omega
  | tooDeep opens full =>
    have shallow := h.shallow _ first
    rw [level_append, level_of_opens opens] at shallow
    omega

theorem Admitted.balanced {ts : List Token} (h : Admitted ts) (closed : unclosed ts = []) : Balanced ts where
  opened p within := by
    have count := (h.of_prefix within).run.1
    omega
  shallow p within := (h.of_prefix within).run.2.1
  settled := by
    have count := h.run.1
    rw [stack_eq, closed] at count
    exact count.symm

theorem check_of_balanced {ts : List Token} (h : Balanced ts) : check ts = .ok () := by
  have count := h.admitted.run.1
  rw [h.settled, stack_eq] at count
  have closed : unclosed ts = [] := List.length_eq_zero_iff.1 (by omega)
  rw [check_of_admitted h.admitted, closed]
  rfl

theorem check_cases (ts : List Token) :
    Balanced ts ∧ check ts = .ok () ∨ ∃ fault, Breach ts fault ∧ check ts = .error fault := by
  -- If no token is refused, the check comes to the end with the parentheses that stay open.
  rcases admitted_or_refused ts with admitted | ⟨before, t, cause, first, admitted, refused⟩
  · have outcome := check_of_admitted admitted
    cases still : unclosed ts with
    | nil =>
      rw [still] at outcome
      exact Or.inl ⟨admitted.balanced still, outcome⟩
    | cons t rest =>
      obtain ⟨before, after, whole, opens, stays, last⟩ := exists_of_unclosed still
      rw [still] at outcome
      exact Or.inr ⟨_, .unclosed admitted whole opens stays fun b u a => not_leavesOpen_of_unclosed last, outcome⟩
  · exact Or.inr ⟨_, .refused first admitted refused, check_of_refused first admitted refused⟩

end Balance

namespace Node

theorem ofTokens_eq (ts : List Token) : ofTokens ts =
    Balance.check (Token.significant ts) >>= fun _ =>
      ofEvents Token.namesFunction ((Token.significant ts).map Event.ofToken) := by
  rw [ofTokens, Event.ofTokens]
  cases Balance.check (Token.significant ts) <;> rfl

theorem exists_cursor_of_check {ts : List Token} (h : Balance.check (Token.significant ts) = .ok ()) :
    ∃ c, Cursor.start.run? Token.namesFunction
        (Event.enclose ((Token.significant ts).map Event.ofToken)) = some c ∧
      ofTokens ts = .ok c.root.prune := by
  obtain ⟨n, events⟩ := Nest.exists_of_check h
  have outlined := Nest.ofEvents?_events Token.namesFunction n
  rw [events] at outlined
  obtain ⟨c, reached, root⟩ := Option.map_eq_some_iff.1 outlined
  refine ⟨c, reached, ?_⟩
  rw [ofTokens_eq, h, ofEvents, outlined, root]
  rfl

/-- Tokens have an outline exactly if the parentheses among those with a meaning are balanced. If they are not,
    the fault is at the first parenthesis that cannot follow the tokens before it, or at the last one that stays
    open. What passes the check of the parentheses is outlined: the cursor never fails to find the pair around it. -/
theorem ofTokens_balanced (ts : List Token) :
    ((∃ n, ofTokens ts = .ok n) ↔ Balance.Balanced (Token.significant ts)) ∧
      (∀ fault, ofTokens ts = .error fault → Balance.Breach (Token.significant ts) fault) ∧
      ∀ events, Event.ofTokens ts = .ok events →
        ∃ c, Cursor.start.run? Token.namesFunction (Event.enclose events) = some c ∧
          ofTokens ts = .ok c.root.prune := by
  rcases Balance.check_cases (Token.significant ts) with ⟨balanced, checked⟩ | ⟨found, breach, checked⟩
  · obtain ⟨c, reached, outlined⟩ := exists_cursor_of_check checked
    refine ⟨iff_of_true ⟨_, outlined⟩ balanced, fun fault failed => ?_, fun events read => ⟨c, ?_, outlined⟩⟩
    · rw [outlined] at failed
      cases failed
    · rw [Event.ofTokens, checked] at read
      cases read
      exact reached
  · have failed : ofTokens ts = .error found := by
      rw [ofTokens_eq, checked]
      rfl
    refine ⟨iff_of_false ?_ fun balanced => ?_, fun fault also => ?_, fun events read => ?_⟩
    · rw [failed]
      exact nofun
    · rw [Balance.check_of_balanced balanced] at checked
      cases checked
    · rw [failed] at also
      cases also
      exact breach
    · rw [Event.ofTokens, checked] at read
      cases read

end Node

end WhereClause
