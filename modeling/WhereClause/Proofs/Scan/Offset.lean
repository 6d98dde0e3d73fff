import WhereClause.Proofs.Literal.Token
import WhereClause.Proofs.Scan.Cover
import WhereClause.Report

namespace WhereClause

namespace Text

theorem parts_break (separator : Char) (cs : List Char) :
    parts separator (separator :: cs) = [] :: parts separator cs := by
  rw [parts, if_pos rfl]

theorem parts_ne_nil (separator : Char) (cs : List Char) : parts separator cs ≠ [] := by
  cases cs with
  | nil => nofun
  | cons c cs =>
    rw [parts]
    split
    · nofun
    · split <;> nofun

theorem parts_cons {separator c : Char} (other : c ≠ separator) (cs : List Char) :
    ∃ first rest, parts separator cs = first :: rest ∧ parts separator (c :: cs) = (c :: first) :: rest := by
  obtain ⟨first, rest, whole⟩ := List.exists_cons_of_ne_nil (parts_ne_nil separator cs)
  exact ⟨first, rest, whole, by rw [parts, if_neg other, whole]⟩

end Text

theorem Position.line_after (p : Position) (cs : List Char) : (p.after cs).line = p.line + cs.count '\n' := by
  induction cs generalizing p with
  | nil => rfl
  | cons c cs ih =>
    have step : p.after (c :: cs) = (p.next c).after cs := rfl
    rw [step, ih, next]
    by_cases feed : c = '\n'
    · rw [if_pos feed, feed, List.count_cons_self, nextLine, Nat.add_assoc, Nat.add_comm 1]
    · rw [if_neg feed, List.count_cons_of_ne feed]

namespace Report

open Text

theorem lengthOf_break (n : Nat) (cs : List Char) :
    lengthOf (n + 1) (parts '\n' ('\n' :: cs)) = lengthOf n (parts '\n' cs) + 1 := by
  rw [parts_break, lengthOf, List.length_nil, Nat.zero_add, Nat.add_comm]

theorem lengthOf_cons {c : Char} (other : c ≠ '\n') (n : Nat) (cs : List Char) :
    lengthOf (n + 1) (parts '\n' (c :: cs)) = lengthOf (n + 1) (parts '\n' cs) + 1 := by
  obtain ⟨first, rest, whole, longer⟩ := parts_cons other cs
  rw [longer, whole, lengthOf, lengthOf, List.length_cons]
  omega

/-- The lines before a position and the columns before it add up to the characters before it. -/
theorem lengthOf_after (cs rest : List Char) {p : Position} (column : p.column ≠ 0) :
    lengthOf (cs.count '\n') (parts '\n' (cs ++ rest)) + ((p.after cs).column - 1) =
      cs.length + if '\n' ∈ cs then 0 else p.column - 1 := by
  induction cs generalizing p with
  | nil => simp [lengthOf, Position.after]
  | cons c cs ih =>
    have step : p.after (c :: cs) = (p.next c).after cs := rfl
    rw [step, List.length_cons, List.cons_append]
    by_cases feed : c = '\n'
    · subst feed
      have later := ih (p := p.nextLine) Nat.one_ne_zero
      have own : (if '\n' ∈ cs then 0 else p.nextLine.column - 1) = 0 := by split <;> rfl
      rw [own] at later
      rw [List.count_cons_self, lengthOf_break, Position.next, if_pos rfl, if_pos List.mem_cons_self]
      omega
    · have later := ih (p := ⟨p.line, p.column + 1⟩) (Nat.succ_ne_zero _)
      have same : '\n' ∈ c :: cs ↔ '\n' ∈ cs := by simp [Ne.symm feed]
      rw [List.count_cons_of_ne feed, Position.next, if_neg feed]
      simp only [same]
      by_cases broken : '\n' ∈ cs
      · obtain ⟨n, lines⟩ := Nat.exists_eq_add_one.2 (List.count_pos_iff.2 broken)
        rw [if_pos broken] at later ⊢
        rw [lines] at later ⊢
        rw [lengthOf_cons feed]
        omega
      · have lines : cs.count '\n' = 0 := List.count_eq_zero.2 broken
        rw [if_neg broken] at later ⊢
        rw [lines] at later ⊢
        simp only [lengthOf] at later ⊢
        omega

theorem offset_after (before rest : List Char) :
    offset (before ++ rest) (Position.start.after before) = before.length := by
  have whole := lengthOf_after before rest (p := .start) (by decide)
  have lines : (Position.start.after before).line - 1 = before.count '\n' := by
    rw [Position.line_after]
    exact Nat.add_sub_cancel_left ..
  rw [offset, lines, whole]
  split <;> rfl

theorem lt_lengthOf {before : List Char} {n : Nat} (h : before.count '\n' < n) (rest : List Char) :
    before.length < lengthOf n (parts '\n' (before ++ rest)) := by
  induction before generalizing n with
  | nil =>
    obtain ⟨n, rfl⟩ := Nat.exists_eq_add_one.2 (Nat.zero_lt_of_lt h)
    obtain ⟨first, more, whole⟩ := List.exists_cons_of_ne_nil (parts_ne_nil '\n' rest)
    rw [List.nil_append, whole, lengthOf, List.length_nil]
    omega
  | cons c before ih =>
    obtain ⟨n, rfl⟩ := Nat.exists_eq_add_one.2 (Nat.zero_lt_of_lt h)
    rw [List.cons_append, List.length_cons]
    by_cases feed : c = '\n'
    · subst feed
      rw [List.count_cons_self] at h
      rw [lengthOf_break]
      exact Nat.succ_lt_succ (ih (Nat.lt_of_succ_lt_succ h))
    · rw [List.count_cons_of_ne feed] at h
      rw [lengthOf_cons feed]
      exact Nat.succ_lt_succ (ih h)

end Report

namespace Token

def isReturn (t : Token) : Bool := t.text = "\r"

def Advances (t : Token) : Prop :=
  ∀ p, t.kind.advance p t.text.toList = if t.isReturn then p.nextLine else p.after t.text.toList

theorem advances_of_full {o : Options} {p : Position} {cs : List Char} {t : Token}
    (h : t ∈ (Scan.full o p cs).tokens) : t.Advances := by
  intro q
  have text : t.isReturn = true ↔ t.text.toList = ['\r'] := decide_eq_true_iff.trans String.toList_inj.symm
  simp only [text]
  rcases Scan.cases_of_mem_full h with ⟨finish, empty⟩ | ⟨c, cs, n, found, whole⟩
  · rw [finish, empty]
    rfl
  · rw [whole]
    exact (Options.first_of_token? found).advance_eq q

theorem endFrom_of_advances {ts : List Token} (advances : ∀ t ∈ ts, t.Advances) (p : Position)
    (alone : ∀ t ∈ ts, t.isReturn = false) : endFrom p ts = p.after (texts ts) := by
  induction ts generalizing p with
  | nil => rfl
  | cons t ts ih =>
    obtain ⟨own, later⟩ := List.forall_mem_cons.1 advances
    obtain ⟨here, further⟩ := List.forall_mem_cons.1 alone
    rw [endFrom_cons, own, here, if_neg (by decide), ih later _ further, texts_cons, Position.after_append]

theorem line_endFrom {ts : List Token} (advances : ∀ t ∈ ts, t.Advances) (p : Position) :
    (endFrom p ts).line = p.line + (texts ts).count '\n' + ts.countP isReturn := by
  induction ts generalizing p with
  | nil => rfl
  | cons t ts ih =>
    obtain ⟨own, later⟩ := List.forall_mem_cons.1 advances
    rw [endFrom_cons, own, ih later, texts_cons, List.count_append, List.countP_cons]
    by_cases alone : t.isReturn = true
    · have text : t.text = "\r" := of_decide_eq_true alone
      rw [if_pos alone, if_pos alone, text]
      simp only [Position.nextLine]
      have none : "\r".toList.count '\n' = 0 := by decide
      omega
    · rw [if_neg alone, if_neg alone, Position.line_after]
      omega

end Token

namespace Report

open Token

variable {ts : List Token} (advances : ∀ t ∈ ts, t.Advances)

include advances

theorem offset_endFrom (alone : ∀ t ∈ ts, t.isReturn = false) (rest : List Char) :
    offset (texts ts ++ rest) (endFrom .start ts) = (texts ts).length := by
  rw [endFrom_of_advances advances _ alone, offset_after]

theorem lt_offset_endFrom {t : Token} (member : t ∈ ts) (alone : t.isReturn = true) (rest : List Char) :
    (texts ts).length < offset (texts ts ++ rest) (endFrom .start ts) := by
  have returns : 0 < ts.countP isReturn := List.countP_pos_iff.2 ⟨t, member, alone⟩
  have lines := line_endFrom advances .start
  have first : Position.start.line = 1 := rfl
  have further : (texts ts).count '\n' < (endFrom .start ts).line - 1 := by omega
  exact Nat.lt_add_right _ (lt_lengthOf further rest)

end Report

end WhereClause
