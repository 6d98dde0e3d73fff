import WhereClause.Proofs.Literal.Quoted
import WhereClause.Token.Scan

namespace WhereClause.Token.Options

open Text

variable {o : Options} {c : Char} {cs : List Char} {kind : Kind} {n : Nat}

def IsSolid (c : Char) : Prop := c ≠ '\'' ∧ c ≠ '\r' ∧ c ≠ '\n' ∧ isBlank c = false

theorem isSolid_of_isBlank (quote : c ≠ '\'') (blank : isBlank c = false) : IsSolid c := by
  refine ⟨quote, ?_, ?_, blank⟩
  · rintro rfl
    exact absurd blank (by decide)
  · rintro rfl
    exact absurd blank (by decide)

inductive First (o : Options) : Char → List Char → Kind → Nat → Prop where
  | quoted {cs : List Char} {n : Nat} (closed : Quoted.extent cs = some n) : First o '\'' cs .quoted n
  | carriage (cs : List Char) : First o '\r' cs .lineEnd (if cs.head? = some '\n' then 1 else 0)
  | feed (cs : List Char) : First o '\n' cs .lineEnd 0
  | blank {c : Char} (between : c ≠ '\'' ∧ c ≠ '\r' ∧ c ≠ '\n') (cs : List Char) :
      First o c cs .blank (blankExtent cs)
  | symbol {c : Char} (solid : IsSolid c) (cs : List Char) : First o c cs .symbol 0
  | number {c : Char} {cs : List Char} {kind : Kind} {n : Nat} (solid : IsSolid c) (digit : isDigit c = true)
      (counted : o.numberExtent cs = (kind, n)) : First o c cs kind n
  | word {c : Char} (solid : IsSolid c) (cs : List Char) : First o c cs .word (o.wordExtent cs)

theorem first_of_token? (h : o.token? c cs = some (kind, n)) : First o c cs kind n := by
  unfold token? at h
  split at h
  · next quote =>
    obtain ⟨m, closed, same⟩ := Option.map_eq_some_iff.1 h
    cases same
    rw [quote]
    exact .quoted closed
  next quote =>
  split at h
  · next carriage =>
    cases h
    rw [carriage]
    exact .carriage cs
  next carriage =>
  split at h
  · next feed =>
    cases h
    rw [feed]
    exact .feed cs
  next feed =>
  split at h
  · cases h
    exact .blank ⟨quote, carriage, feed⟩ cs
  next blank =>
  have solid : IsSolid c := ⟨quote, carriage, feed, by simpa using blank⟩
  split at h
  · cases h
    exact .symbol solid cs
  split at h
  · next digit => exact .number solid digit (Option.some.inj h)
  split at h
  · cases h
    exact .word solid cs
  · cases h
    exact .symbol solid cs

theorem kind_of_numberExtent (h : o.numberExtent cs = (kind, n)) : kind = .word ∨ kind = .number := by
  simp only [numberExtent] at h
  split at h
  · exact Or.inl (Prod.mk.inj h).1.symm
  · exact Or.inr (Prod.mk.inj h).1.symm

theorem token?_eq_none_iff : o.token? c cs = none ↔ c = '\'' ∧ Quoted.Unclosed cs := by
  rw [← Quoted.extent_eq_none_iff, token?]
  split
  · next quote => simp [quote]
  · next other =>
    simp only [other, false_and, iff_false]
    split
    · nofun
    split
    · nofun
    split
    · nofun
    split
    · nofun
    split
    · nofun
    split <;> nofun

theorem First.ne_finish (h : First o c cs kind n) : kind ≠ .finish := by
  cases h with
  | number solid digit counted => rcases kind_of_numberExtent counted with rfl | rfl <;> nofun
  | _ => nofun

theorem First.advance_eq (h : First o c cs kind n) (p : Position) :
    kind.advance p (c :: cs.take n) =
      if c :: cs.take n = ['\r'] then p.nextLine else p.after (c :: cs.take n) := by
  have other (solid : c ≠ '\r') (within : kind ≠ .lineEnd) : kind.advance p (c :: cs.take n) =
      if c :: cs.take n = ['\r'] then p.nextLine else p.after (c :: cs.take n) := by
    rw [Kind.advance, if_neg within, if_neg fun same => solid (List.cons.inj same).1]
  cases h with
  | quoted closed => exact other (by decide) nofun
  -- A carriage return ends its line, alone or with the line feed after it.
  | carriage cs =>
    rcases cs with _ | ⟨d, cs⟩
    · rfl
    · by_cases feed : d = '\n'
      · subst feed
        rfl
      · have alone : (d :: cs).head? ≠ some '\n' := fun same => feed (Option.some.inj same)
        rw [if_neg alone]
        rfl
  | feed cs => rfl
  | blank between cs => exact other between.2.1 nofun
  | symbol solid cs => exact other solid.2.1 nofun
  | number solid digit counted =>
    refine other solid.2.1 ?_
    rcases kind_of_numberExtent counted with rfl | rfl <;> nofun
  | word solid cs => exact other solid.2.1 nofun

end WhereClause.Token.Options
