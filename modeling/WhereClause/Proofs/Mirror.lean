import WhereClause.Outcome

namespace WhereClause

variable {α β γ δ κ : Type}

/-- The other result up to a map on values, or a fault beside one that looks the same. -/
inductive MirrorsBy (look : Fault → κ) (φ : α → β) : Except Fault α → Except Fault β → Prop where
  | ok (a : α) : MirrorsBy look φ (.ok a) (.ok (φ a))
  | error {f g : Fault} (same : look f = look g) : MirrorsBy look φ (.error f) (.error g)

abbrev Mirrors (φ : α → β) : Except Fault α → Except Fault β → Prop := MirrorsBy Fault.kind φ

namespace MirrorsBy

variable {look : Fault → κ} {φ : α → β} {ψ : γ → δ}

theorem eq_ok {a : α} {y : Except Fault β} (h : MirrorsBy look φ (.ok a) y) : y = .ok (φ a) := by
  cases h
  rfl

theorem exists_ok {x : Except Fault α} {b : β} (h : MirrorsBy look φ x (.ok b)) :
    ∃ a, x = .ok a ∧ φ a = b := by
  cases h with
  | ok a => exact ⟨a, rfl, rfl⟩

theorem bind {x : Except Fault α} {y : Except Fault β} {next : α → Except Fault γ}
    {other : β → Except Fault δ} (h : MirrorsBy look φ x y)
    (rest : ∀ a, MirrorsBy look ψ (next a) (other (φ a))) :
    MirrorsBy look ψ (x >>= next) (y >>= other) := by
  cases h with
  | ok a => exact rest a
  | error same => exact .error same

theorem map {x : Except Fault α} {y : Except Fault β} (h : MirrorsBy look φ x y) {f : α → γ} {g : β → δ}
    (commute : ∀ a, g (φ a) = ψ (f a)) : MirrorsBy look ψ (x.map f) (y.map g) := by
  cases h with
  | ok a =>
    rw [Except.map, Except.map, commute]
    exact .ok _
  | error same => exact .error same

theorem join {x y : Except Fault α} {z : Except Fault β} (left : MirrorsBy look φ x z)
    (right : MirrorsBy look φ y z) :
    (∃ a b, x = .ok a ∧ y = .ok b ∧ φ a = φ b) ∨
      ∃ f g, x = .error f ∧ y = .error g ∧ look f = look g := by
  cases left with
  | ok a =>
    generalize whole : φ a = c at right
    cases right with
    | ok b => exact Or.inl ⟨a, b, rfl, rfl, whole⟩
  | error same =>
    cases right with
    | error other => exact Or.inr ⟨_, _, rfl, rfl, same.trans other.symm⟩

end MirrorsBy

namespace Outcome

structure MirrorsBy (look : Fault → κ) (φ : α → β) (x : Outcome α) (y : Outcome β) : Prop where
  warnings : x.warnings = y.warnings
  result : WhereClause.MirrorsBy look φ x.result y.result

abbrev Mirrors (φ : α → β) : Outcome α → Outcome β → Prop := MirrorsBy Fault.kind φ

namespace MirrorsBy

variable {look : Fault → κ} {φ : α → β} {ψ : γ → δ}

theorem ok (a : α) : MirrorsBy look φ (.ok a) (.ok (φ a)) := ⟨rfl, .ok a⟩

theorem fail {f g : Fault} (same : look f = look g) : MirrorsBy look φ (.fail f) (.fail g) :=
  ⟨rfl, .error same⟩

theorem warn (w : Warning) : MirrorsBy look id (.warn w) (.warn w) := ⟨rfl, .ok ()⟩

theorem ofExcept {x : Except Fault α} {y : Except Fault β} (h : WhereClause.MirrorsBy look φ x y) :
    MirrorsBy look φ (.ofExcept x) (.ofExcept y) := by
  cases h with
  | ok a => exact ok a
  | error same => exact fail same

theorem andThen {x : Outcome α} {y : Outcome β} {next : α → Outcome γ} {other : β → Outcome δ}
    (h : MirrorsBy look φ x y) (rest : ∀ a, MirrorsBy look ψ (next a) (other (φ a))) :
    MirrorsBy look ψ (x.andThen next) (y.andThen other) := by
  obtain ⟨warnings, result⟩ := x
  obtain ⟨others, mirrored⟩ := y
  obtain ⟨rfl, h⟩ := h
  cases h with
  | ok a =>
    obtain ⟨same, alike⟩ := rest a
    exact ⟨congrArg (warnings ++ ·) same, alike⟩
  | error same => exact ⟨rfl, .error same⟩

theorem agree {x y : Outcome α} {z : Outcome β} (left : MirrorsBy look φ x z) (right : MirrorsBy look φ y z)
    (apart : ∀ a b, x.result = .ok a → y.result = .ok b → φ a = φ b → a = b) :
    x.warnings = y.warnings ∧ ((∃ a, x.result = .ok a ∧ y.result = .ok a) ∨
      ∃ f g, x.result = .error f ∧ y.result = .error g ∧ look f = look g) := by
  refine ⟨left.warnings.trans right.warnings.symm, ?_⟩
  refine (left.result.join right.result).imp_left ?_
  rintro ⟨a, b, first, second, image⟩
  exact ⟨a, first, apart a b first second image ▸ second⟩

end MirrorsBy

end Outcome

end WhereClause
