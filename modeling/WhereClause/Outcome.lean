import WhereClause.Fault

namespace WhereClause

inductive Warning where
  | mixed (applied : Junction)
deriving DecidableEq, Inhabited

def Warning.message : Warning → String
  | .mixed j =>
    "mixed 'and'/'or' in one group, all conditions are joined with '" ++ j.word ++ "'"

structure Outcome (α : Type) where
  warnings : List Warning
  result : Except Fault α

namespace Outcome

variable {α β : Type}

def ok (a : α) : Outcome α := ⟨[], .ok a⟩

def fail (f : Fault) : Outcome α := ⟨[], .error f⟩

def warn (w : Warning) : Outcome Unit := ⟨[w], .ok ()⟩

/-- A fault ends the work; the warnings given before it stay. -/
def andThen (x : Outcome α) (next : α → Outcome β) : Outcome β :=
  match x.result with
  | .error f => ⟨x.warnings, .error f⟩
  | .ok a => ⟨x.warnings ++ (next a).warnings, (next a).result⟩

def ofExcept : Except Fault α → Outcome α
  | .ok a => ok a
  | .error f => fail f

instance : Monad Outcome where
  pure := ok
  bind := andThen

instance : MonadLift (Except Fault) Outcome := ⟨ofExcept⟩

@[simp] theorem pure_eq (a : α) : (pure a : Outcome α) = ok a := rfl

@[simp] theorem bind_eq (x : Outcome α) (next : α → Outcome β) : (x >>= next) = x.andThen next := rfl

@[simp] theorem ok_andThen (a : α) (next : α → Outcome β) : (ok a).andThen next = next a := by
  simp [ok, andThen]

@[simp] theorem fail_andThen (f : Fault) (next : α → Outcome β) :
    (fail f : Outcome α).andThen next = fail f := by
  simp [fail, andThen]

@[simp] theorem andThen_ok (x : Outcome α) : x.andThen ok = x := by
  obtain ⟨warnings, result⟩ := x
  cases result <;> simp [andThen, ok]

theorem andThen_assoc {γ : Type} (x : Outcome α) (f : α → Outcome β) (g : β → Outcome γ) :
    (x.andThen f).andThen g = x.andThen fun a => (f a).andThen g := by
  obtain ⟨warnings, result⟩ := x
  cases result with
  | error fault => simp [andThen]
  | ok a =>
    cases h : (f a).result <;> simp [andThen, h, List.append_assoc]

end Outcome

end WhereClause
