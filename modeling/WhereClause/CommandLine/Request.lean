import WhereClause.Catalog
import WhereClause.CommandLine.Usage
import WhereClause.Text.Split
import WhereClause.Value.Literal

namespace WhereClause.CommandLine

open Text

inductive Format where
  | markdown
  | html
deriving DecidableEq, Inhabited

def Format.ofName? (s : String) : Option Format :=
  if s = "markdown" then some .markdown else if s = "html" then some .html else none

structure Request where
  filter : Option String
  dialect : Option Dialect
  fields : List (String × Field)
  constants : List (String × Value)
  operators : Option Format
  demo : Bool
  distinct : Bool
deriving DecidableEq, Inhabited

def Request.empty : Request := ⟨none, none, [], [], none, false, false⟩

def cutName? (s : String) : Option (String × List Char) :=
  (cut? '=' s.toList).map fun p => (String.ofList p.1, p.2)

def readTyped (cs : List Char) : Except String Field :=
  match cutLast? ':' cs with
  | none => .ok ⟨Column.read (String.ofList cs), .unknown⟩
  | some (column, kind) =>
    match Field.Kind.ofName? (String.ofList kind) with
    | some k => .ok ⟨Column.read (String.ofList column), k⟩
    | none => .error ("unknown field type '" ++ String.ofList kind ++ "'")

def readField (s : String) : Except String (String × Field) := do
  let malformed := "expected NAME=COLUMN, got '" ++ s ++ "'"
  match cutName? s with
  | none => .error malformed
  | some (name, rest) =>
    let f ← readTyped rest
    if name = "" ∨ f.column.dotted = "" then .error malformed else .ok (name, f)

def readConstant (s : String) : Except String (String × Value) :=
  match cutName? s with
  | some (name, literal) =>
    if name = "" then .error ("expected NAME=LITERAL, got '" ++ s ++ "'")
    else .ok (name, Value.read (String.ofList literal))
  | none => .error ("expected NAME=LITERAL, got '" ++ s ++ "'")

namespace Request

def misuse {α : Type} (m : Misuse) : Except Stop α := .error (.misuse m)

def once {α : Type} (given : Option α) (s : Setting) (value : Except Stop α) :
    Except Stop (Option α) :=
  if given.isSome then misuse (.repeated s.usage) else value.map some

def explained {α : Type} (s : Setting) (value : String) : Except String α → Except Stop α
  | .ok a => .ok a
  | .error reason => misuse (.invalidValue value s (some reason))

def readDialect (value : String) : Except Stop Dialect :=
  explained .dialect value ((Dialect.ofName? value).elim (.error "Matching variant not found") .ok)

def readFormat (value : String) : Except Stop Format :=
  match Format.ofName? value with
  | some f => .ok f
  | none =>
    -- An empty format counts as no value at all.
    if value = "" then misuse (.missingValue .operators)
    else misuse (.invalidValue value .operators none)

def set (r : Request) (s : Setting) (value : String) : Except Stop Request :=
  match s with
  | .dialect => do return { r with dialect := ← once r.dialect s (readDialect value) }
  | .operators => do return { r with operators := ← once r.operators s (readFormat value) }
  | .field => do return { r with fields := r.fields ++ [← explained s value (readField value)] }
  | .constant => do
    return { r with constants := r.constants ++ [← explained s value (readConstant value)] }

def switch (r : Request) (s : Switch) : Except Stop Request :=
  match s with
  | .version => .error .version
  | .demo => if r.demo then misuse (.repeated s.usage) else .ok { r with demo := true }
  | .distinct => if r.distinct then misuse (.repeated s.usage) else .ok { r with distinct := true }

end Request

inductive Argument where
  | long (name : String) (value : Option String)
  | short (letter : Char)
  | endOfOptions
  | plain (text : String)
deriving DecidableEq, Inhabited

def Argument.read (s : String) : Argument :=
  match s.toList with
  | ['-', '-'] => .endOfOptions
  | '-' :: '-' :: cs =>
    match cut? '=' cs with
    | some (name, value) => .long (String.ofList name) (some (String.ofList value))
    | none => .long (String.ofList cs) none
  | '-' :: c :: _ => .short c
  | _ => .plain s

/-- How far the reading has come: the option whose value is still to be looked at, and the value if
    it is there already. -/
structure Progress where
  request : Request
  pending : Option (Setting × Option String)
  optionsEnded : Bool
deriving DecidableEq, Inhabited

namespace Progress

def start : Progress := ⟨.empty, none, false⟩

def settle (p : Progress) : Except Stop Request :=
  match p.pending with
  | none => .ok p.request
  | some (s, none) => Request.misuse (.missingValue s)
  | some (s, some value) => p.request.set s value

def resume (p : Progress) (r : Request) : Progress := { p with request := r, pending := none }

def operand (p : Progress) (text : String) : Except Stop Progress :=
  if p.request.filter.isSome then Request.misuse (.unexpectedArgument text)
  else do
    let r ← p.settle
    return p.resume { r with filter := some text }

def long (p : Progress) (name : String) (value : Option String) : Except Stop Progress :=
  match Setting.ofName? name, Switch.ofName? name, value with
  | some s, _, some v => do return p.resume (← (← p.settle).set s v)
  | some s, _, none => do return { p.resume (← p.settle) with pending := some (s, none) }
  | none, some s, some v => Request.misuse (.unexpectedValue v s)
  | none, some s, none => do return p.resume (← (← p.settle).switch s)
  | none, none, _ => Request.misuse (.unexpectedArgument ("--" ++ name))

def short (p : Progress) (letter : Char) : Except Stop Progress :=
  if letter = 'V' then do return p.resume (← (← p.settle).switch .version)
  else Request.misuse (.unexpectedArgument (String.ofList ['-', letter]))

def step (p : Progress) (argument : String) : Except Stop Progress :=
  if p.optionsEnded then p.operand argument
  else
    match Argument.read argument with
    | .endOfOptions => .ok { p with optionsEnded := true }
    | .long name value => p.long name value
    | .short letter => p.short letter
    | .plain text =>
      match p.pending with
      | some (s, none) => .ok { p with pending := some (s, some text) }
      | _ => p.operand text

end Progress

/-- The request that the arguments make. A filter has to be there unless the sample or the operator
    table is asked for. -/
def Request.read (arguments : List String) : Except Stop Request := do
  let p ← arguments.foldlM Progress.step Progress.start
  let r ← p.settle
  if r.filter.isNone && !r.demo && r.operators.isNone then misuse .missingFilter else return r

end WhereClause.CommandLine
