namespace WhereClause

inductive Slot where
  | left
  | right
  | third
deriving DecidableEq, Inhabited

namespace Slot

def name : Slot → String
  | .left => "left"
  | .right => "right"
  | .third => "right1"

def marker : Slot → String
  | .left => "lhs"
  | .right => "rhs"
  | .third => "rhs1"

end Slot

namespace Template

def mark (name : String) : String := "\x7b" ++ name ++ "\x7d"

/-- The length of a marker that starts with `c`, less one, and the text that replaces it. -/
def valueAt? (value : String → Option String) (c : Char) (cs : List Char) : Option (Nat × String) :=
  if c = '{' ∧ '}' ∈ cs then
    let name := cs.takeWhile (· ≠ '}')
    (value (String.ofList name)).map fun text => (name.length + 1, text)
  else none

/-- Fills what follows the next `skip` characters, which belong to a marker already replaced. -/
def fillFrom (value : String → Option String) : Nat → List Char → List Char
  | _, [] => []
  | skip + 1, _ :: cs => fillFrom value skip cs
  | 0, c :: cs =>
    match valueAt? value c cs with
    | some (extent, text) => text.toList ++ fillFrom value extent cs
    | none => c :: fillFrom value 0 cs

def fill (template : String) (value : String → Option String) : String :=
  String.ofList (fillFrom value 0 template.toList)

def occursIn (part : List Char) : List Char → Bool
  | [] => part.isEmpty
  | c :: cs => part.isPrefixOf (c :: cs) || occursIn part cs

def mentions (template part : String) : Bool := occursIn part.toList template.toList

def takes (template : String) (slot : Slot) : Bool := mentions template (mark slot.marker)

def encloses (template : String) (slot : Slot) : Bool :=
  mentions template ("(" ++ mark slot.marker ++ ")")

theorem fillFrom_skip (value : String → Option String) (before after : List Char) :
    fillFrom value before.length (before ++ after) = fillFrom value 0 after := by
  induction before with
  | nil => rfl
  | cons c cs ih => simpa [fillFrom] using ih

theorem fillFrom_text (value : String → Option String) {plain : List Char} (rest : List Char)
    (noMark : '{' ∉ plain) : fillFrom value 0 (plain ++ rest) = plain ++ fillFrom value 0 rest := by
  induction plain with
  | nil => rfl
  | cons c cs ih =>
    simp only [List.mem_cons, not_or] at noMark
    have copied : valueAt? value c (cs ++ rest) = none := by
      simp [valueAt?, Ne.symm noMark.1]
    simp [fillFrom, copied, ih noMark.2]

end Template

end WhereClause
