import WhereClause.Column
import WhereClause.Text.Case
import WhereClause.Value.Basic

namespace WhereClause

namespace Field

inductive Kind where
  | string
  | integer
  | long
  | decimal
  | float
  | boolean
  | dateTime
  | guid
  | unknown
deriving DecidableEq, Inhabited

namespace Kind

def name : Kind → String
  | .string => "string"
  | .integer => "integer"
  | .long => "long"
  | .decimal => "decimal"
  | .float => "float"
  | .boolean => "boolean"
  | .dateTime => "datetime"
  | .guid => "guid"
  | .unknown => "unknown"

def ofName? (s : String) : Option Kind :=
  [string, integer, long, decimal, float, boolean, dateTime, guid, unknown].find? fun k =>
    Text.sameLetters k.name s

theorem ofName?_name (k : Kind) : ofName? k.name = some k := by cases k <;> decide

end Kind

end Field

structure Field where
  column : Column
  kind : Field.Kind
deriving DecidableEq, Inhabited

structure Vocabulary where
  field? : String → Option Field
  constant? : String → Option Value

/-- The vocabulary of two lists, names compared as they are written; of two entries of one name the
    first counts. -/
def Vocabulary.ofLists (fields : List (String × Field)) (constants : List (String × Value)) :
    Vocabulary :=
  ⟨fun name => fields.lookup name, fun name => constants.lookup name⟩

/-- Fields and constants under their names in lower case, each name at most once. -/
structure Catalog where
  fields : List (String × Field)
  constants : List (String × Value)
deriving DecidableEq, Inhabited

namespace Catalog

def empty : Catalog := ⟨[], []⟩

def put {α : Type} (table : List (String × α)) (name : String) (value : α) : List (String × α) :=
  (name, value) :: table.filter fun entry => entry.1 ≠ name

def insertField (c : Catalog) (name : String) (f : Field) : Catalog :=
  { c with fields := put c.fields (Text.lower name) f }

def insertConstant (c : Catalog) (name : String) (v : Value) : Catalog :=
  { c with constants := put c.constants (Text.lower name) v }

def ofLists (fields : List (String × Field)) (constants : List (String × Value)) : Catalog :=
  let named := fields.foldl (fun c entry => c.insertField entry.1 entry.2) empty
  constants.foldl (fun c entry => c.insertConstant entry.1 entry.2) named

def size (c : Catalog) : Nat := c.fields.length + c.constants.length

def field? (c : Catalog) (name : String) : Option Field := c.fields.lookup (Text.lower name)

def constant? (c : Catalog) (name : String) : Option Value := c.constants.lookup (Text.lower name)

def vocabulary (c : Catalog) : Vocabulary := ⟨c.field?, c.constant?⟩

theorem lookup_put_self {α : Type} (table : List (String × α)) (name : String) (value : α) :
    (put table name value).lookup name = some value := by
  simp [put]

theorem lookup_filter_ne {α : Type} (table : List (String × α)) {name other : String}
    (different : other ≠ name) :
    (table.filter fun entry => entry.1 ≠ name).lookup other = table.lookup other := by
  have apart : (other == name) = false := by simp [different]
  induction table with
  | nil => rfl
  | cons entry rest ih =>
    obtain ⟨key, value⟩ := entry
    by_cases same : key = name
    · rw [List.filter_cons_of_neg (by simp [same]), ih, List.lookup_cons]
      subst same
      rw [apart]
    · rw [List.filter_cons_of_pos (by simp [same]), List.lookup_cons, List.lookup_cons, ih]

theorem lookup_put_of_ne {α : Type} (table : List (String × α)) {name other : String} (value : α)
    (different : other ≠ name) : (put table name value).lookup other = table.lookup other := by
  have apart : (other == name) = false := by simp [different]
  simp only [put, List.lookup_cons, apart]
  exact lookup_filter_ne table different

end Catalog

end WhereClause
