import WhereClause.Text.Quoted
import WhereClause.Value.Decimal
import WhereClause.Value.Single

namespace WhereClause

inductive Value where
  | null
  | bool (b : Bool)
  | int (n : Int32)
  | long (n : Int64)
  | decimal (d : Decimal)
  | float (x : Single)
  | string (s : String)
deriving DecidableEq, Inhabited

namespace Value

open Text

def typeName : Value → String
  | .null => "null"
  | .bool _ => "bool"
  | .int _ => "int"
  | .long _ => "long"
  | .decimal _ => "decimal"
  | .float _ => "float"
  | .string _ => "string"

def text : Value → String
  | .null => "NULL"
  | .bool b => if b then "true" else "false"
  | .int n => String.ofList (integerText n.toInt)
  | .long n => String.ofList (integerText n.toInt)
  | .decimal d => String.ofList d.text
  | .float x => String.ofList x.text
  | .string s => s

def sql : Value → String
  | .bool b => if b then "1" else "0"
  | .string s => Quoted.write s
  | v => v.text

def same : Value → Value → Bool
  | .null, .null => true
  | .bool a, .bool b => a == b
  | .int a, .int b => a == b
  | .long a, .long b => a == b
  | .decimal a, .decimal b => a.same b
  | .float a, .float b => a.same b
  | .string a, .string b => a == b
  | _, _ => false

end Value

end WhereClause
