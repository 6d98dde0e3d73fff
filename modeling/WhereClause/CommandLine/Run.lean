import WhereClause.CommandLine.Request
import WhereClause.Compile
import WhereClause.Operator.Reference
import WhereClause.Report

namespace WhereClause.CommandLine

structure Answer where
  code : Nat
  out : String
  err : String
deriving DecidableEq, Inhabited

def Answer.headline (a : Answer) : String := String.ofList (Text.firstLine a.err.toList)

def sampleCatalog : Catalog :=
  let order (name : String) (kind : Field.Kind) := (name, Field.mk ⟨some "Order", name⟩ kind)
  let orderType (name : String) (kind : Field.Kind) :=
    (name, Field.mk ⟨some "OrderType", name⟩ kind)
  Catalog.ofLists
    [order "Id" .guid,
     order "Status" .integer,
     order "StatusChangedOnUtc" .dateTime,
     order "CreatedOnUtc" .dateTime,
     order "CustomerName" .string,
     order "Address" .string,
     orderType "Type" .integer,
     orderType "Name" .string,
     orderType "Description" .string,
     ("Offer", ⟨⟨some "o", "Name"⟩, .string⟩)]
    [("Placed", .int 0),
     ("InPacking", .int 1),
     ("InTransit", .int 2),
     ("Delivered", .int 3),
     ("Standard", .int 0),
     ("Prime", .int 1)]

def sampleFilter : String :=
  "(status eq InTransit or status eq Delivered) and substring(CustomerName, 1, 3) eq 'Jim'"

def version : String := "filter-criteria 0.1.0"

namespace Request

def catalog (r : Request) : Catalog :=
  let base := if r.demo then sampleCatalog else Catalog.empty
  let named := r.fields.foldl (fun c entry => c.insertField entry.1 entry.2) base
  r.constants.foldl (fun c entry => c.insertConstant entry.1 entry.2) named

def parameters (r : Request) (c : Condition) : List Parameter :=
  if r.distinct then c.distinctParameters else c.parameters

def listing (r : Request) (c : Condition) : String :=
  let line (p : Parameter) := p.name ++ ": " ++ p.value.text ++ "\n"
  c.render (r.dialect.getD .sql) ++ "\n" ++ Text.concat ((r.parameters c).map line)

def compiled (r : Request) : Answer :=
  let source := r.filter.getD sampleFilter
  let outcome := Condition.compile .default r.catalog.vocabulary source
  let warnings := Text.concat (outcome.warnings.map fun w => "warning: " ++ w.message ++ "\n")
  match outcome.result with
  | .ok c => ⟨0, r.listing c, warnings⟩
  | .error f => ⟨1, "", warnings ++ Report.text source f⟩

def answer (r : Request) : Answer :=
  match r.operators with
  | some .markdown => ⟨0, Operator.markdown false, ""⟩
  | some .html => ⟨0, Operator.html, ""⟩
  | none => r.compiled

end Request

def run (arguments : List String) : Answer :=
  match Request.read arguments with
  | .ok r => r.answer
  -- Standard error is no terminal, so notices are written without control sequences.
  | .error (.misuse m) => ⟨2, "", Text.Control.plain m.notice⟩
  | .error .version => ⟨0, version ++ "\n", ""⟩

end WhereClause.CommandLine
