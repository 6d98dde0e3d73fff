import WhereClause.Operator.Table
import WhereClause.Text.Escape

namespace WhereClause.Operator

def headers : List String :=
  ["Keyword", "SQL", "Kind", "Filter template", "SQL template", "Notes"]

def documented (withUnimplemented : Bool) : List Operator :=
  table.filter fun o =>
    o.kind ≠ .whitespace && o.kind ≠ .grouping && (withUnimplemented || o.isImplemented)

def forms (o : Operator) (form : Templates → String) : String :=
  match o.overload with
  | some t => form o.templates ++ " / " ++ form t
  | none => form o.templates

def notes (o : Operator) : String :=
  match o.unimplemented with
  | some reason => "not implemented: " ++ reason
  | none => ""

def row (o : Operator) : List String :=
  [o.keyword, o.sql, o.kind.name, o.forms Templates.filter, o.forms Templates.sql, o.notes]

def markdownCell (cell : String) : String :=
  if cell = "" then ""
  -- A bar would end the cell.
  else "`" ++ String.ofList (cell.toList.flatMap fun c => if c = '|' then ['\\', '|'] else [c]) ++ "`"

def markdownRow (cells : List String) : String := "| " ++ " | ".intercalate cells ++ " |\n"

def markdown (withUnimplemented : Bool) : String :=
  markdownRow headers ++ "|" ++ String.join (headers.map fun _ => "---|") ++ "\n" ++
    String.join ((documented withUnimplemented).map fun o => markdownRow (o.row.map markdownCell))

def htmlRow (tag : String) (cells : List String) : String :=
  let cell (text : String) := "<" ++ tag ++ ">" ++ Text.escape text ++ "</" ++ tag ++ ">"
  "  <tr>" ++ String.join (cells.map cell) ++ "</tr>\n"

def html : String :=
  "<table>\n" ++ htmlRow "th" headers ++
    String.join ((documented true).map fun o => htmlRow "td" o.row) ++ "</table>\n"

end WhereClause.Operator
