import WhereClause.Operator.Basic
import WhereClause.Text.Case

namespace WhereClause.Operator

namespace Form

def op : String := Template.mark "op"

def lhs : String := Template.mark Slot.left.marker

def rhs : String := Template.mark Slot.right.marker

def rhs1 : String := Template.mark Slot.third.marker

def between : String := lhs ++ " " ++ op ++ " " ++ rhs

def callOf (arguments : String) : String := op ++ "(" ++ arguments ++ ")"

def call0 : String := callOf ""

def call1 : String := callOf lhs

def call2 : String := callOf (lhs ++ "," ++ rhs)

def call3 : String := callOf (lhs ++ "," ++ rhs ++ "," ++ rhs1)

end Form

open Form

def bare (kind : Kind) (keyword sql : String) : Operator := ⟨keyword, sql, kind, ⟨keyword, sql⟩, none, none⟩

def alike (kind : Kind) (keyword sql form : String) : Operator := ⟨keyword, sql, kind, ⟨form, form⟩, none, none⟩

def call (keyword sql filterForm sqlForm : String) : Operator :=
  ⟨keyword, sql, .function, ⟨filterForm, sqlForm⟩, none, none⟩

def missing (keyword sql filterForm sqlForm reason : String) : Operator :=
  ⟨keyword, sql, .function, ⟨filterForm, sqlForm⟩, none, some reason⟩

def datePart (keyword part : String) : Operator :=
  call keyword "DATEPART" call1 (callOf (part ++ ", " ++ lhs))

def newLine : Operator := bare .whitespace "" "\r\n"

def conjunction : Operator := bare .binary "and" "AND"

def disjunction : Operator := bare .binary "or" "OR"

def caseSensitivity : String :=
  "needs a case-sensitive collation, e.g. attribute = 'k' COLLATE Latin1_General_CS_AS"

def table : List Operator :=
  [newLine,
   bare .grouping "(" "(",
   bare .grouping ")" ")",
   disjunction,
   conjunction,
   alike .logical "eq" "=" between,
   alike .logical "not" "NOT" (op ++ " " ++ rhs),
   alike .logical "ex" "EXISTS" (op ++ " (" ++ rhs ++ ")"),
   alike .logical "ge" ">=" between,
   alike .logical "gt" ">" between,
   alike .logical "le" "<=" between,
   alike .logical "lt" "<" between,
   alike .arithmetic "add" "+" between,
   alike .arithmetic "sub" "-" between,
   alike .arithmetic "mul" "*" between,
   alike .arithmetic "div" "/" between,
   alike .arithmetic "mod" "%" between,
   call "contains" "LIKE" call2 (lhs ++ " " ++ op ++ " '%' + " ++ rhs ++ " + '%'"),
   call "endswith" "LIKE" call2 (lhs ++ " " ++ op ++ " " ++ rhs ++ " + '%'"),
   call "startswith" "LIKE" call2 (lhs ++ " " ++ op ++ " '%' + " ++ rhs),
   alike .function "length" "LEN" call1,
   alike .function "indexof" "CHARINDEX" call2,
   ⟨"substring", "SUBSTRING", .function, ⟨call2, call2⟩, some ⟨call3, call3⟩, none⟩,
   missing "tolower" "LOWER" call1 call1 caseSensitivity,
   missing "toupper" "UPPER" call1 call1 caseSensitivity,
   call "trim" "LTRIM(RTRIM" call1 (call1 ++ ")"),
   alike .function "concat" "CONCAT" call2,
   datePart "year" "year",
   datePart "month" "month",
   datePart "day" "day",
   datePart "hour" "hour",
   datePart "minute" "minute",
   datePart "second" "second",
   datePart "fractionalseconds" "millisecond",
   missing "date" "?" call1 "?" "date",
   missing "time" "?" call1 "?" "time",
   missing "totaloffsetminutes" "?" call1 "?" "totaloffsetminutes",
   alike .function "now" "GETUTCDATE" call0,
   call "maxdatetime" "" call0 "CAST('9999-12-31 23:59:59.997' AS DATETIME)",
   call "mindatetime" "" call0 "CAST('1753-01-01 00:00:00.000' AS DATETIME)",
   missing "totalseconds" "?" call1 "?" "totalseconds",
   call "round" "ROUND" call1 (callOf (lhs ++ ",0")),
   alike .function "floor" "FLOOR" call1,
   alike .function "ceiling" "CEILING" call1,
   missing "isof" "?" "?" "?" "isof",
   missing "cast" "?" "?" "?" "cast",
   missing "geo.distance" "?" "?" "?" "geo.distance",
   missing "geo.intersects" "?" "?" "?" "geo.intersects",
   missing "geo.length" "?" "?" "?" "geo.length",
   missing "any" "?" "?" "?" "any",
   missing "all" "?" "?" "?" "all"]

def implemented : List Operator := table.filter isImplemented

def find? (keyword : String) : Option Operator :=
  let wanted := Text.lower keyword
  implemented.find? (·.keyword = wanted)

def namesFunction (keyword : String) : Bool := (find? keyword).any isFunction

def declared? (keyword : String) : Option Operator := table.find? (·.keyword = keyword)

def functionKeywords : List String :=
  ((implemented.filter isFunction).map keyword).mergeSort (· ≤ ·)

theorem mem_table_of_find? {word : String} {o : Operator} (h : find? word = some o) :
    o ∈ table ∧ o.isImplemented = true := by
  unfold find? at h
  exact List.mem_filter.1 (List.mem_of_find?_eq_some h)

theorem keywords_distinct : (table.map keyword).Nodup := by decide +kernel

end WhereClause.Operator
