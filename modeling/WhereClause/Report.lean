import WhereClause.Fault
import WhereClause.Text.Class
import WhereClause.Text.Join
import WhereClause.Text.Split

namespace WhereClause.Report

open Text

structure Span where
  start : Nat
  finish : Nat
deriving DecidableEq, Inhabited

def lengthOf : Nat → List (List Char) → Nat
  | 0, _ => 0
  | _, [] => 0
  | n + 1, line :: rest => line.length + 1 + lengthOf n rest

def offset (source : List Char) (p : Position) : Nat :=
  lengthOf (p.line - 1) (parts '\n' source) + (p.column - 1)

/-- The characters that a fault is about: its token, or one character if it has none. A span goes no
    further than the source. -/
def span (source : List Char) (f : Fault) : Span :=
  match f.position? with
  | none => ⟨0, source.length⟩
  | some p =>
    let start := min (offset source p) source.length
    let width := max 1 (f.token?.elim 1 String.length)
    ⟨start, min (start + width) (max source.length start)⟩

def endsLine (c : Char) : Bool :=
  ['\n', '\r', '\x0B', '\x0C', '\u0085', '\u2028', '\u2029'].contains c

def lines : List Char → List (List Char)
  | [] => []
  | '\r' :: '\n' :: cs => ['\r', '\n'] :: lines cs
  | c :: cs =>
    if endsLine c then [c] :: lines cs
    else
      match lines cs with
      | [] => [[c]]
      | line :: rest => (c :: line) :: rest

structure Place where
  line : Nat
  column : Nat
  text : List Char
deriving DecidableEq, Inhabited

def placeFrom (number into : Nat) : List (List Char) → Place
  | [] => ⟨number, into, []⟩
  | line :: rest =>
    -- The end of the source belongs to its last line.
    if rest.isEmpty || into < line.length then ⟨number, into, line⟩
    else placeFrom (number + 1) (into - line.length) rest

def place (source : List Char) (start : Nat) : Place := placeFrom 1 start (lines source)

def trimEnd (line : List Char) : List Char := (line.reverse.dropWhile isBlank).reverse

def repeated (n : Nat) (s : String) : String := concat (List.replicate n s)

def rows (source : String) (f : Fault) : List String :=
  let s := span source.toList f
  let p := place source.toList s.start
  let width := s.finish - s.start
  let half := width / 2
  let margin := "   │"
  ["Error: " ++ f.kind,
   "   ╭─[ filter:" ++ Nat.repr p.line ++ ":" ++ Nat.repr (p.column + 1) ++ " ]",
   margin,
   " " ++ Nat.repr p.line ++ " │ " ++ String.ofList (trimEnd p.text),
   margin ++ " " ++ repeated p.column " " ++ repeated half "─" ++ "┬" ++
     repeated (width - half - 1) "─" ++ "  ",
   margin ++ " " ++ repeated (p.column + half) " " ++ "╰" ++ repeated (width - half + 1) "─" ++ " " ++
     f.message,
   "───╯"]

def text (source : String) (f : Fault) : String := concat ((rows source f).map (· ++ "\n"))

end WhereClause.Report
