import WhereClause.Fault
import WhereClause.Text.Quoted
import WhereClause.Token.Options

namespace WhereClause.Token

open Text

namespace Options

def wordExtent (o : Options) (cs : List Char) : Nat := (cs.takeWhile o.continuesWord).length

def digitExtent (cs : List Char) : Nat := (cs.takeWhile isDigit).length

def fractionExtent : List Char → Nat
  | '.' :: cs => if digitExtent cs = 0 then 0 else digitExtent cs + 1
  | _ => 0

def numberExtent (o : Options) (cs : List Char) : Kind × Nat :=
  let number := digitExtent cs + fractionExtent (cs.drop (digitExtent cs))
  let rest := cs.drop number
  if o.digitsInWords && rest.head?.any o.continuesWord then (.word, number + o.wordExtent rest)
  else (.number, number)

def blankExtent (cs : List Char) : Nat :=
  (cs.takeWhile fun c => isBlank c && c ≠ '\r' && c ≠ '\n').length

/-- The kind of the token that starts with `c` and how many characters of `cs` belong to it; none
    for a string without an end. -/
def token? (o : Options) (c : Char) (cs : List Char) : Option (Kind × Nat) :=
  if c = '\'' then (Quoted.extent cs).map fun n => (.quoted, n)
  else if c = '\r' then some (.lineEnd, if cs.head? = some '\n' then 1 else 0)
  else if c = '\n' then some (.lineEnd, 0)
  else if isBlank c then some (.blank, blankExtent cs)
  else if o.symbols.contains c then some (.symbol, 0)
  else if isDigit c then some (o.numberExtent cs)
  else if startsWord c || o.othersInWords then some (.word, o.wordExtent cs)
  else some (.symbol, 0)

end Options

def Kind.advance (k : Kind) (p : Position) (cs : List Char) : Position :=
  if k = .lineEnd then p.nextLine else p.after cs

/-- The tokens up to the end of the text or up to a string without an end, and where that starts. -/
structure Scan where
  tokens : List Token
  unterminated : Option Position
deriving DecidableEq, Inhabited

namespace Scan

def cons (t : Token) (s : Scan) : Scan := { s with tokens := t :: s.tokens }

def full (o : Options) (p : Position) (text : List Char) : Scan :=
  match text with
  | [] => ⟨[⟨.finish, "", p⟩], none⟩
  | c :: cs =>
    match o.token? c cs with
    | none => ⟨[], some p⟩
    | some (kind, n) =>
      let taken := c :: cs.take n
      cons ⟨kind, String.ofList taken, p⟩ (full o (kind.advance p taken) (cs.drop n))
termination_by text.length
decreasing_by
  simp only [List.length_drop, List.length_cons]
  omega

def withoutBlanks (s : Scan) : Scan :=
  { s with tokens := s.tokens.filter fun t => t.kind ≠ .blank && t.kind ≠ .lineEnd }

def fault? (s : Scan) : Option Fault := s.unterminated.map (.lexical .unterminatedString)

def complete (s : Scan) : Except Fault (List Token) :=
  match s.fault? with
  | some fault => .error fault
  | none => .ok s.tokens

end Scan

def scan (o : Options) (text : String) : Scan :=
  let s := Scan.full o .start text.toList
  if o.skipBlanks then s.withoutBlanks else s

end WhereClause.Token
