import WhereClause.Text.Class

namespace WhereClause.Token

structure Options where
  skipBlanks : Bool
  symbols : List Char
  /-- Digits go on with a word, and a number that runs into a word is part of it. -/
  digitsInWords : Bool
  othersInWords : Bool
deriving DecidableEq, Inhabited

namespace Options

open Text

def plain : Options := ⟨false, ['(', ')', ','], false, false⟩

/-- For filters: `Order.Status`, `-1` and `geo.distance` are one word each. -/
def filter : Options := { plain with skipBlanks := true, digitsInWords := true, othersInWords := true }

def startsWord (c : Char) : Bool := isLetter c || c = '_'

def isOther (o : Options) (c : Char) : Bool :=
  !(isLetter c || isNumeral c || c = '_' || c = '\'' || isBlank c || o.symbols.contains c)

def continuesWord (o : Options) (c : Char) : Bool :=
  startsWord c || (if isDigit c then o.digitsInWords else o.othersInWords && o.isOther c)

end Options

end WhereClause.Token
