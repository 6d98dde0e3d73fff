namespace WhereClause.Text.Control

def emphasize (s : String) : String := "\x1b[1m" ++ s ++ "\x1b[0m"

inductive Mode where
  | outside
  | escape
  | escapeIntermediate
  | parameters
  | device
  | deviceParameters
  | deviceIntermediate
  | string
  | command
deriving DecidableEq, Inhabited

def isLayout (c : Char) : Bool := c = '\t' || c = '\n' || c = '\x0C' || c = '\r'

def isShown (c : Char) : Bool := isLayout c || (' ' ≤ c && c ≠ '\x7F')

def within (first last c : Char) : Bool := first ≤ c && c ≤ last

def endsString (c : Char) : Bool :=
  -- The mark is a byte; inside the encoding of a character it counts too.
  (String.utf8EncodeChar c).contains 0x9C

namespace Mode

/-- Whether the character is left in the text. White space goes through a sequence that is no string,
    and breaks it off. -/
def keeps : Mode → Char → Bool
  | .outside, c => isShown c
  | .escape, c | .escapeIntermediate, c | .parameters, c => isLayout c
  | _, _ => false

def afterEscape (c : Char) : Mode :=
  if within ' ' '/' c then .escapeIntermediate
  else if c = '[' then .parameters
  else if c = ']' then .command
  else if c = 'P' then .device
  else if c = 'X' || c = '^' || c = '_' then .string
  else if within '0' '~' c then .outside
  else .escape

def inside : Mode → Char → Mode
  | .outside, _ => .outside
  | .escape, c => afterEscape c
  | .escapeIntermediate, c => if within '0' '~' c then .outside else .escapeIntermediate
  | .parameters, c => if within '@' '~' c then .outside else .parameters
  | .device, c =>
    if within ' ' '/' c then .deviceIntermediate
    else if within '0' '?' c then .deviceParameters
    else if within '@' '~' c then .string
    else .device
  | .deviceParameters, c =>
    if within ' ' '/' c then .deviceIntermediate
    else if within '<' '~' c then .string
    else .deviceParameters
  | .deviceIntermediate, c => if within '0' '~' c then .string else .deviceIntermediate
  | .string, c => if endsString c then .outside else .string
  | .command, c => if c = '\x07' then .outside else .command

/-- The mode after a character that is left out. Two characters cancel any sequence, and an escape
    starts a new one. -/
def next (m : Mode) (c : Char) : Mode :=
  if c = '\x18' || c = '\x1A' then .outside
  else if c = '\x1B' then .escape
  else m.inside c

end Mode

def plainFrom : Mode → List Char → List Char
  | _, [] => []
  | m, c :: cs => if m.keeps c then c :: plainFrom .outside cs else plainFrom (m.next c) cs

def plain (s : String) : String := String.ofList (plainFrom .outside s.toList)

theorem isShown_of_keeps {m : Mode} {c : Char} (h : m.keeps c = true) : isShown c = true := by
  unfold Mode.keeps at h
  split at h <;> simp_all [isShown]

theorem isShown_of_mem_plainFrom {m : Mode} {cs : List Char} {c : Char} (h : c ∈ plainFrom m cs) :
    isShown c = true := by
  induction cs generalizing m with
  | nil => cases h
  | cons d cs ih =>
    simp only [plainFrom] at h
    split at h
    · next kept =>
      rcases List.mem_cons.1 h with rfl | member
      · exact isShown_of_keeps kept
      · exact ih member
    · exact ih h

theorem plainFrom_shown {cs : List Char} (h : ∀ c ∈ cs, isShown c = true) :
    plainFrom .outside cs = cs := by
  induction cs with
  | nil => rfl
  | cons c cs ih =>
    have kept : Mode.keeps .outside c = true := h c List.mem_cons_self
    have rest := ih fun d member => h d (List.mem_cons_of_mem _ member)
    simp [plainFrom, kept, rest]

theorem plain_plain (s : String) : plain (plain s) = plain s := by
  simp only [plain, String.toList_ofList]
  rw [plainFrom_shown fun c member => isShown_of_mem_plainFrom member]

end WhereClause.Text.Control
