import Mathlib.Data.List.Infix
import WhereClause.Proofs.Literal.Quoted
import WhereClause.Proofs.Rendering.Template

namespace WhereClause

open Text

namespace Sql

inductive Lexeme where
  | word (w : String)
  | text (s : String)
  | plus
deriving DecidableEq

namespace Lexeme

def isLike : Lexeme → Bool
  | .word w => sameLetters w "LIKE"
  | _ => false

def continuesWord (c : Char) : Bool := isLetter c || isNumeral c || ['_', '@', '#', '$', '.'].contains c

/-- How many characters a word has. In brackets, which `true` stands for, every character belongs to it up to the
    closing bracket; one that is written twice does not close. -/
def wordExtent : Bool → List Char → Option Nat
  | true, [] => none
  | true, ']' :: ']' :: cs => (wordExtent true cs).map (· + 2)
  | true, ']' :: cs => (wordExtent false cs).map (· + 1)
  | true, _ :: cs => (wordExtent true cs).map (· + 1)
  | false, [] => some 0
  | false, '[' :: cs => (wordExtent true cs).map (· + 1)
  | false, c :: cs => if continuesWord c then (wordExtent false cs).map (· + 1) else some 0

def first? (c : Char) (cs : List Char) : Option (Lexeme × Nat) :=
  if c = '+' then some (.plus, 0)
  else if c = '\'' then
    (Quoted.extent cs).map fun n => (.text (String.ofList (Quoted.undouble (cs.take (n - 1)))), n)
  else
    match wordExtent false (c :: cs) with
    | some (n + 1) => some (.word (String.ofList (c :: cs.take n)), n)
    | _ => none

def read : List Char → Option (List Lexeme)
  | [] => some []
  | c :: cs =>
    if c.isWhitespace then read cs
    else
      match first? c cs with
      | some (l, n) => (read (cs.drop n)).map (l :: ·)
      | none => none
termination_by cs => cs.length
decreasing_by
  · simp
  · simp only [List.length_drop, List.length_cons]
    omega

end Lexeme

/-- What decides a test: the strings that words stand for, and which texts a pattern matches that begins with an
    opening bracket, by what follows the bracket. -/
structure Database where
  value? : String → Option String
  matchesSet : List Char → List Char → Bool

namespace Database

variable (db : Database)

def operand? : Lexeme → Option String
  | .word w => db.value? w
  | .text s => some s
  | .plus => none

def sum? : List Lexeme → Option String
  | [l] => db.operand? l
  | l :: .plus :: ls => do return (← db.operand? l) ++ (← sum? ls)
  | _ => none

/-- Whether the pattern matches the whole text: a percent sign stands for any characters and a low line for one. -/
def like : List Char → List Char → Bool
  | [], s => s.isEmpty
  | '%' :: p, s => s.tails.any (like p)
  | '_' :: p, s => s.tail?.any (like p)
  | '[' :: p, s => db.matchesSet p s
  | c :: p, s => s.head? == some c && like p s.tail

/-- The truth of a test that is written in SQL, if it is a test with LIKE. -/
def test? (sql : String) : Option Bool := do
  let ls ← Lexeme.read sql.toList
  let text ← db.sum? (ls.takeWhile (!·.isLike))
  match ls.dropWhile (!·.isLike) with
  | _ :: ls => return db.like (← db.sum? ls).toList text.toList
  | [] => none

end Database

namespace Lexeme

theorem wordExtent_close {cs : List Char} (single : cs.head? ≠ some ']') :
    wordExtent true (']' :: cs) = (wordExtent false cs).map (· + 1) :=
  wordExtent.eq_3 cs fun _ same => single (congrArg List.head? same)

theorem wordExtent_inside {c : Char} (other : c ≠ ']') (cs : List Char) :
    wordExtent true (c :: cs) = (wordExtent true cs).map (· + 1) :=
  wordExtent.eq_4 c cs (fun _ same _ => other same) other

theorem wordExtent_outside {c : Char} (other : c ≠ '[') (cs : List Char) :
    wordExtent false (c :: cs) = if continuesWord c then (wordExtent false cs).map (· + 1) else some 0 :=
  wordExtent.eq_7 c cs other

theorem wordExtent_append {inside : Bool} {cs : List Char} (h : wordExtent inside cs = some cs.length)
    {rest : List Char} (apart : rest.head? ≠ some ']') :
    wordExtent inside (cs ++ rest) = (wordExtent false rest).map (· + cs.length) := by
  have step {e : Option Nat} {m k : Nat} (h : e.map (· + k) = some (m + k)) : e = some m := by
    obtain ⟨n, found, same⟩ := Option.map_eq_some_iff.1 h
    rw [found, Nat.add_right_cancel same]
  have onward {e f : Option Nat} {m k : Nat} (h : e = f.map (· + m)) : e.map (· + k) = f.map (· + (m + k)) := by
    rw [h, Option.map_map]
    exact congrArg (f.map ·) (funext fun n => Nat.add_assoc n m k)
  fun_induction wordExtent inside cs with
  | case1 => cases h
  | case2 cs ih => exact onward (ih (step h))
  | case3 cs single ih =>
    have alone : (cs ++ rest).head? ≠ some ']' := by
      cases cs with
      | nil => exact apart
      | cons c cs =>
        rintro ⟨⟩
        exact single cs rfl
    rw [List.cons_append, wordExtent_close alone]
    exact onward (ih (step h))
  | case4 c cs _ other ih =>
    rw [List.cons_append, wordExtent_inside other]
    exact onward (ih (step h))
  | case5 => exact (Option.map_id' ..).symm
  | case6 cs ih => exact onward (ih (step h))
  | case7 c cs bracket continues ih =>
    rw [List.cons_append, wordExtent_outside bracket, if_pos continues]
    exact onward (ih (step h))
  | case8 => cases h

def IsWord (w : String) : Prop := w ≠ "" ∧ wordExtent false w.toList = some w.toList.length

theorem starts_of_wordExtent {c : Char} {cs : List Char} {n : Nat} (h : wordExtent false (c :: cs) = some (n + 1)) :
    c ≠ '+' ∧ c ≠ '\'' ∧ c.isWhitespace = false := by
  have starts : c = '[' ∨ continuesWord c = true := by
    by_cases bracket : c = '['
    · exact Or.inl bracket
    · rw [wordExtent_outside bracket] at h
      split at h
      · next continues => exact Or.inr continues
      · cases h
  rcases starts with rfl | continues
  · decide
  · refine ⟨?_, ?_, ?_⟩
    · rintro rfl
      exact absurd continues (by decide)
    · rintro rfl
      exact absurd continues (by decide)
    · rw [Bool.eq_false_iff]
      intro blank
      simp only [Char.isWhitespace, Bool.or_eq_true, decide_eq_true_eq] at blank
      rcases blank with ((rfl | rfl) | rfl) | rfl <;> exact absurd continues (by decide)

theorem read_cons {c : Char} {cs : List Char} {l : Lexeme} {n : Nat} (solid : c.isWhitespace = false)
    (h : first? c cs = some (l, n)) : read (c :: cs) = (read (cs.drop n)).map (l :: ·) := by
  rw [read, if_neg (by simp [solid]), h]

def Spells (text : String) (ls : List Lexeme) : Prop :=
  ∀ rest, (∀ c ∈ rest.head?, c = ' ') → read (text.toList ++ rest) = (read rest).map (ls ++ ·)

namespace Spells

variable {text more : String} {ls ms : List Lexeme}

theorem read_eq (h : Spells text ls) : read text.toList = some ls := by
  have whole := h [] nofun
  rwa [List.append_nil, read, Option.map_some, List.append_nil] at whole

theorem between (first : Spells text ls) (second : Spells more ms) : Spells (text ++ " " ++ more) (ls ++ ms) := by
  intro rest ends
  have blank : read (' ' :: (more.toList ++ rest)) = read (more.toList ++ rest) := by
    rw [read, if_pos (by decide)]
  have own := first (' ' :: (more.toList ++ rest)) (by rintro _ ⟨⟩; rfl)
  rw [blank, second rest ends, Option.map_map] at own
  rw [String.toList_append, String.toList_append, List.append_assoc, List.append_assoc]
  exact own.trans (congrArg ((read rest).map ·) (funext fun more => (List.append_assoc ls ms more).symm))

theorem plus : Spells "+" [.plus] := by
  intro rest _
  have sign : first? '+' rest = some (.plus, 0) := rfl
  exact read_cons (by decide) sign

theorem word {w : String} (h : IsWord w) : Spells w [.word w] := by
  intro rest ends
  obtain ⟨c, cs, letters⟩ := List.exists_cons_of_ne_nil fun none => h.1 (String.toList_inj.1 none)
  have extent := h.2
  have none : wordExtent false rest = some 0 := by
    cases rest with
    | nil => rfl
    | cons d rest =>
      rw [ends d rfl]
      rfl
  have apart : rest.head? ≠ some ']' := fun close => absurd (ends _ close) (by decide)
  have further := wordExtent_append extent apart
  rw [none, Option.map_some, Nat.zero_add] at further
  rw [letters] at extent further ⊢
  rw [List.cons_append] at further ⊢
  obtain ⟨plus, quote, solid⟩ := starts_of_wordExtent extent
  have first : first? c (cs ++ rest) = some (.word w, cs.length) := by
    rw [first?, if_neg plus, if_neg quote, further]
    simp only [List.length_cons, List.take_left]
    rw [← letters, String.ofList_toList]
  rw [read_cons solid first, List.drop_left]
  rfl

theorem literal (s : String) : Spells (Quoted.write s) [.text s] := by
  intro rest ends
  have apart : rest.head? ≠ some '\'' := fun quote => absurd (ends _ quote) (by decide)
  have first : first? '\'' (Quoted.double s.toList ++ '\'' :: rest) =
      some (.text s, (Quoted.double s.toList).length + 1) := by
    rw [first?, if_neg (by decide), if_pos rfl, Quoted.extent_double apart, Option.map_some, Nat.add_sub_cancel,
      List.take_left, Quoted.undouble_double, String.ofList_toList]
  have after : (Quoted.double s.toList ++ '\'' :: rest).drop ((Quoted.double s.toList).length + 1) = rest := by
    simp
  rw [Quoted.write, String.toList_ofList, List.cons_append, List.cons_append, List.append_assoc,
    List.singleton_append, read_cons (by decide) first, after]
  rfl

end Spells

structure IsName (w : String) : Prop where
  isWord : IsWord w
  marked : '[' ∈ w.toList ∨ '@' ∈ w.toList

theorem IsName.isLike {w : String} (h : IsName w) : (word w).isLike = false := by
  rw [Lexeme.isLike, Bool.eq_false_iff]
  intro same
  have letters : w.toList.map Char.toLower = ['l', 'i', 'k', 'e'] := by simpa [sameLetters] using same
  have kept {c : Char} (member : c ∈ w.toList) : c.toLower ∈ ['l', 'i', 'k', 'e'] :=
    letters ▸ List.mem_map_of_mem member
  rcases h.marked with bracket | sign
  · exact absurd (kept bracket) (by decide)
  · exact absurd (kept sign) (by decide)

theorem IsName.dotted {v w : String} (first : IsName v) (second : IsName w) : IsName (v ++ "." ++ w) := by
  have whole : (v ++ "." ++ w).toList = v.toList ++ '.' :: w.toList := by simp
  have point : wordExtent false ('.' :: w.toList) = some (w.toList.length + 1) := by
    rw [wordExtent_outside (by decide), if_pos (by decide), second.isWord.2]
    rfl
  refine ⟨⟨fun none => ?_, ?_⟩, ?_⟩
  · simpa using whole.symm.trans (congrArg String.toList none)
  · rw [whole, wordExtent_append first.isWord.2 (by simp), point, List.length_append, List.length_cons,
      Option.map_some, Nat.add_comm]
  · rw [whole]
    exact first.marked.imp (List.mem_append_left _) (List.mem_append_left _)

theorem isName_bracketPart {part : List Char} (closed : ']' ∉ part) : IsName (Column.bracketPart part) := by
  have inside (cs : List Char) (closed : ']' ∉ cs) : wordExtent true (cs ++ [']']) = some (cs ++ [']']).length := by
    induction cs with
    | nil => rfl
    | cons c cs ih =>
      simp only [List.mem_cons, not_or] at closed
      rw [List.cons_append, wordExtent_inside (Ne.symm closed.1), ih closed.2]
      rfl
  have kept : ']' ∉ ((part.dropWhile Column.isBracket).reverse.dropWhile Column.isBracket).reverse := by
    intro member
    have before := (List.dropWhile_sublist _).mem (List.mem_reverse.1 member)
    exact closed ((List.dropWhile_sublist _).mem (List.mem_reverse.1 before))
  rw [Column.bracketPart]
  generalize ((part.dropWhile Column.isBracket).reverse.dropWhile Column.isBracket).reverse = inner at kept
  have whole : ("[" ++ String.ofList inner ++ "]").toList = '[' :: (inner ++ [']']) := by simp
  refine ⟨⟨fun none => ?_, ?_⟩, ?_⟩
  · simpa using whole.symm.trans (congrArg String.toList none)
  · rw [whole, wordExtent, inside inner kept]
    rfl
  · rw [whole]
    exact Or.inl List.mem_cons_self

theorem isName_join {parts : List (List Char)} (some : parts ≠ []) (closed : ∀ part ∈ parts, ']' ∉ part) :
    IsName (join "." (parts.map Column.bracketPart)) := by
  induction parts with
  | nil => exact absurd rfl some
  | cons part parts ih =>
    obtain ⟨own, later⟩ := List.forall_mem_cons.1 closed
    rw [List.map_cons]
    by_cases last : parts = []
    · rw [last]
      exact isName_bracketPart own
    · rw [join_cons (by simpa using last)]
      exact (isName_bracketPart own).dotted (ih last later)

/-- A name that can be put in brackets, part by part. -/
def Bracketable (name : String) : Prop := name ≠ "*" ∧ ']' ∉ name.toList ∧ ∃ c ∈ name.toList, c ≠ '.'

instance (name : String) : Decidable (Bracketable name) :=
  decidable_of_iff (name ≠ "*" ∧ ']' ∉ name.toList ∧ name.toList.any (· ≠ '.') = true) (by simp [Bracketable])

theorem Bracketable.isName {name : String} (h : Bracketable name) : IsName (Column.bracket name) := by
  obtain ⟨star, closed, filled⟩ := h
  have held {c : Char} (other : c ≠ '.') : c ∈ name.toList ↔ ∃ part ∈ parts '.' name.toList, c ∈ part := by
    obtain ⟨first, rest, cut, whole⟩ := exists_parts '.' name.toList
    rw [cut, whole]
    simp [other]
  rw [Column.bracket, if_neg star]
  refine isName_join ?_ fun part member closing => ?_
  · obtain ⟨c, member, other⟩ := filled
    obtain ⟨part, listed, within⟩ := (held other).1 member
    exact List.ne_nil_of_mem (List.mem_filter.2 ⟨listed, by simpa using List.ne_nil_of_mem within⟩)
  · exact closed ((held (by decide)).2 ⟨part, (List.mem_filter.1 member).1, closing⟩)

theorem isName_column {c : Column} (h : ∀ name ∈ c.name :: c.qualifier.toList, Bracketable name) :
    IsName ((Atom.column c).render .sql) := by
  obtain ⟨own, qualifier⟩ := List.forall_mem_cons.1 h
  obtain ⟨_ | q, name⟩ := c
  · exact own.isName
  · exact (qualifier q (List.mem_singleton_self q)).isName.dotted own.isName

theorem isName_parameter {p : Parameter} (h : ∀ c ∈ p.name.toList, continuesWord c = true) :
    IsName ((Atom.parameter p).render .sql) := by
  have whole : ((Atom.parameter p).render .sql).toList = '@' :: p.name.toList := String.toList_append
  have letters (cs : List Char) (h : ∀ c ∈ cs, continuesWord c = true) : wordExtent false cs = some cs.length := by
    induction cs with
    | nil => rfl
    | cons c cs ih =>
      obtain ⟨own, later⟩ := List.forall_mem_cons.1 h
      have bracket : c ≠ '[' := by
        rintro rfl
        exact absurd own (by decide)
      rw [wordExtent_outside bracket, if_pos own, ih later]
      rfl
  refine ⟨⟨fun none => ?_, ?_⟩, ?_⟩
  · simpa using whole.symm.trans (congrArg String.toList none)
  · rw [whole]
    exact letters _ (List.forall_mem_cons.2 ⟨by decide, h⟩)
  · rw [whole]
    exact Or.inr List.mem_cons_self

end Lexeme

namespace Database

variable (db : Database)

def isWildcard (c : Char) : Bool := ['%', '_', '['].contains c

variable {p s : List Char}

theorem like_cons {c : Char} (plain : isWildcard c = false) (p s : List Char) :
    db.like (c :: p) s = (s.head? == some c && db.like p s.tail) := by
  simp [isWildcard] at plain
  rw [like] <;> simp [plain]

theorem like_append (plain : ∀ c ∈ p, isWildcard c = false) (q s : List Char) :
    db.like (p ++ q) s = true ↔ ∃ rest, p ++ rest = s ∧ db.like q rest = true := by
  induction p generalizing s with
  | nil => simp
  | cons c p ih =>
    obtain ⟨own, later⟩ := List.forall_mem_cons.1 plain
    rw [List.cons_append, like_cons db own, Bool.and_eq_true, ih later]
    cases s with
    | nil => simp
    | cons d s =>
      simp only [List.head?_cons, List.tail_cons, List.cons_append, List.cons.injEq, beq_iff_eq, Option.some.injEq]
      constructor
      · rintro ⟨rfl, rest, whole, fits⟩
        exact ⟨rest, ⟨rfl, whole⟩, fits⟩
      · rintro ⟨rest, ⟨rfl, whole⟩, fits⟩
        exact ⟨rfl, rest, whole, fits⟩

theorem like_self (plain : ∀ c ∈ p, isWildcard c = false) : db.like p s = true ↔ p = s := by
  have whole := like_append db plain [] s
  simpa [like] using whole

theorem like_any : db.like ['%'] s = true := by
  simp [like]

theorem like_percent (p s : List Char) :
    db.like ('%' :: p) s = true ↔ ∃ rest, rest <:+ s ∧ db.like p rest = true := by
  simp [like]

theorem like_starting (plain : ∀ c ∈ p, isWildcard c = false) : db.like (p ++ ['%']) s = decide (p <+: s) := by
  rw [Bool.eq_iff_iff, decide_eq_true_iff, like_append db plain]
  simp only [like_any, and_true]
  rfl

theorem like_ending (plain : ∀ c ∈ p, isWildcard c = false) : db.like ('%' :: p) s = decide (p <:+ s) := by
  rw [Bool.eq_iff_iff, decide_eq_true_iff, like_percent]
  simp only [like_self db plain, exists_eq_right']

theorem like_within (plain : ∀ c ∈ p, isWildcard c = false) :
    db.like ('%' :: (p ++ ['%'])) s = decide (p <:+: s) := by
  rw [Bool.eq_iff_iff, decide_eq_true_iff, like_percent]
  simp only [like_starting db plain, decide_eq_true_iff, List.infix_iff_prefix_suffix, and_comm]

theorem test?_like {sql text pattern : String} {left right : List Lexeme}
    (read : Lexeme.read sql.toList = some (left ++ .word "LIKE" :: right))
    (names : ∀ l ∈ left, l.isLike = false) (first : db.sum? left = some text)
    (second : db.sum? right = some pattern) : db.test? sql = some (db.like pattern.toList text.toList) := by
  have before : ∀ l ∈ left, (!l.isLike) = true := fun l member => by simp [names l member]
  have like : ¬(!(Lexeme.word "LIKE").isLike) = true := by decide
  have front : (left ++ .word "LIKE" :: right).takeWhile (!·.isLike) = left := by
    rw [List.takeWhile_append_of_pos before, List.takeWhile_cons, if_neg like, List.append_nil]
  have back : (left ++ .word "LIKE" :: right).dropWhile (!·.isLike) = .word "LIKE" :: right := by
    rw [List.dropWhile_append_of_pos before, List.dropWhile_cons, if_neg like]
  simp [test?, read, front, back, first, second]

end Database

end Sql

end WhereClause
