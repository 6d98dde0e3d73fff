import Mathlib.Data.List.TakeWhile
import WhereClause.Proofs.Enclosure.Scan
import WhereClause.Proofs.Scan.Cover

namespace WhereClause

namespace Text

theorem Ranges.covers_iff_mem {rs : Ranges} {n : Nat} :
    rs.covers n = true ↔ n ∈ rs.flatMap fun r => List.range' r.1 (r.2 + 1 - r.1) := by
  simp only [covers_iff, List.mem_flatMap, List.mem_range'_1]
  refine exists_congr fun r => and_congr_right fun _ => ?_
  omega

theorem not_of_isBlank {c : Char} (h : isBlank c = true) :
    Token.Options.startsWord c = false ∧ isDigit c = false := by
  have points : ∀ n ∈ blanks.flatMap fun r => List.range' r.1 (r.2 + 1 - r.1),
      Token.Options.startsWord (Char.ofNat n) = false ∧ isDigit (Char.ofNat n) = false := by
    decide +kernel
  have own := points c.toNat (Ranges.covers_iff_mem.1 h)
  rwa [Char.ofNat_toNat] at own

def IsPlainNumber (cs : List Char) : Prop :=
  ∃ whole fraction, whole ≠ [] ∧ (∀ c ∈ whole ++ fraction, isDigit c = true) ∧
    (cs = whole ∨ fraction ≠ [] ∧ cs = whole ++ '.' :: fraction)

namespace Quoted

theorem count_double (cs : List Char) : (double cs).count '\'' % 2 = 0 := by
  induction cs with
  | nil => rfl
  | cons c cs ih =>
    by_cases quote : c = '\''
    · rw [double, if_pos quote, List.count_cons_self, List.count_cons_self]
      omega
    · rw [double, if_neg quote, List.count_cons_of_ne quote]
      exact ih

theorem exists_extent_of_odd {cs : List Char} (odd : cs.count '\'' % 2 = 1) : ∃ n, extent cs = some n := by
  induction cs using extent.induct with
  | case1 => cases odd
  | case2 cs ih =>
    rw [List.count_cons_self, List.count_cons_self] at odd
    obtain ⟨n, found⟩ := ih (by omega)
    exact ⟨n + 2, by rw [extent, found]; rfl⟩
  | case3 cs single => exact ⟨1, (extent.eq_3 _ _ single).trans (if_pos rfl)⟩
  | case4 c cs _ other ih =>
    rw [List.count_cons_of_ne other] at odd
    obtain ⟨n, found⟩ := ih odd
    exact ⟨n + 1, by rw [extent_cons other, found]; rfl⟩

end Quoted

end Text

namespace Token

open Text

def isRunChar (c : Char) : Bool := !(isBlank c || c = '\'' || Options.filter.symbols.contains c)

namespace Options

theorem continuesWord_iff {c : Char} (h : isRunChar c = true) :
    filter.continuesWord c = true ↔ (isNumeral c = true → isLetter c = true ∨ isDigit c = true) := by
  simp only [isRunChar, Bool.not_eq_true', Bool.or_eq_false_iff, decide_eq_false_iff_not] at h
  obtain ⟨⟨blank, quote⟩, symbol⟩ := h
  have line : isNumeral '_' = false := by decide +kernel
  by_cases same : c = '_'
  · subst same
    simp [line, continuesWord, startsWord]
  · have other : filter.isOther c = !(isLetter c || isNumeral c) := by
      rw [isOther, symbol, blank]
      simp [quote, same]
    have class_eq : filter.continuesWord c = (isLetter c || (if isDigit c then true else filter.isOther c)) := by
      simp [continuesWord, startsWord, same, filter]
    rw [class_eq, other]
    cases isLetter c <;> cases isDigit c <;> cases isNumeral c <;> decide

theorem stops_of_not_isRunChar {c : Char} (h : isRunChar c = false) : filter.continuesWord c = false := by
  simp only [isRunChar, Bool.not_eq_false', Bool.or_eq_true, decide_eq_true_eq, List.contains_iff_mem] at h
  rcases h with (blank | rfl) | symbol
  · obtain ⟨word, digit⟩ := not_of_isBlank blank
    simp [continuesWord, word, digit, isOther, blank]
  · decide
  · simp only [filter, plain, List.mem_cons, List.not_mem_nil, or_false] at symbol
    rcases symbol with rfl | rfl | rfl <;> decide

theorem stops_dropWhile {p : Char → Bool} (cs : List Char) : ∀ c ∈ (cs.dropWhile p).head?, p c = false := by
  intro c first
  have stopped := List.head?_dropWhile_not (p := p) (l := cs)
  rw [first] at stopped
  simpa using stopped

/-- How many of the characters are digits, or a point between digits. -/
def numberLength (cs : List Char) : Nat := digitExtent cs + fractionExtent (cs.drop (digitExtent cs))

theorem numberLength_le (cs : List Char) : numberLength cs ≤ cs.length := by
  have digits := digitExtent_le cs
  have fraction := fractionExtent_le (cs.drop (digitExtent cs))
  rw [List.length_drop] at fraction
  rw [numberLength]
  omega

theorem digitExtent_eq_length_iff {cs : List Char} : digitExtent cs = cs.length ↔ ∀ c ∈ cs, isDigit c = true := by
  rw [← List.takeWhile_eq_self_iff]
  exact ⟨(List.takeWhile_sublist _).eq_of_length, congrArg List.length⟩

theorem fractionExtent_eq_length_iff {cs : List Char} : fractionExtent cs = cs.length ↔
    cs = [] ∨ ∃ ds, ds ≠ [] ∧ (∀ c ∈ ds, isDigit c = true) ∧ cs = '.' :: ds := by
  unfold fractionExtent
  split
  · next ds =>
    constructor
    · intro whole
      split at whole
      · cases whole
      · next filled =>
        have digits := digitExtent_eq_length_iff.1 (Nat.succ.inj whole)
        exact Or.inr ⟨ds, fun none => filled (by rw [none]; rfl), digits, rfl⟩
    · rintro (none | ⟨_, filled, digits, same⟩)
      · cases none
      · obtain rfl := (List.cons.inj same).2
        have whole := digitExtent_eq_length_iff.2 digits
        rw [if_neg (whole ▸ fun none => filled (List.length_eq_zero_iff.1 none)), whole, List.length_cons]
  · next other =>
    constructor
    · exact fun none => Or.inl (List.length_eq_zero_iff.1 none.symm)
    · rintro (rfl | ⟨ds, -, -, rfl⟩)
      · rfl
      · exact absurd rfl (other ds)

theorem isPlainNumber_cons_iff {c : Char} {w : List Char} :
    IsPlainNumber (c :: w) ↔ isDigit c = true ∧ numberLength w = w.length := by
  have extent {ds rest : List Char} (digits : ∀ c ∈ ds, isDigit c = true)
      (stop : ∀ c ∈ rest.head?, isDigit c = false) :
      numberLength (ds ++ rest) = (ds ++ rest).length ↔ fractionExtent rest = rest.length := by
    have front : digitExtent (ds ++ rest) = ds.length := by
      rw [digitExtent, takeWhile_append_of_head stop, ← digitExtent, digitExtent_eq_length_iff.2 digits]
    rw [numberLength, front, List.drop_left, List.length_append, Nat.add_left_cancel_iff]
  constructor
  · rintro ⟨whole, fraction, nonempty, digits, same⟩
    obtain ⟨d, ds, rfl⟩ := List.exists_cons_of_ne_nil nonempty
    obtain ⟨front, back⟩ := List.forall_mem_append.1 digits
    obtain ⟨digit, more⟩ := List.forall_mem_cons.1 front
    rcases same with same | ⟨filled, same⟩
    · obtain ⟨rfl, tail⟩ := List.cons.inj same
      refine ⟨digit, ?_⟩
      have stop : ∀ c ∈ ([] : List Char).head?, isDigit c = false := by simp
      rw [tail, ← List.append_nil ds]
      exact (extent more stop).2 rfl
    · obtain ⟨rfl, tail⟩ := List.cons.inj same
      refine ⟨digit, ?_⟩
      have written : w = ds ++ '.' :: fraction := tail
      have stop : ∀ c ∈ ('.' :: fraction).head?, isDigit c = false := by
        intro c first
        obtain rfl := Option.some.inj first
        decide
      rw [written, extent more stop, fractionExtent_eq_length_iff]
      exact Or.inr ⟨fraction, filled, back, rfl⟩
  · rintro ⟨digit, whole⟩
    have parts := (List.takeWhile_append_dropWhile (p := isDigit) (l := w)).symm
    have digits : ∀ c ∈ w.takeWhile isDigit, isDigit c = true := fun c member => List.mem_takeWhile_imp member
    rw [parts, extent digits (stops_dropWhile w), fractionExtent_eq_length_iff] at whole
    rcases whole with none | ⟨ds, filled, more, point⟩
    · rw [none, List.append_nil] at parts
      exact ⟨c :: w, [], List.cons_ne_nil _ _, by simpa [digit] using parts ▸ digits, Or.inl rfl⟩
    · rw [point] at parts
      refine ⟨c :: w.takeWhile isDigit, ds, List.cons_ne_nil _ _, ?_, Or.inr ⟨filled, congrArg (c :: ·) parts⟩⟩
      exact List.forall_mem_append.2 ⟨List.forall_mem_cons.2 ⟨digit, digits⟩, more⟩

theorem numberExtent_of_continues {w : List Char} (h : ∀ c ∈ w, filter.continuesWord c = true) :
    filter.numberExtent w = (if numberLength w = w.length then .number else .word, w.length) := by
  have bound := numberLength_le w
  have split := List.take_append_drop (numberLength w) w
  have length := List.length_drop (i := numberLength w) (l := w)
  have counted : filter.numberExtent w =
      if (w.drop (numberLength w)).head?.any filter.continuesWord then
        (.word, numberLength w + filter.wordExtent (w.drop (numberLength w)))
      else (.number, numberLength w) := rfl
  rw [counted]
  cases rest : w.drop (numberLength w) with
  | nil =>
    rw [rest, List.length_nil] at length
    have all : numberLength w = w.length := by omega
    rw [if_pos all, all]
    rfl
  | cons d ds =>
    have later : ∀ c ∈ d :: ds, filter.continuesWord c = true := fun c member =>
      h c (List.mem_of_mem_drop (rest ▸ member))
    rw [rest, List.length_cons] at length
    have first : (d :: ds).head?.any filter.continuesWord = true := later d List.mem_cons_self
    have extent : filter.wordExtent (d :: ds) = ds.length + 1 := by
      rw [wordExtent, List.takeWhile_eq_self_iff.2 later, List.length_cons]
    have all : numberLength w + (ds.length + 1) = w.length := by omega
    rw [if_pos first, if_neg (by omega : numberLength w ≠ w.length), extent, all]

def KindFits (k : Kind) (cs : List Char) : Prop := k = .number ∧ IsPlainNumber cs ∨ k = .word ∧ ¬IsPlainNumber cs

theorem exists_kind_of_isRunChar {c : Char} (h : isRunChar c = true) (cs : List Char) :
    ∃ kind, filter.token? c cs = some (kind, filter.wordExtent cs) ∧
      KindFits kind (c :: cs.takeWhile filter.continuesWord) := by
  simp only [isRunChar, Bool.not_eq_true', Bool.or_eq_false_iff, decide_eq_false_iff_not] at h
  obtain ⟨⟨blank, quote⟩, symbol⟩ := h
  obtain ⟨-, carriage, feed, -⟩ := isSolid_of_isBlank quote blank
  rw [token?, if_neg quote, if_neg carriage, if_neg feed, if_neg (by simp [blank]), symbol,
    if_neg Bool.false_ne_true]
  cases digit : isDigit c with
  | true =>
    have parts := List.takeWhile_append_dropWhile (p := filter.continuesWord) (l := cs)
    have counted := numberExtent_append (stops_dropWhile cs) (cs.takeWhile filter.continuesWord)
    rw [parts, numberExtent_of_continues fun d member => List.mem_takeWhile_imp member] at counted
    rw [if_pos rfl, counted]
    refine ⟨_, rfl, ?_⟩
    rw [KindFits, isPlainNumber_cons_iff, and_iff_right digit]
    split
    · next whole => exact Or.inl ⟨rfl, whole⟩
    · next whole => exact Or.inr ⟨rfl, whole⟩
  | false =>
    have others : (startsWord c || filter.othersInWords) = true := by simp [filter]
    rw [if_neg Bool.false_ne_true, if_pos others]
    refine ⟨.word, rfl, Or.inr ⟨rfl, fun number => ?_⟩⟩
    rw [isPlainNumber_cons_iff, digit] at number
    exact Bool.false_ne_true number.1

theorem takeWhile_append_of_getLast? {p : Char → Bool} {ds : List Char} (filled : ds ≠ [])
    (last : ∀ d ∈ ds.getLast?, p d = false) (rest : List Char) :
    (ds ++ rest).takeWhile p = ds.takeWhile p := by
  rw [List.takeWhile_append, if_neg]
  intro whole
  have all := List.takeWhile_eq_self_iff.1 ((List.takeWhile_sublist p).eq_of_length whole)
  have stopped := last _ (List.getLast?_eq_some_getLast filled)
  rw [all _ (List.getLast_mem filled)] at stopped
  cases stopped

variable {c d : Char} {ds : List Char}

theorem exists_extent_of_isBlank (run : isBlank c = false) (blank : isBlank d = true) (cs : List Char) :
    ∃ kind n, filter.token? d (ds ++ c :: cs) = some (kind, n) ∧ n ≤ ds.length ∧ '\'' ∉ ds.take n := by
  have quote : d ≠ '\'' := by
    rintro rfl
    exact absurd blank (by decide)
  rw [token?, if_neg quote]
  split
  · cases ds with
    | nil =>
      have alone : ([] ++ c :: cs).head? ≠ some '\n' := by
        rintro ⟨⟩
        exact absurd run (by decide)
      rw [if_neg alone]
      exact ⟨_, 0, rfl, Nat.le_refl 0, by simp⟩
    | cons e es =>
      split
      · next first =>
        obtain rfl : e = '\n' := Option.some.inj first
        exact ⟨_, 1, rfl, Nat.succ_le_succ (Nat.zero_le _), by simp⟩
      · exact ⟨_, 0, rfl, Nat.zero_le _, by simp⟩
  split
  · exact ⟨_, 0, rfl, Nat.zero_le _, by simp⟩
  have stop : ∀ x ∈ (c :: cs).head?, (isBlank x && x ≠ '\r' && x ≠ '\n') = false := by
    intro x first
    obtain rfl := Option.some.inj first
    rw [run]
    rfl
  rw [blankExtent, takeWhile_append_of_head stop]
  refine ⟨_, _, rfl, (List.takeWhile_sublist _).length_le, fun member => ?_⟩
  rw [take_takeWhile_length] at member
  exact absurd (List.mem_takeWhile_imp member) (by decide)

theorem exists_extent_free (run : isRunChar c = true) (last : ∀ x ∈ (d :: ds).getLast?, isRunChar x = false)
    (quote : d ≠ '\'') (cs : List Char) :
    ∃ kind n, filter.token? d (ds ++ c :: cs) = some (kind, n) ∧ n ≤ ds.length ∧ '\'' ∉ ds.take n := by
  cases own : isRunChar d with
  | true =>
    obtain ⟨kind, found, -⟩ := exists_kind_of_isRunChar own (ds ++ c :: cs)
    have filled : ds ≠ [] := by
      rintro rfl
      exact Bool.false_ne_true ((last d rfl).symm.trans own)
    have later : ∀ x ∈ ds.getLast?, filter.continuesWord x = false := by
      obtain ⟨e, es, rfl⟩ := List.exists_cons_of_ne_nil filled
      exact fun x final => stops_of_not_isRunChar (last x (by rwa [List.getLast?_cons_cons]))
    rw [wordExtent, takeWhile_append_of_getLast? filled later] at found
    refine ⟨kind, _, found, (List.takeWhile_sublist _).length_le, fun member => ?_⟩
    rw [take_takeWhile_length] at member
    exact absurd (List.mem_takeWhile_imp member) (by decide)
  | false =>
    simp only [isRunChar, Bool.not_eq_true', Bool.or_eq_false_iff] at run
    simp only [isRunChar, Bool.not_eq_false', Bool.or_eq_true, decide_eq_true_eq, List.contains_iff_mem] at own
    rcases own with (blank | same) | symbol
    · exact exists_extent_of_isBlank run.1.1 blank cs
    · exact absurd same quote
    · simp only [filter, plain, List.mem_cons, List.not_mem_nil, or_false] at symbol
      rcases symbol with rfl | rfl | rfl <;> exact ⟨.symbol, 0, rfl, Nat.zero_le _, by simp⟩

theorem exists_extent_of_quote (o : Options) (other : c ≠ '\'') (outside : ('\'' :: ds).count '\'' % 2 = 0)
    (cs : List Char) : ∃ kind n, o.token? '\'' (ds ++ c :: cs) = some (kind, n) ∧ n ≤ ds.length ∧
      (ds.drop n).count '\'' % 2 = 0 := by
  -- The quotes that are left are odd in number, so that the string is closed before the character.
  rw [List.count_cons_self] at outside
  obtain ⟨n, closed⟩ := Quoted.exists_extent_of_odd (by omega : ds.count '\'' % 2 = 1)
  have apart : (c :: cs).head? ≠ some '\'' := fun same => other (Option.some.inj same)
  obtain ⟨extent, within⟩ := Quoted.extent_append closed apart
  refine ⟨.quoted, n, by rw [token?, if_pos rfl, extent]; rfl, within, ?_⟩
  obtain ⟨inner, tail, rfl, -, rfl⟩ := Quoted.extent_eq_some_iff.1 closed
  have even := Quoted.count_double inner
  have tail_eq : (Quoted.double inner ++ '\'' :: tail).drop ((Quoted.double inner).length + 1) = tail := by simp
  rw [List.count_append, List.count_cons_self] at outside
  rw [tail_eq]
  omega

theorem count_drop_of_not_mem {n : Nat} (outside : ds.count '\'' % 2 = 0) (free : '\'' ∉ ds.take n) :
    (ds.drop n).count '\'' % 2 = 0 := by
  rw [← List.take_append_drop n ds, List.count_append, List.count_eq_zero.2 free, Nat.zero_add] at outside
  exact outside

theorem exists_extent_before_run (run : isRunChar c = true) (last : ∀ x ∈ (d :: ds).getLast?, isRunChar x = false)
    (outside : (d :: ds).count '\'' % 2 = 0) (cs : List Char) :
    ∃ kind n, filter.token? d (ds ++ c :: cs) = some (kind, n) ∧ n ≤ ds.length ∧
      (ds.drop n).count '\'' % 2 = 0 := by
  by_cases quote : d = '\''
  · subst quote
    have other : c ≠ '\'' := by
      rintro rfl
      exact absurd run (by decide)
    exact exists_extent_of_quote filter other outside cs
  · obtain ⟨kind, n, found, within, free⟩ := exists_extent_free run last quote cs
    rw [List.count_cons_of_ne quote] at outside
    exact ⟨kind, n, found, within, count_drop_of_not_mem outside free⟩

end Options

/-- A run of characters outside strings, as long as it can be. Outside strings an even number of quotes stands
    before. -/
structure Run (text : String) where
  before : List Char
  chars : List Char
  after : List Char
  whole : text.toList = before ++ (chars ++ after)
  filled : chars ≠ []
  isRun : ∀ c ∈ chars, isRunChar c = true
  starts : ∀ c ∈ before.getLast?, isRunChar c = false
  ends : ∀ c ∈ after.head?, isRunChar c = false
  outside : before.count '\'' % 2 = 0

namespace Scan

variable {o : Options}

theorem exists_tokens_of_extents {before rest : List Char}
    (ends : ∀ d ds, d :: ds <:+ before → (d :: ds).count '\'' % 2 = 0 →
      ∃ kind n, o.token? d (ds ++ rest) = some (kind, n) ∧ n ≤ ds.length ∧ (ds.drop n).count '\'' % 2 = 0)
    (outside : before.count '\'' % 2 = 0) (p : Position) : ∃ ts, texts ts = before ∧
      (full o p (before ++ rest)).tokens = ts ++ (full o (endFrom p ts) rest).tokens := by
  induction size : before.length using Nat.strongRecOn generalizing before p with
  | ind size ih =>
    subst size
    cases before with
    | nil => exact ⟨[], rfl, rfl⟩
    | cons d ds =>
      obtain ⟨kind, n, found, within, further⟩ := ends d ds (List.suffix_refl _) outside
      have shorter : (ds.drop n).length < (d :: ds).length := by
        simp only [List.length_drop, List.length_cons]
        omega
      have inside : ds.drop n <:+ d :: ds := (List.drop_suffix n ds).trans (List.suffix_cons d ds)
      obtain ⟨ts, own, later⟩ := ih _ shorter (fun e es part => ends e es (part.trans inside)) further
        (kind.advance p (d :: ds.take n)) rfl
      rw [← List.drop_append_of_le_length within] at later
      refine ⟨⟨kind, String.ofList (d :: ds.take n), p⟩ :: ts, ?_, ?_⟩
      · rw [texts_cons, own, String.toList_ofList, List.cons_append, List.take_append_drop]
      · rw [List.cons_append, full_cons found, List.take_append_of_le_length within, endFrom_cons,
          String.toList_ofList]
        exact congrArg (_ :: ·) later

theorem exists_tokens_before {before : List Char} {c : Char} (run : isRunChar c = true)
    (starts : ∀ d ∈ before.getLast?, isRunChar d = false) (outside : before.count '\'' % 2 = 0) (cs : List Char)
    (p : Position) : ∃ ts, texts ts = before ∧
      (full .filter p (before ++ c :: cs)).tokens = ts ++ (full .filter (endFrom p ts) (c :: cs)).tokens := by
  refine exists_tokens_of_extents (fun d ds part even => ?_) outside p
  obtain ⟨front, rfl⟩ := part
  have last : (front ++ d :: ds).getLast? = (d :: ds).getLast? := by
    rw [List.getLast?_append, List.getLast?_cons, Option.some_or]
  rw [last] at starts
  exact Options.exists_extent_before_run run starts even cs

/-- The characters of a run, cut before each that cannot go on with a word. -/
def pieces (chars : List Char) : List (List Char) :=
  match chars with
  | [] => []
  | c :: cs => (c :: cs.takeWhile Options.filter.continuesWord) :: pieces (cs.dropWhile Options.filter.continuesWord)
termination_by chars.length
decreasing_by
  have shorter := (List.dropWhile_sublist Options.filter.continuesWord (l := cs)).length_le
  rw [List.length_cons]
  omega

theorem exists_tokens_of_run {chars after : List Char} (run : ∀ c ∈ chars, isRunChar c = true)
    (ends : ∀ c ∈ after.head?, isRunChar c = false) (p : Position) :
    ∃ ts, ts.map (·.text.toList) = pieces chars ∧ (∀ t ∈ ts, Options.KindFits t.kind t.text.toList) ∧
      (full .filter p (chars ++ after)).tokens = ts ++ (full .filter (endFrom p ts) after).tokens := by
  have stops : Stops after := fun c first => Options.stops_of_not_isRunChar (ends c first)
  induction chars using pieces.induct generalizing p with
  | case1 => exact ⟨[], by rw [pieces]; rfl, nofun, rfl⟩
  | case2 c cs ih =>
    obtain ⟨own, more⟩ := List.forall_mem_cons.1 run
    obtain ⟨kind, found, fits⟩ := Options.exists_kind_of_isRunChar own (cs ++ after)
    have within := (List.takeWhile_sublist Options.filter.continuesWord (l := cs)).length_le
    have front : (cs ++ after).take (cs.takeWhile Options.filter.continuesWord).length =
        cs.takeWhile Options.filter.continuesWord := by
      rw [List.take_append_of_le_length within, take_takeWhile_length]
    have back : (cs ++ after).drop (cs.takeWhile Options.filter.continuesWord).length =
        cs.dropWhile Options.filter.continuesWord ++ after := by
      have rest := @List.drop_left Char (cs.takeWhile Options.filter.continuesWord)
        (cs.dropWhile Options.filter.continuesWord)
      rw [List.takeWhile_append_dropWhile] at rest
      rw [List.drop_append_of_le_length within, rest]
    rw [Options.wordExtent_append stops, Options.wordExtent] at found
    rw [takeWhile_append_of_head stops] at fits
    have later : ∀ x ∈ cs.dropWhile Options.filter.continuesWord, isRunChar x = true := fun x member =>
      more x ((List.dropWhile_sublist _).mem member)
    obtain ⟨ts, texts, kinds, rest⟩ := ih later
      (kind.advance p (c :: cs.takeWhile Options.filter.continuesWord))
    refine ⟨⟨kind, String.ofList (c :: cs.takeWhile Options.filter.continuesWord), p⟩ :: ts, ?_, ?_, ?_⟩
    · rw [List.map_cons, texts, String.toList_ofList, pieces]
    · rw [List.forall_mem_cons, String.toList_ofList]
      exact ⟨fits, kinds⟩
    · rw [List.cons_append, full_cons found, front, back, endFrom_cons, String.toList_ofList]
      exact congrArg (_ :: ·) rest

end Scan

def isKept (t : Token) : Bool := t.kind ≠ .blank && t.kind ≠ .lineEnd

theorem scan_kept (o : Options) (text : String) : (scan { o with skipBlanks := false } text).tokens =
    (Scan.full o .start text.toList).tokens := congrArg Scan.tokens (Scan.full_skipBlanks false)

theorem mem_scan_of_isKept {o : Options} {text : String} {t : Token}
    (h : t ∈ (Scan.full o .start text.toList).tokens) (kept : isKept t = true) : t ∈ (scan o text).tokens := by
  rw [scan]
  split
  · exact List.mem_filter.2 ⟨h, kept⟩
  · exact h

namespace Run

variable {text : String} (r : Run text)

theorem exists_pieces : ∃ earlier ts later : List Token,
    (scan { Options.filter with skipBlanks := false } text).tokens = earlier ++ ts ++ later ∧
      texts earlier = r.before ∧ ts.map (·.text.toList) = Scan.pieces r.chars ∧
      ∀ t ∈ ts, Options.KindFits t.kind t.text.toList := by
  obtain ⟨c, cs, chars⟩ := List.exists_cons_of_ne_nil r.filled
  have first := r.isRun c (chars ▸ List.mem_cons_self)
  obtain ⟨earlier, before, found⟩ := Scan.exists_tokens_before first r.starts r.outside (cs ++ r.after) .start
  obtain ⟨ts, texts, kinds, later⟩ := Scan.exists_tokens_of_run r.isRun r.ends (endFrom .start earlier)
  rw [← List.cons_append, ← chars, ← r.whole, later] at found
  exact ⟨earlier, ts, _, by rw [scan_kept, found, List.append_assoc], before, texts, kinds⟩

/-- The run is one token, before which stand the tokens of the text before it. -/
def IsOneToken : Prop := ∃ earlier t later,
  (scan { Options.filter with skipBlanks := false } text).tokens = earlier ++ t :: later ∧
    (scan .filter text).tokens = earlier.filter isKept ++ t :: later.filter isKept ∧
    texts earlier = r.before ∧ t.text.toList = r.chars ∧ Options.KindFits t.kind r.chars

theorem IsOneToken.continues (h : r.IsOneToken) : ∀ c ∈ r.chars.tail, Options.filter.continuesWord c = true := by
  obtain ⟨c, cs, chars⟩ := List.exists_cons_of_ne_nil r.filled
  obtain ⟨earlier, t, later, found, -, before, own, -⟩ := h
  rw [scan_kept] at found
  obtain ⟨rest, split, same⟩ := Scan.full_append found
  rw [r.whole, before, List.append_cancel_left_eq] at split
  obtain ⟨ts, texts, -, tokens⟩ := Scan.exists_tokens_of_run r.isRun r.ends (endFrom .start earlier)
  rw [split, same] at tokens
  rw [chars, Scan.pieces] at texts
  obtain ⟨u, us, rfl, first, -⟩ := List.map_eq_cons_iff.1 texts
  obtain rfl : t = u := (List.cons.inj tokens).1
  rw [first, chars] at own
  rw [chars, List.tail_cons]
  exact List.takeWhile_eq_self_iff.1 (List.cons.inj own).2

theorem isOneToken_of_continues (h : ∀ c ∈ r.chars.tail, Options.filter.continuesWord c = true) : r.IsOneToken := by
  obtain ⟨c, cs, chars⟩ := List.exists_cons_of_ne_nil r.filled
  obtain ⟨earlier, ts, later, found, before, texts, kinds⟩ := r.exists_pieces
  rw [chars, List.tail_cons] at h
  rw [chars, Scan.pieces, List.takeWhile_eq_self_iff.2 h, List.dropWhile_eq_nil_iff.2 h, Scan.pieces] at texts
  obtain ⟨t, rfl, own⟩ := List.map_eq_singleton_iff.1 texts
  have fits := kinds t (List.mem_singleton_self t)
  have kept : isKept t = true := by
    rcases fits with ⟨kind, -⟩ | ⟨kind, -⟩ <;> simp [isKept, kind]
  rw [own, ← chars] at fits
  rw [List.append_assoc, List.singleton_append] at found
  refine ⟨earlier, t, later, found, ?_, before, own.trans chars.symm, fits⟩
  have brief : (scan .filter text).tokens =
      (scan { Options.filter with skipBlanks := false } text).tokens.filter isKept := (scan_covers .filter text).2.1
  rw [brief, found, List.filter_append, List.filter_cons_of_pos kept]

/-- A run is one token exactly if no character after its first is a numeral that is neither a letter nor a digit. -/
theorem isOneToken_iff : r.IsOneToken ↔
    ∀ c ∈ r.chars.tail, isNumeral c = true → isLetter c = true ∨ isDigit c = true := by
  have class_iff (c : Char) (member : c ∈ r.chars.tail) :=
    Options.continuesWord_iff (r.isRun c (List.mem_of_mem_tail member))
  rw [← forall₂_congr class_iff]
  exact ⟨IsOneToken.continues r, r.isOneToken_of_continues⟩

theorem isOneToken_iff_number : ∃ r : Run "Order.Id2 eq 'it''s' or 1.5",
    r.before = "Order.Id2 eq 'it''s' or ".toList ∧ r.chars = "1.5".toList ∧ r.IsOneToken := by
  have starts : ∀ c ∈ "Order.Id2 eq 'it''s' or ".toList.getLast?, isRunChar c = false := by
    intro c last
    obtain rfl : ' ' = c := Option.some.inj last
    decide
  let r : Run "Order.Id2 eq 'it''s' or 1.5" :=
    ⟨"Order.Id2 eq 'it''s' or ".toList, "1.5".toList, [], rfl, by decide, List.all_eq_true.1 (by decide +kernel),
      starts, nofun, by decide⟩
  have point : isNumeral '.' = true → isLetter '.' = true ∨ isDigit '.' = true := by decide +kernel
  have digit : isNumeral '5' = true → isLetter '5' = true ∨ isDigit '5' = true := by decide +kernel
  exact ⟨r, rfl, rfl, r.isOneToken_iff.2 (List.forall_mem_cons.2 ⟨point, List.forall_mem_singleton.2 digit⟩)⟩

theorem exists_not_isOneToken : (scan .filter "a²").fault? = none ∧ ∃ r : Run "a²", ¬r.IsOneToken := by
  let r : Run "a²" := ⟨[], "a²".toList, [], rfl, by decide, List.all_eq_true.1 (by decide +kernel), nofun, nofun, rfl⟩
  refine ⟨by decide +kernel, r, fun one => ?_⟩
  have continues := one.continues r '²' (List.mem_singleton_self _)
  exact absurd continues (by decide +kernel)

end Run

end Token

end WhereClause
