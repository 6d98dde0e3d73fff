import WhereClause.Proofs.Scan.First

namespace WhereClause.Token

open Text

def texts (ts : List Token) : List Char := ts.flatMap (·.text.toList)

def endFrom (p : Position) (ts : List Token) : Position :=
  ts.foldl (fun p t => t.kind.advance p t.text.toList) p

theorem texts_append (ts us : List Token) : texts (ts ++ us) = texts ts ++ texts us := List.flatMap_append

theorem texts_cons (t : Token) (ts : List Token) : texts (t :: ts) = t.text.toList ++ texts ts := rfl

theorem endFrom_cons (p : Position) (t : Token) (ts : List Token) :
    endFrom p (t :: ts) = endFrom (t.kind.advance p t.text.toList) ts := rfl

theorem texts_finish (ts : List Token) (p : Position) : texts (ts ++ [⟨.finish, "", p⟩]) = texts ts := by
  rw [texts_append]
  exact List.append_nil _

namespace Scan

variable {o : Options} {p : Position} {cs : List Char}

theorem full_cons {c : Char} {kind : Kind} {n : Nat} (h : o.token? c cs = some (kind, n)) :
    full o p (c :: cs) = (full o (kind.advance p (c :: cs.take n)) (cs.drop n)).cons
      ⟨kind, String.ofList (c :: cs.take n), p⟩ := by
  rw [full, h]

theorem full_skipBlanks (b : Bool) : full { o with skipBlanks := b } p cs = full o p cs := by
  have same (c : Char) (cs : List Char) : Options.token? { o with skipBlanks := b } c cs = o.token? c cs := rfl
  induction p, cs using full.induct o with
  | case1 p => rw [full, full]
  | case2 p c cs none => rw [full, full, same, none]
  | case3 p c cs kind n found taken ih => rw [full_cons found, full_cons ((same c cs).trans found), ih]

theorem full_covers (o : Options) (p : Position) (cs : List Char) :
    ∃ ts, (∀ t ∈ ts, t.kind ≠ .finish ∧ t.text ≠ "") ∧
      ((full o p cs = ⟨ts ++ [⟨.finish, "", endFrom p ts⟩], none⟩ ∧ cs = texts ts) ∨
        ∃ rest, full o p cs = ⟨ts, some (endFrom p ts)⟩ ∧ cs = texts ts ++ '\'' :: rest ∧
          Quoted.Unclosed rest) := by
  induction p, cs using full.induct o with
  | case1 p =>
    rw [full]
    exact ⟨[], nofun, Or.inl ⟨rfl, rfl⟩⟩
  | case2 p c cs none =>
    obtain ⟨rfl, unclosed⟩ := Options.token?_eq_none_iff.1 none
    rw [full, none]
    exact ⟨[], nofun, Or.inr ⟨cs, rfl, rfl, unclosed⟩⟩
  | case3 p c cs kind n found taken ih =>
    obtain ⟨ts, whole, ended⟩ := ih
    have split (rest : List Char) (same : cs.drop n = texts ts ++ rest) :
        c :: cs = texts (⟨kind, String.ofList taken, p⟩ :: ts) ++ rest := by
      rw [texts_cons, String.toList_ofList, List.append_assoc, ← same, List.cons_append, List.take_append_drop]
    have ends : endFrom p (⟨kind, String.ofList taken, p⟩ :: ts) = endFrom (kind.advance p taken) ts := by
      rw [endFrom_cons, String.toList_ofList]
    rw [full_cons found]
    refine ⟨⟨kind, String.ofList taken, p⟩ :: ts, List.forall_mem_cons.2 ⟨⟨?_, ?_⟩, whole⟩, ?_⟩
    · exact (Options.first_of_token? found).ne_finish
    · exact fun empty => by simpa [taken] using congrArg String.toList empty
    rw [ends]
    rcases ended with ⟨same, rest⟩ | ⟨rest, same, later, unclosed⟩
    · refine Or.inl ⟨by rw [same]; rfl, ?_⟩
      simpa using split [] (by simpa using rest)
    · exact Or.inr ⟨rest, by rw [same]; rfl, split _ later, unclosed⟩

theorem full_append {ts us : List Token} {t : Token} (h : (full o p cs).tokens = ts ++ t :: us) :
    ∃ rest, cs = texts ts ++ rest ∧ full o (endFrom p ts) rest = ⟨t :: us, (full o p cs).unterminated⟩ := by
  induction ts generalizing p cs with
  | nil => exact ⟨cs, rfl, by rw [← List.nil_append (t :: us), ← h]; rfl⟩
  | cons first ts ih =>
    cases cs with
    | nil =>
      rw [full] at h
      simp at h
    | cons c cs =>
      cases found : o.token? c cs with
      | none =>
        rw [full, found] at h
        cases h
      | some head =>
        obtain ⟨kind, n⟩ := head
        rw [full_cons found] at h ⊢
        obtain ⟨rfl, later⟩ := List.cons.inj h
        obtain ⟨rest, whole, same⟩ := ih later
        refine ⟨rest, ?_, ?_⟩
        · rw [texts_cons, String.toList_ofList, List.append_assoc, ← whole, List.cons_append,
            List.take_append_drop]
        · rw [endFrom_cons, String.toList_ofList]
          exact same

theorem position_of_full {ts us : List Token} {t : Token} (h : (full o p cs).tokens = ts ++ t :: us) :
    t.position = endFrom p ts ∧ ∃ rest, cs = texts ts ++ (t.text.toList ++ rest) := by
  obtain ⟨rest, rfl, same⟩ := full_append h
  have first := congrArg Scan.tokens same
  cases rest with
  | nil =>
    rw [full] at first
    obtain ⟨rfl, -⟩ := List.cons.inj first
    exact ⟨rfl, [], rfl⟩
  | cons c rest =>
    cases found : o.token? c rest with
    | none =>
      rw [full, found] at first
      cases first
    | some head =>
      obtain ⟨kind, n⟩ := head
      rw [full_cons found] at first
      obtain ⟨rfl, -⟩ := List.cons.inj first
      refine ⟨rfl, rest.drop n, ?_⟩
      rw [String.toList_ofList, List.cons_append, List.take_append_drop]

end Scan

theorem unterminated_scan (o : Options) (text : String) :
    (scan o text).unterminated = (Scan.full o .start text.toList).unterminated := by
  unfold scan
  split <;> rfl

/-- With blanks kept, the texts of the tokens are the whole text and the only token without text is the one at its
    end; or they are what stands before a quote that nothing closes, which is where the fault is. Without blanks the
    other tokens and the fault are the same. -/
theorem scan_covers (o : Options) (text : String) :
    let whole := scan { o with skipBlanks := false } text
    let brief := scan { o with skipBlanks := true } text
    ((whole.fault? = none ∧ texts whole.tokens = text.toList ∧
        ∃ ts, whole.tokens = ts ++ [⟨.finish, "", endFrom .start ts⟩] ∧
          ∀ t ∈ ts, t.kind ≠ .finish ∧ t.text ≠ "") ∨
      ∃ rest, whole.fault? = some (.lexical .unterminatedString (endFrom .start whole.tokens)) ∧
        text.toList = texts whole.tokens ++ '\'' :: rest ∧ Quoted.Unclosed rest) ∧
    brief.tokens = whole.tokens.filter (fun t => t.kind ≠ .blank && t.kind ≠ .lineEnd) ∧
      brief.fault? = whole.fault? := by
  intro whole brief
  have full : whole = Scan.full o .start text.toList := Scan.full_skipBlanks false
  have kept : brief = whole.withoutBlanks := by
    rw [full]
    exact congrArg Scan.withoutBlanks (Scan.full_skipBlanks true)
  refine ⟨?_, ?_, ?_⟩
  · obtain ⟨ts, filled, ⟨same, all⟩ | ⟨rest, same, before, unclosed⟩⟩ := Scan.full_covers o .start text.toList
    · rw [full, same]
      exact Or.inl ⟨rfl, (texts_finish ts _).trans all.symm, ts, rfl, filled⟩
    · rw [full, same]
      exact Or.inr ⟨rest, rfl, before, unclosed⟩
  · rw [kept]
    simp only [Scan.withoutBlanks]
  · rw [kept]
    rfl

end WhereClause.Token
