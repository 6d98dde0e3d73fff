import WhereClause.Proofs.Literal.Filter
import WhereClause.Proofs.Resolution.Basic

namespace WhereClause

def Change.onTokens (ψ : Token → Token) : Change := ⟨id, ψ⟩

structure Vocabulary.Overlooks (v : Vocabulary) (ψ : Token → Token) : Prop where
  kind (t : Token) : (ψ t).kind = t.kind
  opens (t : Token) : (ψ t).opens = t.opens
  closes (t : Token) : (ψ t).closes = t.closes
  junction? (t : Token) : (ψ t).junction? = t.junction?
  namesFunction (t : Token) : (ψ t).namesFunction = t.namesFunction
  meaning (name : String) (t : Token) :
    Atom.ofToken v name (ψ t) = (Atom.ofToken v name t).change (.onTokens ψ)

variable {v : Vocabulary} {ψ : Token → Token} (overlooked : v.Overlooks ψ)

include overlooked

theorem Token.significant_map (ts : List Token) : significant (ts.map ψ) = (significant ts).map ψ := by
  rw [significant, List.filter_map, significant]
  congr 1
  exact List.filter_congr fun t _ => congrArg (fun k : Kind => !k.isTrivia) (overlooked.kind t)

theorem Event.ofToken_map (t : Token) : ofToken (ψ t) = (ofToken t).map ψ ψ := by
  unfold ofToken
  rw [overlooked.opens, overlooked.closes, overlooked.junction?]
  split
  · rfl
  · split
    · rfl
    · split <;> rfl

theorem Event.resolve_map (stem : String) (n : Nat) (es : List (Event Token)) :
    resolve v stem n (es.map (map ψ ψ)) =
      (resolve v stem n es).map (map (Lexeme.change (.onTokens ψ) ψ) ψ) := by
  induction es generalizing n with
  | nil => rfl
  | cons event es ih =>
    cases event with
    | enter => exact congrArg (Event.enter :: ·) (ih n)
    | leave => exact congrArg (Event.leave :: ·) (ih n)
    | joint j word => exact congrArg (Event.joint j (ψ word) :: ·) (ih n)
    | leaf t =>
      have own : Lexeme.read v stem n (ψ t) = (Lexeme.read v stem n t).change (.onTokens ψ) ψ := by
        rw [Lexeme.read, overlooked.meaning]
        rfl
      have next (x : Lexeme) : (x.change (.onTokens ψ) ψ).next n = x.next n := by
        rw [Lexeme.next, Lexeme.change, Atom.isParameter_change, Lexeme.next]
      simp only [List.map_cons, map, resolve, ih, own, next]

variable {κ : Type} {look : Fault → κ}

theorem Node.ofEvents_map (stem : String) (ts : List Token) :
    MirrorsBy look (change (.onTokens ψ) ψ)
      (ofEvents Lexeme.namesFunction (Event.resolve v stem 0 (ts.map Event.ofToken)))
      (ofEvents Lexeme.namesFunction (Event.resolve v stem 0 ((ts.map ψ).map Event.ofToken))) := by
  have names (x : Lexeme) : (x.change (.onTokens ψ) ψ).namesFunction = x.namesFunction :=
    overlooked.namesFunction x.token
  have events : (ts.map ψ).map Event.ofToken = (ts.map Event.ofToken).map (Event.map ψ ψ) := by
    rw [List.map_map, List.map_map]
    exact List.map_congr_left fun t _ => Event.ofToken_map overlooked t
  rw [events, Event.resolve_map overlooked, ofEvents, ofEvents, ofEvents?_map _ ψ names]
  cases ofEvents? Lexeme.namesFunction (Event.resolve v stem 0 (ts.map Event.ofToken)) with
  | none => exact .error rfl
  | some n => exact .ok n

variable (unseen : Node.Unseen look (.onTokens ψ) ψ)

include unseen

theorem Balance.checkFrom_map (opened ts : List Token) :
    MirrorsBy look id (checkFrom opened ts) (checkFrom (opened.map ψ) (ts.map ψ)) := by
  have same (cause : Fault.Structural) (t : Token) :
      look (.atToken cause t) = look (.atToken cause (ψ t)) := unseen.atToken (fun _ => cause) t
  induction ts generalizing opened with
  | nil =>
    cases opened with
    | nil => exact .ok ()
    | cons t opened => exact .error (same .unclosedOpen t)
  | cons t ts ih =>
    rw [List.map_cons, checkFrom.eq_def, checkFrom.eq_def]
    simp only [overlooked.opens, overlooked.closes, List.length_map]
    split
    · split
      · exact .error (same (.tooDeep limit) t)
      · exact ih (t :: opened)
    · split
      · cases opened with
        | nil => exact .error (same .unmatchedClose t)
        | cons _ opened => exact ih opened
      · exact ih opened

theorem Condition.ofTokens_map (stem : String) (ts : List Token) :
    Outcome.MirrorsBy look (change (.onTokens ψ)) (ofTokens v stem ts) (ofTokens v stem (ts.map ψ)) := by
  rw [ofTokens_eq, ofTokens_eq, Token.significant_map overlooked]
  refine (Outcome.MirrorsBy.ofExcept (Balance.checkFrom_map overlooked unseen [] _)).andThen fun _ => ?_
  exact (Outcome.MirrorsBy.ofExcept (Node.ofEvents_map overlooked stem _)).andThen
    (Node.compile_mirrors unseen)

omit overlooked unseen

theorem Token.Scan.complete_of_unterminated {s : Scan} (h : s.unterminated = none) :
    s.complete = .ok s.tokens := by
  rw [complete, fault?, h]
  rfl

theorem Token.significant_significant (ts : List Token) : significant (significant ts) = significant ts := by
  simp [significant]

theorem Condition.ofTokens_significant (stem : String) (ts : List Token) :
    ofTokens v stem (Token.significant ts) = ofTokens v stem ts := by
  rw [ofTokens_eq, ofTokens_eq, Token.significant_significant]

theorem Condition.compile_of_complete {s : Settings} {filter : String} {ts : List Token}
    (h : (Token.scan s.tokens filter).complete = .ok ts) :
    compile s v filter = ofTokens v s.stem (Token.significant ts) := by
  rw [compile_eq_ofTokens, h, ofTokens_significant]
  exact Outcome.ok_andThen ts _

theorem onTokens_of_resolved (ψ : Token → Token) : Induction
    (fun e => e.Resolved → e.change (.onTokens ψ) = e)
    (fun e => (∀ run ∈ Expr.operandRuns e, ∀ a ∈ run, a.isPlain = true) →
      Expr.changeOperand (.onTokens ψ) e = e)
    (fun a => a.unknown? = none → a.Resolved → a.change (.onTokens ψ) = a)
    (fun as => (∀ a ∈ as, a.unknown? = none) →
      (∀ run ∈ Atom.runsOf as, ∀ a ∈ run, a.isPlain = true) → Atom.changeAll (.onTokens ψ) as = as)
    (fun c => c.Resolved → c.change (.onTokens ψ) = c)
    (fun cs => (∀ run ∈ Condition.runsOf cs, ∀ a ∈ run, a.isPlain = true) →
      Condition.changeAll (.onTokens ψ) cs = cs) where
  apply op left right third first second last h := by
    obtain ⟨⟨here, next⟩, final⟩ := (List.forall_mem_append.1 h).imp_left List.forall_mem_append.1
    rw [Expr.change, first here, second next, last final]
  group e ih h := by rw [Expr.change, ih h]
  run as ih h := by
    obtain ⟨plain, below⟩ := List.forall_mem_cons.1 h
    rw [Expr.change, ih (fun a member => Atom.known_of_isPlain (plain a member)) below]
  nested c ih h := by rw [Expr.change, ih h]
  absent _ := rfl
  present e ih h := by rw [Expr.changeOperand, ih h]
  operator _ _ _ := rfl
  parameter _ _ _ := rfl
  column _ _ _ := rfl
  comma _ _ := rfl
  unknown _ known := by cases known
  inner e ih _ h := by rw [Atom.change, ih h]
  noAtoms _ _ := rfl
  moreAtoms a as first rest known h := by
    obtain ⟨own, later⟩ := List.forall_mem_cons.1 known
    obtain ⟨here, further⟩ := List.forall_mem_append.1 h
    rw [Atom.changeAll, first own here, rest later further]
  empty _ := rfl
  test e ih h := by rw [Condition.change, ih h]
  all cs ih h := by rw [Condition.change, ih h]
  any cs ih h := by rw [Condition.change, ih h]
  noParts _ := rfl
  moreParts c cs first rest h := by
    obtain ⟨here, further⟩ := List.forall_mem_append.1 h
    rw [Condition.changeAll, first here, rest further]

theorem Condition.onTokens_of_compile {s : Settings} {w : Vocabulary} {filter : String} {c : Condition}
    (h : (compile s w filter).result = .ok c) (ψ : Token → Token) : c.change (.onTokens ψ) = c :=
  (onTokens_of_resolved ψ).ofCondition c (resolved_of_compile h)

end WhereClause
