import WhereClause.Proofs.Outline.Overlook
import WhereClause.Proofs.RoundTrip.Scan

namespace WhereClause

def Fault.placeless : Fault → Fault
  | .lexical cause _ => .lexical cause .start
  | .unresolved token keyword slot _ => .unresolved token keyword slot .start
  | .missingOperator token p => .missingOperator token (p.map fun _ => .start)
  | .structural cause token p => .structural cause token (p.map fun _ => .start)

def Change.unplaced : Change := ⟨id, Token.unplaced⟩

theorem Change.unseen_placeless : Change.unplaced.Unseen Fault.placeless where
  unresolved _ _ _ := rfl
  withoutOperator atoms := by
    have unknown := Atom.firstUnknown?_change .unplaced atoms
    have texts := render_change .unplaced .filter (fun _ => rfl) fun _ => rfl
    rw [Expr.withoutOperator, Expr.withoutOperator, unknown]
    cases Atom.firstUnknown? atoms with
    | some t => rfl
    | none =>
      cases atoms with
      | nil => rfl
      | cons a as => exact congrArg (fun text => Fault.missingOperator (some text) none) (texts.ofAtom a).symm
  stray op a := by
    have texts := render_change .unplaced .filter (fun _ => rfl) fun _ => rfl
    cases a with
    | expr e =>
      simp only [Expr.strayFault, Atom.describe, Atom.change, texts.ofExpr e]
      rfl
    | _ => rfl

theorem Node.unseen_placeless : Unseen Fault.placeless .unplaced Token.unplaced where
  toUnseen := Change.unseen_placeless
  missingOperator first := by cases first <;> rfl
  atToken _ _ := rfl

theorem Vocabulary.overlooks_unplaced (v : Vocabulary) : v.Overlooks Token.unplaced where
  kind _ := rfl
  opens _ := rfl
  closes _ := rfl
  junction? _ := rfl
  namesFunction _ := rfl
  meaning _ _ := Atom.ofToken_change rfl rfl rfl rfl rfl (fun _ => rfl) rfl

theorem Token.significant_of_said {text : String} {ts : List Token} (h : said? text.toList = some ts) :
    significant ts = ts := by
  obtain ⟨tokens, -, rfl⟩ := exists_of_said? h
  rw [significant_map (Vocabulary.overlooks_unplaced (.ofLists [] [])), significant_significant]

theorem Condition.compile_of_said (v : Vocabulary) {text : String} {ts : List Token}
    (h : Token.said? text.toList = some ts) :
    Outcome.MirrorsBy Fault.placeless (change .unplaced) (compile .default v text)
      (ofTokens v Settings.default.stem ts) := by
  obtain ⟨tokens, scanned, rfl⟩ := Token.exists_of_said? h
  have scanned : (Token.scan Settings.default.tokens text).complete = .ok tokens := scanned
  rw [compile_of_complete scanned]
  exact ofTokens_map v.overlooks_unplaced Node.unseen_placeless _ _

/-- Places are in faults only: where its tokens compile, the text does, to the same condition. -/
theorem Condition.compile_eq_of_said {v : Vocabulary} {text : String} {ts : List Token} {ws : List Warning}
    {c : Condition} (said : Token.said? text.toList = some ts)
    (h : ofTokens v Settings.default.stem ts = ⟨ws, .ok c⟩) : compile .default v text = ⟨ws, .ok c⟩ := by
  have mirror := compile_of_said v said
  rw [h] at mirror
  obtain ⟨d, again, image⟩ := mirror.result.exists_ok
  obtain rfl : d = c := (onTokens_of_compile again Token.unplaced).symm.trans image
  rw [Outcome.eq_of_result_ok again, mirror.warnings]

end WhereClause
