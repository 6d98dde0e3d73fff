namespace WhereClause.Text

def join (separator : String) : List String → String
  | [] => ""
  | [s] => s
  | s :: t :: rest => s ++ separator ++ join separator (t :: rest)

def concat : List String → String
  | [] => ""
  | s :: rest => s ++ concat rest

@[simp] theorem concat_append (ss ts : List String) : concat (ss ++ ts) = concat ss ++ concat ts := by
  induction ss with
  | nil => simp [concat]
  | cons s ss ih => simp [concat, ih, String.append_assoc]

theorem join_cons {separator s : String} {rest : List String} (h : rest ≠ []) :
    join separator (s :: rest) = s ++ separator ++ join separator rest := by
  cases rest with
  | nil => exact absurd rfl h
  | cons t rest => rfl

end WhereClause.Text
