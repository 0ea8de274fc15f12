import Intrinsics.Proofs.Scan.Survey

namespace Intrinsics
open Text

-- The inside of a string: bare characters, and pairs that begin with a backslash. Such a
-- pair may hide a quote but no newline.
inductive QuotedText (quote : Char) : Text → Prop where
  | nil : QuotedText quote []
  | plain : c ≠ quote → c ≠ '\\' → QuotedText quote body → QuotedText quote (c :: body)
  | escape : d ≠ '\n' → QuotedText quote body → QuotedText quote ('\\' :: d :: body)

def isQuote (c : Char) : Bool := c == '"' || c == '\''

namespace Text

theorem quotedBody?_written {quote : Char} {body : Text} (other : quote ≠ '\\')
    (written : QuotedText quote body) (rest : Text) :
    quotedBody? quote (body ++ quote :: rest) = some (body, rest) := by
  induction written with
  | nil =>
    rw [List.nil_append, quotedBody?.eq_def]
    simp
  | plain bare simple _ ih =>
    rw [List.cons_append, quotedBody?.eq_def]
    simp [bare, simple, ih]
  | escape same _ ih => simp [quotedBody?, Ne.symm other, same, ih]

theorem lineComment?_written {body : Text} (single : '\n' ∉ body) (rest : Text) :
    lineComment? ('/' :: '/' :: (body ++ '\n' :: rest)) = some (body, '\n' :: rest) := by
  have spelt : ∀ c ∈ body, (c != '\n') = true := by
    intro c member
    simp only [bne_iff_ne]
    intro newline
    rw [newline] at member
    exact single member
  have stops : Stops (· != '\n') ('\n' :: rest) := by simp
  simp only [lineComment?, takeWhile_run spelt stops, dropWhile_run spelt stops]

theorem blockBody?_written {body : Text} (single : ¬ ['*', '/'] <:+: body) (rest : Text) :
    blockBody? (body ++ '*' :: '/' :: rest) = some (body, rest) := by
  induction body with
  | nil => rfl
  | cons c body ih =>
    have inner : ¬ ['*', '/'] <:+: body := fun inside => single (inside.trans (List.suffix_cons c body).isInfix)
    -- The mark does not close at `c`: its second half would be the head of the body.
    have later : ∀ tail, c = '*' → body ++ '*' :: '/' :: rest = '/' :: tail → False := by
      intro tail star slash
      cases body with
      | nil => simp at slash
      | cons d body =>
        simp only [List.cons_append, List.cons.injEq] at slash
        apply single
        rw [star, slash.1]
        exact ⟨[], body, rfl⟩
    rw [List.cons_append, blockBody?.eq_3 _ _ later, ih inner]
    rfl

end Text

namespace Step

@[simp] theorem trivia?_blank {c : Char} (blank : isBlank c = true) (text : Text) :
    trivia? (c :: text) = some (.skipped .blanks, skipBlanks text) := by
  simp [trivia?, Skip.trivia, Skip.read?, passBlanks?, blank]

theorem trivia?_lineComment {body : Text} (single : '\n' ∉ body) (rest : Text) :
    trivia? ('/' :: '/' :: (body ++ '\n' :: rest)) = some (.skipped .lineComment, rest) := by
  have bare : isBlank '/' = false := by decide
  simp [trivia?, Skip.trivia, Skip.read?, passBlanks?, bare, lineComment?_written single]

theorem trivia?_blockComment {body : Text} (single : ¬ ['*', '/'] <:+: body) (rest : Text) :
    trivia? ('/' :: '*' :: (body ++ '*' :: '/' :: rest)) = some (.skipped .blockComment, rest) := by
  have bare : isBlank '/' = false := by decide
  have other : lineComment? ('/' :: '*' :: (body ++ '*' :: '/' :: rest)) = none := by
    simp [lineComment?]
  simp [trivia?, Skip.trivia, Skip.read?, passBlanks?, bare, other, blockComment?,
    blockBody?_written single]

theorem trivia?_string {quote : Char} {body : Text} (opened : isQuote quote = true)
    (written : QuotedText quote body) (rest : Text) :
    trivia? (quote :: (body ++ quote :: rest)) = some (.skipped .string, rest) := by
  simp only [isQuote, Bool.or_eq_true, beq_iff_eq] at opened
  rcases opened with double | single
  · subst double
    have bare : isBlank '"' = false := by decide
    simp [trivia?, Skip.trivia, Skip.read?, passBlanks?, bare, lineComment?, blockComment?, quoted?,
      quotedBody?_written (by decide) written]
  · subst single
    have bare : isBlank '\'' = false := by decide
    simp [trivia?, Skip.trivia, Skip.read?, passBlanks?, bare, lineComment?, blockComment?, quoted?,
      quotedBody?_written (by decide) written]

theorem trivia?_none {c : Char} {text : Text} (bare : isBlank c = false) (unquoted : isQuote c = false)
    (slash : c = '/' → Stops (fun d => d == '/' || d == '*') text) : trivia? (c :: text) = none := by
  obtain ⟨noLine, noBlock⟩ := comments_none slash
  simp only [isQuote, Bool.or_eq_false_iff, beq_eq_false_iff_ne] at unquoted
  simp [trivia?, Skip.trivia, Skip.read?, passBlanks?, bare, noLine, noBlock, quoted?, unquoted]

theorem read?_trivia {inBlock : Bool} {text rest : Text} {step : Step}
    (found : trivia? text = some (step, rest)) : read? inBlock text = some (step, rest) := by
  cases text with
  | nil => cases found
  | cons c tail => simp [read?, found]

end Step

-- White space does not stop a scan, so it makes no difference how much of it one step takes.
theorem survey_skipBlanks (depth : Int) (text : Text) : survey depth (skipBlanks text) = survey depth text := by
  cases text with
  | nil => rfl
  | cons c tail =>
    cases blank : isBlank c with
    | false => rw [skipBlanks_of_stops (stops_cons.mpr blank)]
    | true =>
      have same : skipBlanks (c :: tail) = skipBlanks tail := List.dropWhile_cons_of_pos blank
      rw [same, survey_step (Step.read?_trivia (Step.trivia?_blank blank tail))]
      simp [Step.nesting, Step.declaration?]

theorem survey_trivia {depth : Int} {text rest : Text} {skip : Skip}
    (found : Step.trivia? text = some (.skipped skip, rest)) : survey depth text = survey depth rest := by
  rw [survey_step (Step.read?_trivia found)]
  simp [Step.nesting, Step.declaration?]

theorem survey_blank {c : Char} (blank : isBlank c = true) (depth : Int) (text : Text) :
    survey depth (c :: text) = survey depth text := by
  rw [survey_trivia (Step.trivia?_blank blank text), survey_skipBlanks]

-- White space and complete comments, as they may stand between two declarations.
inductive Separating : Text → Prop where
  | nil : Separating []
  | blank : isBlank c = true → Separating text → Separating (c :: text)
  | lineComment : '\n' ∉ body → Separating text → Separating ('/' :: '/' :: (body ++ '\n' :: text))
  | blockComment : ¬ ['*', '/'] <:+: body → Separating text →
      Separating ('/' :: '*' :: (body ++ '*' :: '/' :: text))

theorem Separating.passes {text : Text} (written : Separating text) (depth : Int) :
    Passes depth text [] depth := by
  induction written with
  | nil => exact .nil depth
  | blank blank _ ih =>
    intro rest
    rw [List.cons_append, survey_blank blank, ih]
  | lineComment single _ ih =>
    intro rest
    simp only [List.cons_append, List.append_assoc]
    rw [survey_trivia (Step.trivia?_lineComment single _), ih]
  | blockComment single _ ih =>
    intro rest
    simp only [List.cons_append, List.append_assoc]
    rw [survey_trivia (Step.trivia?_blockComment single _), ih]

def isBrace (c : Char) : Bool := c == '\x7b' || c == '\x7d'

-- Text in which every comment and string is complete and the braces outside of them balance.
-- Any other character stands for itself; a slash must not open a comment with what follows.
inductive Closed : Text → Prop where
  | nil : Closed []
  | lineComment : '\n' ∉ body → Closed text → Closed ('/' :: '/' :: (body ++ '\n' :: text))
  | blockComment : ¬ ['*', '/'] <:+: body → Closed text →
      Closed ('/' :: '*' :: (body ++ '*' :: '/' :: text))
  | string : isQuote quote = true → QuotedText quote body → Closed text →
      Closed (quote :: (body ++ quote :: text))
  | block : Closed nested → Closed text → Closed ('\x7b' :: (nested ++ '\x7d' :: text))
  | plain : isQuote c = false → isBrace c = false →
      (c = '/' → Stops (fun d => d == '/' || d == '*') text) → Closed text → Closed (c :: text)

theorem survey_open (depth : Int) (text : Text) : survey depth ('\x7b' :: text) = survey (depth + 1) text := by
  have bare : Step.trivia? ('\x7b' :: text) = none :=
    Step.trivia?_none (by decide) (by decide) (fun slash => absurd slash (by decide))
  rw [survey_step (show Step.read? (0 < depth) ('\x7b' :: text) = some (.entered, text) by
    simp [Step.read?, bare])]
  rfl

theorem survey_close (depth : Int) (text : Text) : survey depth ('\x7d' :: text) = survey (depth - 1) text := by
  have bare : Step.trivia? ('\x7d' :: text) = none :=
    Step.trivia?_none (by decide) (by decide) (fun slash => absurd slash (by decide))
  rw [survey_step (show Step.read? (0 < depth) ('\x7d' :: text) = some (.exited, text) by
    simp [Step.read?, bare])]
  rfl

theorem survey_inside {depth : Int} {c : Char} {text : Text} (inside : 0 < depth)
    (unquoted : isQuote c = false) (unbraced : isBrace c = false)
    (slash : c = '/' → Stops (fun d => d == '/' || d == '*') text) :
    survey depth (c :: text) = survey depth text := by
  cases blank : isBlank c with
  | true => exact survey_blank blank depth text
  | false =>
    have bare := Step.trivia?_none blank unquoted slash
    simp only [isBrace, Bool.or_eq_false_iff, beq_eq_false_iff_ne] at unbraced
    rw [survey_step (show Step.read? (0 < depth) (c :: text) = some (.advanced, text) by
      simp [Step.read?, bare, unbraced, inside])]
    simp [Step.nesting, Step.declaration?]

-- The step over a plain character also looks at the character behind it. Behind the last one
-- that is the closing brace of the enclosing block, which opens no comment.
theorem Closed.passes {text : Text} (closed : Closed text) {depth : Int} (inside : 0 < depth) (rest : Text) :
    survey depth (text ++ '\x7d' :: rest) = survey depth ('\x7d' :: rest) := by
  induction closed generalizing depth rest with
  | nil => rfl
  | lineComment single _ ih =>
    simp only [List.cons_append, List.append_assoc]
    rw [survey_trivia (Step.trivia?_lineComment single _), ih inside]
  | blockComment single _ ih =>
    simp only [List.cons_append, List.append_assoc]
    rw [survey_trivia (Step.trivia?_blockComment single _), ih inside]
  | string opened written _ ih =>
    simp only [List.cons_append, List.append_assoc]
    rw [survey_trivia (Step.trivia?_string opened written _), ih inside]
  | block _ _ nested_ih ih =>
    have deeper : 0 < depth + 1 := by omega
    simp only [List.cons_append, List.append_assoc]
    rw [survey_open, nested_ih deeper, survey_close, Int.add_sub_cancel, ih inside]
  | @plain c text unquoted unbraced slash _ ih =>
    have behind : c = '/' → Stops (fun d => d == '/' || d == '*') (text ++ '\x7d' :: rest) :=
      fun same => (slash same).append (stops_cons.mpr rfl)
    rw [List.cons_append, survey_inside inside unquoted unbraced behind, ih inside]

-- A block passes as a whole when its inside is read as the inside of a block.
theorem Closed.block_passes {text : Text} (closed : Closed text) {depth : Int} (level : 0 ≤ depth) :
    Passes depth ('\x7b' :: (text ++ ['\x7d'])) [] depth := by
  intro rest
  have inside : 0 < depth + 1 := by omega
  simp only [List.cons_append, List.append_assoc, List.nil_append, Sight.behind_nil]
  rw [survey_open, closed.passes inside, survey_close, Int.add_sub_cancel]

end Intrinsics
