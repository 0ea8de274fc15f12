import Intrinsics.Proofs.Text.Runs
import Intrinsics.Scan.Run

namespace Intrinsics
open Text

-- Everything that one step can do.
theorem Step.read?_cases {inBlock : Bool} {c : Char} {tail rest : Text} {step : Step}
    (read : Step.read? inBlock (c :: tail) = some (step, rest)) :
    Step.trivia? (c :: tail) = some (step, rest) ∨
      (c = '\x7b' ∧ step = .entered ∧ rest = tail) ∨
      (c = '\x7d' ∧ step = .exited ∧ rest = tail) ∨
      (inBlock = false ∧ Step.outside? (c :: tail) = some (step, rest)) ∨
      ((inBlock = true ∨ Step.outside? (c :: tail) = none) ∧ step = .advanced ∧ rest = tail) := by
  simp only [Step.read?, Option.some.injEq] at read
  cases found : Step.trivia? (c :: tail) with
  | some taken =>
    rw [found, Option.getD_some] at read
    exact .inl (congrArg some read)
  | none =>
    rw [found, Option.getD_none] at read
    right
    split at read
    · rename_i opened
      cases read
      exact .inl ⟨opened, rfl, rfl⟩
    · right
      split at read
      · rename_i closed
        cases read
        exact .inl ⟨closed, rfl, rfl⟩
      · right
        split at read
        · rename_i inside
          cases read
          exact .inr ⟨.inl inside, rfl, rfl⟩
        · rename_i outside
          cases outer : Step.outside? (c :: tail) with
          | some taken =>
            rw [outer, Option.getD_some] at read
            exact .inl ⟨Bool.eq_false_iff.mpr outside, congrArg some read⟩
          | none =>
            rw [outer, Option.getD_none] at read
            cases read
            exact .inr ⟨.inr rfl, rfl, rfl⟩

abbrev Sight := List Declaration × Int

def Sight.behind (found : List Declaration) (sight : Sight) : Sight := (found ++ sight.1, sight.2)

@[simp] theorem Sight.behind_nil (sight : Sight) : sight.behind [] = sight := rfl

@[simp] theorem Sight.behind_behind (first second : List Declaration) (sight : Sight) :
    (sight.behind second).behind first = sight.behind (first ++ second) := by
  simp [Sight.behind]

-- A scan without its offsets. It depends on the depth and on the text that is left, so the
-- scan of a text can be cut wherever a step ends.
def survey (depth : Int) (text : Text) : Sight :=
  match _ : Step.read? (0 < depth) text with
  | none => ([], depth)
  | some (step, rest) => (survey (depth + step.nesting) rest).behind step.declaration?.toList
termination_by text.length
decreasing_by exact (Step.read?_behind ‹_›).length_lt

@[simp] theorem survey_nil (depth : Int) : survey depth [] = ([], depth) := by
  rw [survey]
  rfl

theorem survey_step {depth : Int} {text rest : Text} {step : Step}
    (read : Step.read? (0 < depth) text = some (step, rest)) :
    survey depth text = (survey (depth + step.nesting) rest).behind step.declaration?.toList := by
  rw [survey]
  split
  · rename_i ended
    rw [read] at ended
    cases ended
  · rename_i found behind stepped
    rw [read] at stepped
    cases stepped
    rfl

namespace ScanState

theorem step?_located {source text rest : Text} {state : ScanState} {step : Step}
    (located : fromByte? source state.offset = some text)
    (read : Step.read? state.inBlock text = some (step, rest)) :
    step? source state = some (step, state.after step text rest) ∧
      fromByte? source (state.after step text rest).offset = some rest := by
  refine ⟨by simp [step?, located, read], ?_⟩
  obtain ⟨before, whole, measure⟩ := fromByte?_exact.mp located
  obtain ⟨taken, _, parts⟩ := Step.read?_behind read
  refine fromByte?_exact.mpr ⟨before ++ taken, by simp [whole, parts], ?_⟩
  simp only [ScanState.after, parts, byteLength_append, measure]
  omega

theorem step?_survey {source text : Text} {state next : ScanState} {step : Step}
    (located : fromByte? source state.offset = some text)
    (stepped : step? source state = some (step, next)) :
    ∃ rest, fromByte? source next.offset = some rest ∧
      survey state.depth text = (survey next.depth rest).behind step.declaration?.toList := by
  cases read : Step.read? state.inBlock text with
  | none => simp [step?, located, read] at stepped
  | some taken =>
    obtain ⟨found, rest⟩ := taken
    obtain ⟨same, behind⟩ := step?_located located read
    rw [same] at stepped
    cases stepped
    exact ⟨rest, behind, survey_step read⟩

theorem step?_none_survey {source text : Text} {state : ScanState}
    (located : fromByte? source state.offset = some text) (ended : step? source state = none) :
    survey state.depth text = ([], state.depth) := by
  cases text with
  | nil => exact survey_nil _
  | cons c tail => simp [step?, located, Step.read?] at ended

theorem nextDeclaration_survey {source text : Text} {state : ScanState}
    (located : fromByte? source state.offset = some text) :
    match nextDeclaration source state with
    | (none, final) => survey state.depth text = ([], final.depth)
    | (some declaration, next) => ∃ rest, fromByte? source next.offset = some rest ∧
        survey state.depth text = (survey next.depth rest).behind [declaration] := by
  fun_induction nextDeclaration source state generalizing text with
  | case1 state ended => exact step?_none_survey located ended
  | case2 state declaration next stepped => exact step?_survey located stepped
  | case3 state step next quiet stepped ih =>
    obtain ⟨rest, behind, sight⟩ := step?_survey located stepped
    have silent : step.declaration?.toList = [] := by
      cases step with
      | declared declaration => exact absurd rfl (quiet declaration)
      | _ => rfl
    rw [sight, silent, Sight.behind_nil]
    exact ih behind

theorem declarationsFrom_survey {source text : Text} {state : ScanState}
    (located : fromByte? source state.offset = some text) :
    survey state.depth text =
      ((declarationsFrom source state).1.map Prod.fst, (declarationsFrom source state).2.depth) := by
  fun_induction declarationsFrom source state generalizing text with
  | case1 state final ended =>
    have sight := nextDeclaration_survey located
    rw [ended] at sight
    exact sight
  | case2 state declaration next found later final rest ih =>
    have sight := nextDeclaration_survey located
    simp only [found] at sight
    obtain ⟨rest, behind, sight⟩ := sight
    rw [sight, ih behind]
    simp [Sight.behind, *]

end ScanState

def declarationsAt (depth : Int) (source : Text) : List Declaration :=
  (ScanState.declarationsFrom source ⟨0, depth⟩).1.map Prod.fst

theorem declarationsAt_eq_survey (depth : Int) (source : Text) :
    declarationsAt depth source = (survey depth source).1 := by
  have start : fromByte? source (ScanState.mk 0 depth).offset = some source := by
    cases source <;> rfl
  rw [ScanState.declarationsFrom_survey start]
  rfl

theorem declarations_eq_survey (source : Text) : declarations source = (survey 0 source).1 :=
  declarationsAt_eq_survey 0 source

-- A text whose scan, whatever comes behind it, shows the same declarations and ends at the
-- same depth exactly where the text ends.
def Passes (depth : Int) (text : Text) (found : List Declaration) (final : Int) : Prop :=
  ∀ rest, survey depth (text ++ rest) = (survey final rest).behind found

namespace Passes

theorem nil (depth : Int) : Passes depth [] [] depth := fun _ => rfl

theorem append {depth middle final : Int} {first second : Text} {found later : List Declaration}
    (left : Passes depth first found middle) (right : Passes middle second later final) :
    Passes depth (first ++ second) (found ++ later) final := by
  intro rest
  rw [List.append_assoc, left, right, Sight.behind_behind]

theorem survey_eq {depth final : Int} {text : Text} {found : List Declaration}
    (passes : Passes depth text found final) : survey depth text = (found, final) := by
  have alone := passes []
  simpa [Sight.behind] using alone

end Passes
end Intrinsics
