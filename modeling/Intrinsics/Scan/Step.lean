import Intrinsics.Declaration.Progress
import Intrinsics.Scan.Skip

namespace Intrinsics
open Text

inductive Step where
  | skipped (skip : Skip)
  | entered
  | exited
  | declared (declaration : Declaration)
  | advanced
  deriving DecidableEq

namespace Step

-- The change of depth. Only the two braces make one; the brace of a class header is part of
-- its declaration and makes none.
def nesting : Step → Int
  | .entered => 1
  | .exited => -1
  | _ => 0

def declaration? : Step → Option Declaration
  | .declared declaration => some declaration
  | _ => none

def trivia? (text : Text) : Option (Step × Text) :=
  Skip.trivia.findSome? fun skip => (skip.read? text).map (.skipped skip, ·)

def outside? (text : Text) : Option (Step × Text) :=
  match Skip.inclusion.read? text with
  | some rest => some (.skipped .inclusion, rest)
  | none => (Declaration.read? text).map fun (declaration, rest) => (.declared declaration, rest)

def read? (inBlock : Bool) : Text → Option (Step × Text)
  | [] => none
  | c :: tail => some <|
    (trivia? (c :: tail)).getD <|
      if c = '\x7b' then (.entered, tail)
      else if c = '\x7d' then (.exited, tail)
      else if inBlock then (.advanced, tail)
      else (outside? (c :: tail)).getD (.advanced, tail)

theorem trivia?_behind {text rest : Text} {step : Step}
    (read : trivia? text = some (step, rest)) : Behind rest text := by
  obtain ⟨skip, _, found⟩ := List.exists_of_findSome?_eq_some read
  obtain ⟨_, taken, same⟩ := Option.map_eq_some_iff.mp found
  cases same
  exact Skip.read?_behind taken

theorem outside?_behind {text rest : Text} {step : Step}
    (read : outside? text = some (step, rest)) : Behind rest text := by
  unfold outside? at read
  split at read
  · rename_i found
    cases read
    exact Skip.read?_behind found
  · obtain ⟨⟨_, _⟩, found, same⟩ := Option.map_eq_some_iff.mp read
    cases same
    exact Declaration.read?_behind found

theorem read?_behind {inBlock : Bool} {text rest : Text} {step : Step}
    (read : read? inBlock text = some (step, rest)) : Behind rest text := by
  cases text with
  | nil => cases read
  | cons c tail =>
    simp only [read?, Option.some.injEq] at read
    cases found : trivia? (c :: tail) with
    | some taken =>
      simp only [found, Option.getD_some] at read
      subst read
      exact trivia?_behind found
    | none =>
      simp only [found, Option.getD_none] at read
      split at read
      · cases read; exact .cons c _
      · split at read
        · cases read; exact .cons c _
        · split at read
          · cases read; exact .cons c _
          · cases outer : outside? (c :: tail) with
            | some taken =>
              simp only [outer, Option.getD_some] at read
              subst read
              exact outside?_behind outer
            | none =>
              simp only [outer, Option.getD_none] at read
              cases read; exact .cons c _

end Step

-- Closing braces without an opening one take the depth below zero.
structure ScanState where
  offset : Nat := 0
  depth : Int := 0
  deriving DecidableEq

namespace ScanState

def inBlock (state : ScanState) : Bool := 0 < state.depth

def after (state : ScanState) (step : Step) (text rest : Text) : ScanState :=
  ⟨state.offset + (byteLength text - byteLength rest), state.depth + step.nesting⟩

def step? (source : Text) (state : ScanState) : Option (Step × ScanState) := do
  let text ← fromByte? source state.offset
  let (step, rest) ← Step.read? state.inBlock text
  return (step, state.after step text rest)

theorem step?_offset {source : Text} {state next : ScanState} {step : Step}
    (stepped : step? source state = some (step, next)) :
    state.offset < next.offset ∧ next.offset ≤ byteLength source := by
  simp only [step?, Option.bind_eq_bind, Option.bind_eq_some_iff] at stepped
  obtain ⟨text, located, ⟨found, rest⟩, read, same⟩ := stepped
  cases same
  obtain ⟨before, rfl, measure⟩ := fromByte?_exact.mp located
  obtain ⟨taken, nonempty, rfl⟩ := Step.read?_behind read
  have := byteLength_pos nonempty
  simp only [ScanState.after, byteLength_append]
  omega

end ScanState
end Intrinsics
