import Intrinsics.Scan.Step

namespace Intrinsics
open Text

namespace ScanState

def trace (source : Text) (state : ScanState) : List (Step × ScanState) :=
  match _ : step? source state with
  | none => []
  | some (step, next) => (step, next) :: trace source next
termination_by byteLength source - state.offset
decreasing_by
  have := step?_offset ‹_›
  omega

def nextDeclaration (source : Text) (state : ScanState) : Option Declaration × ScanState :=
  match _ : step? source state with
  | none => (none, state)
  | some (.declared declaration, next) => (some declaration, next)
  | some (_, next) => nextDeclaration source next
termination_by byteLength source - state.offset
decreasing_by
  have := step?_offset ‹_›
  omega

theorem nextDeclaration_offset {source : Text} {state next : ScanState} {declaration : Declaration}
    (found : nextDeclaration source state = (some declaration, next)) :
    state.offset < next.offset ∧ next.offset ≤ byteLength source := by
  fun_induction nextDeclaration source state with
  | case1 => cases found
  | case2 state _ _ stepped => cases found; exact step?_offset stepped
  | case3 state step middle _ stepped ih =>
    have first := step?_offset stepped
    have later := ih found
    omega

def declarationsFrom (source : Text) (state : ScanState) : List (Declaration × ScanState) × ScanState :=
  match _ : nextDeclaration source state with
  | (none, final) => ([], final)
  | (some declaration, next) =>
    let (later, final) := declarationsFrom source next
    ((declaration, next) :: later, final)
termination_by byteLength source - state.offset
decreasing_by
  have := nextDeclaration_offset ‹_›
  omega

end ScanState

def declarations (source : Text) : List Declaration :=
  (ScanState.declarationsFrom source {}).1.map Prod.fst

structure Listener (σ : Type) where
  start : σ → σ
  declaration : Declaration → σ → σ
  complete : σ → σ

def Listener.scan (listener : Listener σ) (source : Text) (value : σ) : σ × ScanState :=
  let (found, final) := ScanState.declarationsFrom source {}
  let told := found.foldl (fun value (declaration, _) => listener.declaration declaration value)
    (listener.start value)
  (listener.complete told, final)

inductive Notification where
  | started
  | declared (declaration : Declaration)
  | completed
  deriving DecidableEq

namespace Listener

def recorder : Listener (List Notification) where
  start log := log ++ [.started]
  declaration declaration log := log ++ [.declared declaration]
  complete log := log ++ [.completed]

def collector : Listener (List Declaration) where
  start := id
  declaration declaration log := log ++ [declaration]
  complete := id

def idle : Listener σ := ⟨id, fun _ => id, id⟩

end Listener
end Intrinsics
