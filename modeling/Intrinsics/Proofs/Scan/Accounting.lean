import Intrinsics.Proofs.Scan.Survey

namespace Intrinsics
open Text

-- What every scan keeps account of: where its steps end, how deep they lead, and that the
-- iterator, the listener and the bare loop of steps go through the same states.

namespace Text

-- A place between two characters of a text or at one of its ends.
def IsBoundary (text : Text) (offset : Nat) : Prop :=
  ∃ before rest, text = before ++ rest ∧ byteLength before = offset

theorem isBoundary_iff {text : Text} {offset : Nat} :
    IsBoundary text offset ↔ ∃ rest, fromByte? text offset = some rest := by
  constructor
  · rintro ⟨before, rest, whole, measure⟩
    exact ⟨rest, fromByte?_exact.mpr ⟨before, whole, measure⟩⟩
  · rintro ⟨rest, located⟩
    obtain ⟨before, whole, measure⟩ := fromByte?_exact.mp located
    exact ⟨before, rest, whole, measure⟩

def ends (start : Nat) : List Text → List Nat
  | [] => []
  | piece :: pieces => (start + byteLength piece) :: ends (start + byteLength piece) pieces

end Text

def Step.isOutside : Step → Bool
  | .declared _ => true
  | .skipped .inclusion => true
  | _ => false

theorem Step.trivia?_isOutside {text rest : Text} {step : Step} (found : trivia? text = some (step, rest)) :
    step.isOutside = false := by
  obtain ⟨skip, member, read⟩ := List.exists_of_findSome?_eq_some found
  obtain ⟨_, _, same⟩ := Option.map_eq_some_iff.mp read
  cases same
  simp only [Skip.trivia, List.mem_cons, List.not_mem_nil, or_false] at member
  rcases member with rfl | rfl | rfl | rfl <;> rfl

theorem Step.read?_isOutside {inBlock : Bool} {text rest : Text} {step : Step}
    (read : read? inBlock text = some (step, rest)) (outside : step.isOutside = true) : inBlock = false := by
  cases text with
  | nil => cases read
  | cons c tail =>
    rcases read?_cases read with trivia | ⟨_, rfl, _⟩ | ⟨_, rfl, _⟩ | ⟨free, _⟩ | ⟨_, rfl, _⟩
    · rw [trivia?_isOutside trivia] at outside
      cases outside
    · cases outside
    · cases outside
    · exact free
    · cases outside

namespace ScanState

theorem step?_piece {source : Text} {state next : ScanState} {step : Step}
    (stepped : step? source state = some (step, next)) :
    ∃ piece rest, piece ≠ [] ∧ fromByte? source state.offset = some (piece ++ rest) ∧
      Step.read? state.inBlock (piece ++ rest) = some (step, rest) ∧
      fromByte? source next.offset = some rest ∧
      next = ⟨state.offset + byteLength piece, state.depth + step.nesting⟩ := by
  simp only [step?, Option.bind_eq_bind, Option.bind_eq_some_iff] at stepped
  obtain ⟨text, located, ⟨found, rest⟩, read, same⟩ := stepped
  cases same
  obtain ⟨_, behind⟩ := step?_located located read
  obtain ⟨piece, held, rfl⟩ := Step.read?_behind read
  refine ⟨piece, rest, held, located, read, behind, ?_⟩
  simp [ScanState.after]

theorem step?_none_iff {source : Text} {state : ScanState} :
    step? source state = none ↔ byteLength source ≤ state.offset ∨ ¬ IsBoundary source state.offset := by
  rw [isBoundary_iff]
  cases located : fromByte? source state.offset with
  | none => simp [step?, located]
  | some text =>
    obtain ⟨before, whole, measure⟩ := fromByte?_exact.mp located
    have total : byteLength source = state.offset + byteLength text := by
      rw [whole, byteLength_append, measure]
    cases text with
    | nil =>
      have refused : step? source state = none := by simp [step?, located, Step.read?]
      simp [refused, total]
    | cons c tail =>
      have taken : step? source state ≠ none := by simp [step?, located, Step.read?]
      have := byteLength_pos (List.cons_ne_nil c tail)
      simp only [taken, false_iff, not_or, not_not]
      exact ⟨by omega, c :: tail, rfl⟩

structure Advances (source : Text) (state : ScanState) (step : Step) (next : ScanState) : Prop where
  forward : state.offset < next.offset
  inside : next.offset ≤ byteLength source
  boundary : IsBoundary source next.offset
  depth : next.depth - state.depth =
    match step with
    | .entered => 1
    | .exited => -1
    | _ => 0
  outside : step.isOutside = true → state.depth ≤ 0

theorem step?_advances {source : Text} {state next : ScanState} {step : Step}
    (stepped : step? source state = some (step, next)) : Advances source state step next := by
  obtain ⟨forward, inside⟩ := step?_offset stepped
  obtain ⟨piece, rest, _, _, read, behind, same⟩ := step?_piece stepped
  refine ⟨forward, inside, isBoundary_iff.mpr ⟨rest, behind⟩, ?_, ?_⟩
  · have changed : next.depth = state.depth + step.nesting := by rw [same]
    change next.depth - state.depth = step.nesting
    omega
  · intro outside
    have free := Step.read?_isOutside read outside
    simpa [inBlock] using free

-- The loop of steps: each begins in the state behind the one before.
inductive Steps (source : Text) : ScanState → List (Step × ScanState) → ScanState → Prop where
  | nil : Steps source state [] state
  | cons : step? source state = some (step, next) → Steps source next later final →
      Steps source state ((step, next) :: later) final

namespace Steps

theorem append {source : Text} {state middle final : ScanState} {first second : List (Step × ScanState)}
    (one : Steps source state first middle) (two : Steps source middle second final) :
    Steps source state (first ++ second) final := by
  induction one with
  | nil => exact two
  | cons stepped _ ih => exact .cons stepped (ih two)

theorem offset_le {source : Text} {state final : ScanState} {steps : List (Step × ScanState)}
    (run : Steps source state steps final) : state.offset + steps.length ≤ final.offset := by
  induction run with
  | nil => exact Nat.le_refl _
  | cons stepped _ ih =>
    have forward := (step?_offset stepped).1
    rw [List.length_cons]
    omega

theorem depth_eq {source : Text} {state final : ScanState} {steps : List (Step × ScanState)}
    (run : Steps source state steps final) :
    final.depth = state.depth + (steps.countP (·.1 = .entered) : Nat) - (steps.countP (·.1 = .exited) : Nat) := by
  induction run with
  | nil => simp
  | @cons state step next later final stepped _ ih =>
    have change := (step?_advances stepped).depth
    rw [ih]
    cases step <;> simp at change ⊢ <;> omega

-- A run from a place in the source takes the text behind that place apart, piece by piece.
theorem pieces {source text : Text} {state final : ScanState} {steps : List (Step × ScanState)}
    (run : Steps source state steps final) (located : fromByte? source state.offset = some text) :
    ∃ pieces rest, text = pieces.flatten ++ rest ∧ fromByte? source final.offset = some rest ∧
      (∀ piece ∈ pieces, piece ≠ []) ∧ steps.map (·.2.offset) = ends state.offset pieces := by
  induction run generalizing text with
  | nil => exact ⟨[], text, rfl, located, by simp, rfl⟩
  | cons stepped _ ih =>
    obtain ⟨piece, rest, held, whole, _, behind, rfl⟩ := step?_piece stepped
    cases located.symm.trans whole
    obtain ⟨pieces, last, parts, ended, nonempty, offsets⟩ := ih behind
    refine ⟨piece :: pieces, last, ?_, ended, ?_, ?_⟩
    · rw [parts, List.flatten_cons, List.append_assoc]
    · exact List.forall_mem_cons.mpr ⟨held, nonempty⟩
    · rw [List.map_cons, offsets, ends]

end Steps

def declaredAt (item : Step × ScanState) : Option (Declaration × ScanState) :=
  item.1.declaration?.map (·, item.2)

theorem trace_ended {source : Text} {state : ScanState} (ended : step? source state = none) :
    trace source state = [] := by
  rw [trace]
  split
  · rfl
  · rename_i stepped
    rw [ended] at stepped
    cases stepped

theorem trace_stepped {source : Text} {state next : ScanState} {step : Step}
    (stepped : step? source state = some (step, next)) :
    trace source state = (step, next) :: trace source next := by
  rw [trace]
  split
  · rename_i ended
    rw [stepped] at ended
    cases ended
  · rename_i found behind same
    rw [stepped] at same
    cases same
    rfl

theorem nextDeclaration_ended {source : Text} {state : ScanState} (ended : step? source state = none) :
    nextDeclaration source state = (none, state) := by
  rw [nextDeclaration]
  split
  · rfl
  · rename_i stepped
    rw [ended] at stepped
    cases stepped
  · rename_i stepped
    rw [ended] at stepped
    cases stepped

-- The iterator goes through quiet steps up to the one that declares something, or to the end.
theorem nextDeclaration_steps (source : Text) (state : ScanState) :
    match nextDeclaration source state with
    | (none, final) => Steps source state (trace source state) final ∧ step? source final = none ∧
        (trace source state).filterMap declaredAt = []
    | (some declaration, next) => ∃ quiet, Steps source state (quiet ++ [(.declared declaration, next)]) next ∧
        quiet.filterMap declaredAt = [] ∧
        trace source state = quiet ++ (.declared declaration, next) :: trace source next := by
  fun_induction nextDeclaration source state with
  | case1 state ended =>
    rw [trace_ended ended]
    exact ⟨.nil, ended, rfl⟩
  | case2 state declaration next stepped => exact ⟨[], .cons stepped .nil, rfl, trace_stepped stepped⟩
  | case3 state step next silent stepped ih =>
    have undeclared : declaredAt (step, next) = none := by
      cases step with
      | declared declaration => exact absurd rfl (silent declaration)
      | _ => rfl
    rw [trace_stepped stepped]
    split at ih
    · obtain ⟨run, ended, nothing⟩ := ih
      exact ⟨.cons stepped run, ended, by simp [undeclared, nothing]⟩
    · obtain ⟨quiet, run, nothing, whole⟩ := ih
      exact ⟨(step, next) :: quiet, .cons stepped run, by simp [undeclared, nothing], by simp [whole]⟩

theorem declarationsFrom_steps (source : Text) (state : ScanState) :
    (declarationsFrom source state).1 = (trace source state).filterMap declaredAt ∧
      Steps source state (trace source state) (declarationsFrom source state).2 ∧
      step? source (declarationsFrom source state).2 = none := by
  fun_induction declarationsFrom source state with
  | case1 state final found =>
    have run := nextDeclaration_steps source state
    rw [found] at run
    obtain ⟨run, ended, nothing⟩ := run
    exact ⟨nothing.symm, run, ended⟩
  | case2 state declaration next found later final rest ih =>
    have run := nextDeclaration_steps source state
    simp only [found] at run
    obtain ⟨quiet, run, nothing, whole⟩ := run
    simp only [rest] at ih
    obtain ⟨same, behind, ended⟩ := ih
    refine ⟨?_, ?_, ended⟩
    · simp [whole, nothing, same, declaredAt, Step.declaration?]
    · rw [whole, List.append_cons]
      exact run.append behind

-- A scan as a whole: its steps take the source apart without a rest, and the depth at its
-- end is the balance of the braces it met.
structure Accounted (source : Text) (steps : List (Step × ScanState)) (final : ScanState) : Prop where
  linked : Steps source {} steps final
  ended : step? source final = none
  few : steps.length ≤ byteLength source
  offset : final.offset = byteLength source
  depth : final.depth = (steps.countP (·.1 = .entered) : Nat) - (steps.countP (·.1 = .exited) : Nat)
  pieces : ∃ pieces : List Text, pieces.flatten = source ∧ (∀ piece ∈ pieces, piece ≠ []) ∧
    steps.map (·.2.offset) = ends 0 pieces

theorem Steps.accounted {source : Text} {steps : List (Step × ScanState)} {final : ScanState}
    (run : Steps source {} steps final) (ended : step? source final = none) :
    Accounted source steps final := by
  have start : fromByte? source (ScanState.mk 0 0).offset = some source := by cases source <;> rfl
  obtain ⟨pieces, rest, whole, located, nonempty, offsets⟩ := run.pieces start
  obtain ⟨before, split, measure⟩ := fromByte?_exact.mp located
  -- The end of the run is a boundary, so it can only be refused for being the last one.
  have last : rest = [] := by
    rcases step?_none_iff.mp ended with beyond | inside
    · rw [split, byteLength_append, ← measure] at beyond
      by_contra held
      have := byteLength_pos held
      omega
    · exact absurd (isBoundary_iff.mpr ⟨rest, located⟩) inside
  subst last
  have offset : final.offset = byteLength source := by rw [split, List.append_nil, measure]
  refine ⟨run, ended, ?_, offset, ?_, pieces, ?_, nonempty, offsets⟩
  · have bound := run.offset_le
    rw [offset] at bound
    simpa using bound
  · simpa using run.depth_eq
  · rw [whole, List.append_nil]

end ScanState

open ScanState

-- A listener hears of the declarations of a source one after the other, between one start and
-- one end.
theorem Listener.scan_eq {σ : Type} (listener : Listener σ) (source : Text) (value : σ) :
    listener.scan source value =
      (listener.complete ((declarations source).foldl (fun value declaration =>
        listener.declaration declaration value) (listener.start value)), (declarationsFrom source {}).2) := by
  simp [Listener.scan, declarations, List.foldl_map]

theorem Listener.recorder_append (found : List Declaration) (log : List Notification) :
    found.foldl (fun log declaration => recorder.declaration declaration log) log =
      log ++ found.map .declared := by
  induction found generalizing log with
  | nil => simp
  | cons declaration found ih =>
    rw [List.foldl_cons, ih]
    simp [recorder]

theorem Listener.recorder_scan (source : Text) :
    (recorder.scan source []).1 =
      .started :: (declarations source).map .declared ++ [.completed] := by
  rw [scan_eq, recorder_append]
  rfl

-- A state without a step is left as it is; any other step moves on to a boundary and changes
-- the depth by its brace. A whole scan is accounted for, and whichever way it is driven, it
-- shows the same declarations in the same states.
theorem scan_accounted (source : Text) :
    (∀ state, (step? source state = none ↔
        byteLength source ≤ state.offset ∨ ¬ IsBoundary source state.offset) ∧
      (step? source state = none → nextDeclaration source state = (none, state))) ∧
    (∀ state step next, step? source state = some (step, next) → Advances source state step next) ∧
    Accounted source (trace source {}) (declarationsFrom source {}).2 ∧
    (declarationsFrom source {}).1 = (trace source {}).filterMap declaredAt ∧
    declarations source = (trace source {}).filterMap (·.1.declaration?) ∧
    (∀ (σ : Type) (listener : Listener σ) (value : σ), listener.scan source value =
      (listener.complete ((declarations source).foldl (fun value declaration =>
        listener.declaration declaration value) (listener.start value)), (declarationsFrom source {}).2)) ∧
    (Listener.recorder.scan source []).1 =
      .started :: (declarations source).map .declared ++ [.completed] := by
  obtain ⟨items, run, ended⟩ := declarationsFrom_steps source {}
  refine ⟨fun state => ⟨step?_none_iff, nextDeclaration_ended⟩, fun _ _ _ => step?_advances,
    run.accounted ended, items, ?_, fun _ listener => listener.scan_eq source, Listener.recorder_scan source⟩
  rw [declarations, items, List.map_filterMap]
  congr 1
  funext item
  simp [declaredAt, Function.comp_def]

end Intrinsics
