import Intrinsics.Proofs.Declaration.Lines
import Intrinsics.Proofs.Scan.Closed

namespace Intrinsics
open Text

-- Outside of blocks a scan reports every written line as one declaration. Each line begins
-- with a letter, so neither white space nor a brace nor an inclusion gets in its way, and the
-- forms that are tried before its own refuse it.

theorem importing?_none_of_intrinsic (rest : Text) : importing? ("intrinsic".toList ++ rest) = none := by
  simp [importing?, after?]

theorem importing?_none_of_stops {text : Text} (other : Stops (· == 'i') text) : importing? text = none := by
  have missing : after? "import".toList text = none := after?_none_of_stops other
  simp only [importing?, missing, Option.bind_eq_bind, Option.bind_none]

theorem classHeader?_none_of_stops {text : Text} (first : Stops (· == 'd') (skipSpaced "intrinsic".toList text))
    (second : Stops (· == 'c') (skipSpaced "intrinsic".toList text)) : classHeader? text = none := by
  have unmarked : dynamicMark? (skipSpaced "intrinsic".toList text) = none := by
    have missing : after? "dynamic".toList (skipSpaced "intrinsic".toList text) = none :=
      after?_none_of_stops first
    simp only [dynamicMark?, missing, Option.bind_eq_bind, Option.bind_none]
  have missing : after? "class".toList (skipSpaced "intrinsic".toList text) = none :=
    after?_none_of_stops second
  simp only [classHeader?, optional_none unmarked, spaced?, missing, Option.bind_eq_bind, Option.bind_none]

theorem interfaceHeader?_none_of_stops {text : Text} (other : Stops (· == 'i') text) :
    interfaceHeader? text = none := by
  have bare : after? "intrinsic".toList text = none := after?_none_of_stops other
  have missing : after? "interface".toList text = none := after?_none_of_stops other
  simp only [interfaceHeader?, skipSpaced, spaced?, bare, missing, Option.bind_eq_bind, Option.bind_none,
    Option.getD_none]

theorem headers_none {text : Text} (noI : Stops (· == 'i') text) (noD : Stops (· == 'd') text)
    (noC : Stops (· == 'c') text) :
    importing? text = none ∧ classHeader? text = none ∧ interfaceHeader? text = none := by
  have bare : spaced? "intrinsic".toList text = none := by
    have missing : after? "intrinsic".toList text = none := after?_none_of_stops noI
    simp only [spaced?, missing, Option.bind_eq_bind, Option.bind_none]
  refine ⟨importing?_none_of_stops noI, ?_, interfaceHeader?_none_of_stops noI⟩
  apply classHeader?_none_of_stops
  · rw [skipSpaced_of_none bare]
    exact noD
  · rw [skipSpaced_of_none bare]
    exact noC

theorem member_apart {text : Text} (starts : Starts isMemberInitial text) :
    importing? text = none ∧ classHeader? text = none ∧ interfaceHeader? text = none := by
  have apart : ∀ letter, isMemberInitial letter = false → Stops (· == letter) text := by
    intro letter other
    apply starts.stops
    intro c initial
    rw [beq_eq_false_iff_ne]
    intro same
    rw [same, other] at initial
    cases initial
  exact headers_none (apart 'i' rfl) (apart 'd' rfl) (apart 'c' rfl)

theorem InterfaceLine.apart (line : InterfaceLine) (rest : Text) :
    importing? (line.text ++ rest) = none ∧ classHeader? (line.text ++ rest) = none := by
  obtain ⟨intrinsic, gap, name, base⟩ := line
  have skipped : skipSpaced "intrinsic".toList ((InterfaceLine.mk intrinsic gap name base).text ++ rest) =
      "interface".toList ++ (gap.text ++ (name.text ++ (base.elim [] BasePart.text ++ rest))) := by
    simp only [InterfaceLine.text, List.append_assoc]
    exact skipSpaced_intrinsic intrinsic _ (by simp [spaced?, after?]) (stops_cons.mpr rfl)
  constructor
  · cases intrinsic with
    | some space => exact importing?_none_of_intrinsic _
    | none => simp [importing?, after?, InterfaceLine.text, intrinsicText]
  · apply classHeader?_none_of_stops
    · rw [skipped]
      exact stops_cons.mpr rfl
    · rw [skipped]
      exact stops_cons.mpr rfl

namespace Declaration

theorem read?_import (line : ImportLine) (rest : Text) :
    read? (line.text ++ rest) = some (.importing line.target, rest) := by
  simp [read?, readAmong?, Form.order, Form.read?, importing?_written]

theorem read?_class (line : ClassLine) (rest : Text) :
    read? (line.text ++ rest) = some (.classHeader line.header, rest) := by
  have other : importing? (line.text ++ rest) = none := by
    obtain ⟨intrinsic, dynamic, gap, name, base, interfaces, blanks⟩ := line
    cases intrinsic with
    | some space => exact importing?_none_of_intrinsic _
    | none =>
      apply importing?_none_of_stops
      cases dynamic with
      | none => exact stops_cons.mpr rfl
      | some mark => exact stops_cons.mpr rfl
  simp [read?, readAmong?, Form.order, Form.read?, other, classHeader?_written]

theorem read?_interface (line : InterfaceLine) {rest : Text} (stops : Stops isQualifiedPart rest)
    (bare : Stops (· == 'e') (skipBlanks rest)) :
    read? (line.text ++ rest) = some (.interfaceHeader line.header, rest) := by
  obtain ⟨noImport, noClass⟩ := line.apart rest
  simp [read?, readAmong?, Form.order, Form.read?, noImport, noClass, interfaceHeader?_written line stops bare]

theorem read?_function (line : FunctionLine) {rest : Text} (behind : BehindFunction rest) :
    read? (line.text ++ rest) = some (line.declaration, skipBlanks rest) := by
  obtain ⟨noImport, noClass, noInterface⟩ := member_apart (line.starts rest)
  cases accessor : line.accessor with
  | none =>
    simp [read?, readAmong?, Form.order, Form.read?, noImport, noClass, noInterface,
      method?_written line behind accessor, FunctionLine.declaration, accessor]
  | some item =>
    simp [read?, readAmong?, Form.order, Form.read?, noImport, noClass, noInterface,
      method?_accessor line rest accessor, accessor?_written line behind accessor]

theorem read?_property (line : PropertyLine) (rest : Text) :
    read? (line.text ++ rest) = some (.property line.property, rest) := by
  obtain ⟨noImport, noClass, noInterface⟩ := member_apart (line.starts rest)
  have noFunction : ∀ behind : Text, spaced? "function".toList ("var".toList ++ behind) = none := by
    intro behind
    simp [spaced?, after?]
  have noMethod : method? (line.text ++ rest) = none := by
    rw [method?, skipBlanks_member (line.starts rest)]
    simp only [PropertyLine.text, List.append_assoc, attributes_var, noFunction, Option.bind_eq_bind,
      Option.bind_none]
  have noAccessor : accessor? (line.text ++ rest) = none := by
    simp only [accessor?, PropertyLine.text, List.append_assoc, attributes_var, noFunction,
      Option.bind_eq_bind, Option.bind_none]
  simp [read?, readAmong?, Form.order, Form.read?, noImport, noClass, noInterface, noMethod, noAccessor,
    property?_written]

end Declaration

-- A letter begins neither white space, a comment or a string nor a block or an inclusion.
theorem Step.read?_named {c : Char} (part : isNamePart c = true) {depth : Int} (outside : depth ≤ 0) (tail : Text) :
    Step.read? (0 < depth) (c :: tail) =
      some (((Declaration.read? (c :: tail)).map fun (declaration, rest) => (.declared declaration, rest)).getD
        (.advanced, tail)) := by
  have apart : ∀ d, isNamePart d = false → c ≠ d := by
    intro d other same
    rw [same, other] at part
    cases part
  have bare : Step.trivia? (c :: tail) = none := by
    apply Step.trivia?_none
    · exact isBlank_of_isQualifiedPart (isQualifiedPart_of_isNamePart part)
    · simp [isQuote, apart '"' (by decide), apart '\'' (by decide)]
    · intro slash
      exact absurd slash (apart '/' (by decide))
  have noInclusion : Skip.inclusion.read? (c :: tail) = none := by
    have missing : after? "#include".toList (c :: tail) = none :=
      after?_none_of_head (Ne.symm (apart '#' (by decide)))
    simp only [Skip.read?, missing, Option.bind_eq_bind, Option.bind_none]
  have notInside : ¬ 0 < depth := by omega
  simp [Step.read?, bare, apart '\x7b' (by decide), apart '\x7d' (by decide), notInside, Step.outside?,
    noInclusion]

theorem survey_declared {depth : Int} {text rest : Text} {declaration : Declaration} (outside : depth ≤ 0)
    (starts : Starts isNamePart text) (read : Declaration.read? text = some (declaration, rest)) :
    survey depth text = (survey depth rest).behind [declaration] := by
  obtain ⟨c, tail, rfl, part⟩ := starts
  have step := Step.read?_named part outside tail
  rw [read] at step
  rw [survey_step step]
  simp [Step.nesting, Step.declaration?]

theorem survey_passed {depth : Int} {c : Char} {tail : Text} (outside : depth ≤ 0) (part : isNamePart c = true)
    (refused : Declaration.read? (c :: tail) = none) : survey depth (c :: tail) = survey depth tail := by
  have step := Step.read?_named part outside tail
  rw [refused] at step
  rw [survey_step step]
  simp [Step.nesting, Step.declaration?]

theorem Starts.namePart {text : Text} (starts : Starts isMemberInitial text) : Starts isNamePart text := by
  obtain ⟨c, tail, rfl, initial⟩ := starts
  refine ⟨c, tail, rfl, ?_⟩
  simp only [isMemberInitial, Bool.or_eq_true, beq_iff_eq] at initial
  rcases initial with ((same | same) | same) | same
  all_goals subst same; decide

theorem ImportLine.passes (line : ImportLine) {depth : Int} (outside : depth ≤ 0) :
    Passes depth line.text [.importing line.target] depth :=
  fun rest => survey_declared outside ⟨'i', _, rfl, by decide⟩ (Declaration.read?_import line rest)

theorem ClassLine.starts (line : ClassLine) (rest : Text) : Starts isNamePart (line.text ++ rest) := by
  obtain ⟨intrinsic, dynamic, gap, name, base, interfaces, blanks⟩ := line
  cases intrinsic with
  | some space => exact ⟨'i', _, rfl, by decide⟩
  | none =>
    cases dynamic with
    | none => exact ⟨'c', _, rfl, by decide⟩
    | some mark => exact ⟨'d', _, rfl, by decide⟩

theorem ClassLine.passes (line : ClassLine) {depth : Int} (outside : depth ≤ 0) :
    Passes depth line.text [.classHeader line.header] depth :=
  fun rest => survey_declared outside (line.starts rest) (Declaration.read?_class line rest)

theorem InterfaceLine.starts (line : InterfaceLine) (rest : Text) : Starts isNamePart (line.text ++ rest) := by
  obtain ⟨intrinsic, gap, name, base⟩ := line
  cases intrinsic with
  | some space => exact ⟨'i', _, rfl, by decide⟩
  | none => exact ⟨'i', _, rfl, by decide⟩

theorem InterfaceLine.survey_eq (line : InterfaceLine) {depth : Int} (outside : depth ≤ 0) {rest : Text}
    (stops : Stops isQualifiedPart rest) (bare : Stops (· == 'e') (skipBlanks rest)) :
    survey depth (line.text ++ rest) = (survey depth rest).behind [.interfaceHeader line.header] :=
  survey_declared outside (line.starts rest) (Declaration.read?_interface line stops bare)

theorem InterfaceLine.survey_alone (line : InterfaceLine) {depth : Int} (outside : depth ≤ 0) :
    survey depth line.text = ([.interfaceHeader line.header], depth) := by
  have read := line.survey_eq outside (stops_nil isQualifiedPart) (stops_nil (· == 'e'))
  rw [List.append_nil, survey_nil] at read
  exact read

theorem FunctionLine.survey_eq (line : FunctionLine) {depth : Int} (outside : depth ≤ 0) {rest : Text}
    (behind : BehindFunction rest) :
    survey depth (line.text ++ rest) = (survey depth rest).behind [line.declaration] := by
  rw [survey_declared outside (Starts.namePart (line.starts rest)) (Declaration.read?_function line behind),
    survey_skipBlanks]

theorem PropertyLine.passes (line : PropertyLine) {depth : Int} (outside : depth ≤ 0) :
    Passes depth line.text [.property line.property] depth :=
  fun rest => survey_declared outside (Starts.namePart (line.starts rest)) (Declaration.read?_property line rest)

end Intrinsics
