import Intrinsics.Proofs.Declaration.Origins
import Intrinsics.Proofs.Scan.Lines
import Intrinsics.Proofs.Stub.Lines
import Intrinsics.Stub.Emitter

namespace Intrinsics
open Text

theorem Step.read?_declared {inBlock : Bool} {text rest : Text} {declaration : Declaration}
    (read : Step.read? inBlock text = some (.declared declaration, rest)) :
    Declaration.read? text = some (declaration, rest) := by
  cases text with
  | nil => cases read
  | cons c tail =>
    rcases Step.read?_cases read with trivia | ⟨_, same, _⟩ | ⟨_, same, _⟩ | ⟨_, outer⟩ | ⟨_, same, _⟩
    · obtain ⟨skip, _, skipped⟩ := List.exists_of_findSome?_eq_some trivia
      obtain ⟨_, _, same⟩ := Option.map_eq_some_iff.mp skipped
      cases same
    · cases same
    · cases same
    · unfold Step.outside? at outer
      split at outer
      · cases outer
      · obtain ⟨⟨_, _⟩, reported, same⟩ := Option.map_eq_some_iff.mp outer
        cases same
        exact reported
    · cases same

theorem survey_spoken (depth : Int) (text : Text) : ∀ declaration ∈ (survey depth text).1, declaration.Spoken := by
  fun_induction survey depth text with
  | case1 => simp
  | case2 depth text step rest read ih =>
    intro declaration member
    rcases List.mem_append.mp member with here | later
    · cases step with
      | declared reported =>
        simp only [Step.declaration?, Option.toList_some, List.mem_singleton] at here
        rw [here]
        exact Declaration.read?_spoken (Step.read?_declared read)
      | skipped | entered | exited | advanced => cases here
    · exact ih declaration later

theorem declarations_spoken (source : Text) : ∀ declaration ∈ declarations source, declaration.Spoken := by
  rw [declarations_eq_survey]
  exact survey_spoken 0 source

-- A semicolon that ends a line of a stub is passed over; no form begins with it.
theorem survey_semicolon {depth : Int} (outside : depth ≤ 0) (text : Text) :
    survey depth (';' :: text) = survey depth text := by
  have bare : Step.trivia? (';' :: text) = none :=
    Step.trivia?_none (by decide) (by decide) (fun slash => absurd slash (by decide))
  have noInclusion : Skip.inclusion.read? (';' :: text) = none := by
    simp [Skip.read?, after?]
  obtain ⟨noImport, noClass, noInterface⟩ : importing? (';' :: text) = none ∧ classHeader? (';' :: text) = none ∧
      interfaceHeader? (';' :: text) = none :=
    headers_none (stops_cons.mpr rfl) (stops_cons.mpr rfl) (stops_cons.mpr rfl)
  have unmoved : skipBlanks (';' :: text) = ';' :: text := skipBlanks_of_stops (stops_cons.mpr rfl)
  have noAttributes : attributes (';' :: text) = ([], ';' :: text) :=
    attributes_written ⟨[], by simp⟩ (attribute?_none_of_head (by decide) (by decide)) (stops_cons.mpr rfl)
  have noDeclaration : Declaration.read? (';' :: text) = none := by
    simp [Declaration.read?, Declaration.readAmong?, Form.order, Form.read?, noImport, noClass, noInterface,
      method?, accessor?, property?, unmoved, noAttributes, spaced?, after?]
  have notInside : ¬ 0 < depth := by omega
  rw [survey_step (show Step.read? (0 < depth) (';' :: text) = some (.advanced, text) by
    simp [Step.read?, bare, notInside, Step.outside?, noInclusion, noDeclaration])]
  simp [Step.nesting, Step.declaration?]

theorem FunctionLine.passes (line : FunctionLine) :
    Passes 0 (line.text ++ ";\n".toList) [line.declaration] 0 := by
  intro rest
  have semicolon : (";\n".toList ++ rest : Text) = ';' :: '\n' :: rest := rfl
  have behind : BehindFunction (';' :: '\n' :: rest) := by
    constructor
    · exact stops_cons.mpr rfl
    · rw [skipBlanks_of_stops (stops_cons.mpr rfl)]
      exact stops_cons.mpr rfl
  rw [List.append_assoc, semicolon, line.survey_eq (Int.le_refl 0) behind, survey_semicolon (Int.le_refl 0),
    survey_blank rfl]

-- A line of a stub shows its declaration and, unless it opens an interface, leaves the scan
-- outside of every block.
theorem Declaration.Spoken.stub_passes {declaration : Declaration} (spoken : declaration.Spoken) :
    Passes 0 declaration.stub [declaration.shown] (if declaration.isInterface then 1 else 0) := by
  have newline : Passes 0 ['\n'] [] 0 := fun rest => survey_blank rfl 0 rest
  have tab : Passes 0 ['\t'] [] 0 := fun rest => survey_blank rfl 0 rest
  cases spoken with
  | importing line =>
    have passed := (line.stub.passes (Int.le_refl 0)).append newline
    rw [line.stub_text]
    exact passed
  | classHeader line =>
    have passed := (line.stub.passes (Int.le_refl 0)).append newline
    rw [← line.stub_text, line.stub_header] at passed
    exact passed
  | interfaceHeader line =>
    intro rest
    have shape : (Declaration.interfaceHeader line.header).stub = line.stub.text ++ " \x7b\n".toList :=
      line.stub_text
    have brace : (" \x7b\n".toList ++ rest : Text) = ' ' :: '\x7b' :: '\n' :: rest := rfl
    have bare : Stops (· == 'e') (skipBlanks (' ' :: '\x7b' :: '\n' :: rest)) := by
      rw [show (' ' :: '\x7b' :: '\n' :: rest : Text) = Gap.space.text ++ ("\x7b".toList ++ '\n' :: rest) from rfl,
        skipBlanks_blanks, skipBlanks_brace]
      exact stops_cons.mpr rfl
    rw [shape, List.append_assoc, brace, line.stub.survey_eq (Int.le_refl 0) (stops_cons.mpr rfl) bare,
      line.stub_header, survey_blank rfl, survey_open, survey_blank rfl]
    rfl
  | function line =>
    have passed := tab.append line.stub.passes
    rw [List.singleton_append, ← line.stub_text, line.stub_declaration] at passed
    have opens : line.declaration.isInterface = false := by
      unfold FunctionLine.declaration
      split <;> rfl
    rw [opens]
    exact passed
  | property line =>
    have passed := tab.append ((line.stub.passes (Int.le_refl 0)).append newline)
    rw [List.singleton_append, ← line.stub_text, line.stub_property] at passed
    exact passed

def outline (publicOnly : Bool) (source : Text) : List Declaration :=
  ((declarations source).filter fun declaration => !(publicOnly && declaration.isHidden)).map Declaration.shown

def lastType (found : List Declaration) : Option QualifiedName := found.reverse.findSome? Declaration.typeName?

theorem lastType_cons (declaration : Declaration) (found : List Declaration) :
    lastType (declaration :: found) = (lastType found).or declaration.typeName? := by
  simp [lastType, List.findSome?_append]

theorem lastType_shown (found : List Declaration) : lastType (found.map Declaration.shown) = lastType found := by
  simp [lastType, ← List.map_reverse, List.findSome?_map, Function.comp_def]

-- The emitter adds to what it holds; of the names it keeps the last.
theorem Emitter.declare_all (found : List Declaration) (emitter : Emitter) :
    found.foldl (fun emitter declaration => emitter.declare declaration) emitter =
      let kept := found.filter fun declaration => !(emitter.publicOnly && declaration.isHidden)
      ⟨emitter.publicOnly, (lastType kept).or emitter.stub.typeName,
        emitter.stub.text ++ kept.flatMap Declaration.stub⟩ := by
  induction found generalizing emitter with
  | nil => simp [lastType]
  | cons declaration found ih =>
    rw [List.foldl_cons, ih]
    cases dropped : emitter.publicOnly && declaration.isHidden with
    | true =>
      have held : emitter.declare declaration = emitter := by simp [Emitter.declare, dropped]
      simp only [held, List.filter_cons, dropped, Bool.not_true, Bool.false_eq_true, if_false]
    | false =>
      have held : emitter.declare declaration = ⟨emitter.publicOnly, declaration.typeName?.or emitter.stub.typeName,
          emitter.stub.text ++ declaration.stub⟩ := by
        simp [Emitter.declare, dropped]
      simp only [held, List.filter_cons, dropped, Bool.not_false, if_true, lastType_cons, Option.or_assoc,
        List.flatMap_cons, List.append_assoc]

theorem Stub.render_eq (publicOnly : Bool) (source : Text) :
    Stub.render publicOnly source =
      ⟨lastType (outline publicOnly source),
        (outline publicOnly source).flatMap Declaration.stub ++ "\x7d\n".toList⟩ := by
  have told : (ScanState.declarationsFrom source {}).1.foldl
      (fun emitter found => Emitter.declare found.1 emitter) (⟨publicOnly, {}⟩ : Emitter) =
      (declarations source).foldl (fun emitter declaration => emitter.declare declaration) ⟨publicOnly, {}⟩ := by
    rw [declarations, List.foldl_map]
  have rendered : Stub.render publicOnly source = (Emitter.complete ((ScanState.declarationsFrom source {}).1.foldl
      (fun emitter found => Emitter.declare found.1 emitter) ⟨publicOnly, {}⟩)).stub := rfl
  rw [rendered, told, Emitter.declare_all]
  simp [Emitter.complete, outline, lastType_shown, List.flatMap_map]

-- The depth is zero in front of every line: only an interface takes it above, and what
-- follows an interface is the closing brace.
theorem survey_stubs {found : List Declaration} (spoken : ∀ declaration ∈ found, declaration.Spoken)
    (last : found.Pairwise fun earlier _ => earlier.isInterface = false) :
    (survey 0 (found.flatMap Declaration.stub ++ "\x7d\n".toList)).1 = found.map Declaration.shown := by
  have ended : ∀ depth, (survey depth "\x7d\n".toList).1 = [] := by
    intro depth
    rw [show "\x7d\n".toList = ['\x7d', '\n'] from rfl, survey_close, survey_blank rfl, survey_nil]
  induction found with
  | nil => exact ended 0
  | cons declaration found ih =>
    have line := (spoken declaration List.mem_cons_self).stub_passes
    rw [List.flatMap_cons, List.append_assoc, line, List.map_cons]
    cases found with
    | nil => exact congrArg (declaration.shown :: ·) (ended _)
    | cons second later =>
      obtain ⟨plain, rest⟩ := List.pairwise_cons.mp last
      have outside := plain second List.mem_cons_self
      have behind := ih (fun other member => spoken other (List.mem_cons_of_mem _ member)) rest
      simp only [outside]
      exact congrArg (declaration.shown :: ·) behind

theorem Declaration.Spoken.shown {declaration : Declaration} (spoken : declaration.Spoken) :
    declaration.shown.Spoken := by
  cases spoken with
  | importing line => exact .importing line
  | classHeader line => exact .classHeader line
  | interfaceHeader line => exact .interfaceHeader line
  | property line => exact .property line
  | function line =>
    rw [← line.stub_declaration]
    exact .function line.stub

theorem outline_spoken (publicOnly : Bool) (source : Text) :
    ∀ declaration ∈ outline publicOnly source, declaration.Spoken := by
  intro declaration member
  obtain ⟨origin, held, rfl⟩ := List.mem_map.mp member
  exact (declarations_spoken source origin (List.mem_filter.mp held).1).shown

-- Headers are never hidden, so hiding members keeps the type.
theorem lastType_filter (publicOnly : Bool) (found : List Declaration) :
    lastType (found.filter fun declaration => !(publicOnly && declaration.isHidden)) = lastType found := by
  induction found with
  | nil => rfl
  | cons declaration found ih =>
    rw [lastType_cons, List.filter_cons]
    split
    · rw [lastType_cons, ih]
    · rename_i dropped
      have unnamed : declaration.typeName? = none := by
        cases declaration with
        | classHeader | interfaceHeader => simp [Declaration.isHidden, Declaration.visibility?] at dropped
        | importing | method | getter | setter | property => rfl
      rw [ih, unnamed, Option.or_none]

-- The lines of a stub are lines again, so a stub is its own stub.
theorem render_scans_back (publicOnly : Bool) (source : Text)
    (last : (outline publicOnly source).Pairwise fun earlier _ => earlier.isInterface = false) :
    declarations (Stub.render publicOnly source).text = outline publicOnly source ∧
      (∀ again, (Stub.render again (Stub.render publicOnly source).text).typeName =
        (Stub.render publicOnly source).typeName) ∧
      Stub.render publicOnly (Stub.render publicOnly source).text = Stub.render publicOnly source := by
  have shown : (outline publicOnly source).map Declaration.shown = outline publicOnly source := by
    simp [outline, Function.comp_def]
  have scanned : declarations (Stub.render publicOnly source).text = outline publicOnly source := by
    rw [Stub.render_eq, declarations_eq_survey, survey_stubs (outline_spoken publicOnly source) last, shown]
  have kept : outline publicOnly (Stub.render publicOnly source).text = outline publicOnly source := by
    rw [outline, scanned]
    simp [outline, List.filter_map, Function.comp_def]
  refine ⟨scanned, ?_, ?_⟩
  · intro again
    simp only [Stub.render_eq again]
    rw [outline, scanned, lastType_shown, lastType_filter, Stub.render_eq]
  · rw [Stub.render_eq, kept, ← Stub.render_eq]

-- The lines of a class with a hidden member and with a getter that has parameters, between an
-- import and an interface.
def shelfImport : ImportLine where
  before := Gap.space.toBlanks
  package := ['p']
  packaged := List.cons_ne_nil _ _
  packageSpelt := List.forall_mem_singleton.mpr (by decide)
  name := ['Q']
  named := List.cons_ne_nil _ _
  nameSpelt := List.forall_mem_singleton.mpr (by decide)
  behind := .empty

def shelfClass : ClassLine := ⟨none, none, .space, (PlainName.single 'K' (by decide)).unpackaged, none, none, .empty⟩

def shelfProperty : PropertyLine :=
  ⟨⟨[(.hidden, .space)], by decide⟩, .space, .single 'h' (by decide), none, none⟩

def shelfGetter : FunctionLine :=
  ⟨⟨[(.fixed, .space)], by decide⟩, .space, some (.get, .space), .single 'g' (by decide), .empty, ['i'], by decide, none⟩

def shelfInterface : InterfaceLine := ⟨none, .space, (PlainName.single 'S' (by decide)).unpackaged, none⟩

def shelfSource : Text :=
  "import p.Q;class K\x7bprivate var h;static function get g(i);\n\x7dinterface S".toList

theorem declarations_shelfSource : declarations shelfSource =
    [.importing ⟨"p".toList, "Q".toList⟩, .classHeader ⟨false, ⟨[], "K".toList⟩, none, none⟩,
      .property ⟨⟨.hidden, false⟩, "h".toList, none⟩, .getter ⟨⟨.exposed, true⟩, "g".toList, "i".toList, none⟩,
      .interfaceHeader ⟨⟨[], "S".toList⟩, none⟩] := by
  have close : Passes 0 ['\x7d'] [] (-1) := fun rest => survey_close 0 rest
  have front := (shelfImport.passes (Int.le_refl 0)).append ((shelfClass.passes (Int.le_refl 0)).append
    ((shelfProperty.passes (Int.le_refl 0)).append (shelfGetter.passes.append close)))
  have parts : shelfSource = shelfImport.text ++ (shelfClass.text ++ (shelfProperty.text ++
    ((shelfGetter.text ++ ";\n".toList) ++ ['\x7d']))) ++ shelfInterface.text := rfl
  rw [declarations_eq_survey, parts, front, shelfInterface.survey_alone (by decide)]
  rfl

theorem outline_shelfSource : outline true shelfSource =
    [.importing ⟨"p".toList, "Q".toList⟩, .classHeader ⟨false, ⟨[], "K".toList⟩, none, none⟩,
      .getter ⟨⟨.exposed, true⟩, "g".toList, [], none⟩, .interfaceHeader ⟨⟨[], "S".toList⟩, none⟩] := by
  rw [outline, declarations_shelfSource]
  rfl

theorem render_scans_back_hidden :
    (outline true shelfSource).Pairwise (fun earlier _ => earlier.isInterface = false) ∧
      declarations (Stub.render true shelfSource).text =
        [.importing ⟨"p".toList, "Q".toList⟩, .classHeader ⟨false, ⟨[], "K".toList⟩, none, none⟩,
          .getter ⟨⟨.exposed, true⟩, "g".toList, [], none⟩, .interfaceHeader ⟨⟨[], "S".toList⟩, none⟩] ∧
      Stub.render true (Stub.render true shelfSource).text = Stub.render true shelfSource := by
  have last : (outline true shelfSource).Pairwise fun earlier _ => earlier.isInterface = false := by
    rw [outline_shelfSource]
    decide
  obtain ⟨scanned, _, again⟩ := render_scans_back true shelfSource last
  rw [outline_shelfSource] at scanned
  exact ⟨last, scanned, again⟩

end Intrinsics
