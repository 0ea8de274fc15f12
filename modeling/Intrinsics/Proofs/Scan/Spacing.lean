import Intrinsics.Proofs.Declaration.TypeNames
import Intrinsics.Proofs.Scan.Lines
import Mathlib.Data.List.Infix

namespace Intrinsics
open Text

-- Blanks between the words of a declaration. A scan sees that they are there and nothing else of
-- them, except behind `dynamic`, where it wants a single character.

inductive Slot where
  | intrinsic | keyword | attribute (index : Nat) | accessor | beforeExtends | behindExtends
  | beforeImplements | behindImplements

abbrev Spacing := Slot → Gap

inductive Line where
  | importing (line : ImportLine)
  | classHeader (line : ClassLine)
  | interfaceHeader (line : InterfaceLine)
  | function (line : FunctionLine)
  | property (line : PropertyLine)

def Line.text : Line → Text
  | .importing line => line.text
  | .classHeader line => line.text
  | .interfaceHeader line => line.text
  | .function line => line.text
  | .property line => line.text

def BasePart.respace (spacing : Spacing) (part : BasePart) : BasePart :=
  { part with before := spacing .beforeExtends, behind := spacing .behindExtends }

def ListPart.respace (spacing : Spacing) (part : ListPart) : ListPart :=
  { part with before := spacing .beforeImplements, behind := spacing .behindImplements }

def Attributes.respace (spacing : Spacing) (attributes : Attributes) : Attributes where
  items := attributes.items.zipIdx.map fun (item, index) => (item.1, spacing (.attribute index))
  few := by simpa using attributes.few

def ImportLine.respace (spacing : Spacing) (line : ImportLine) : ImportLine :=
  { line with before := (spacing .keyword).toBlanks }

def ClassLine.respace (spacing : Spacing) (line : ClassLine) : ClassLine :=
  { line with
    intrinsic := line.intrinsic.map fun _ => spacing .intrinsic
    gap := spacing .keyword
    base := line.base.map (·.respace spacing)
    interfaces := line.interfaces.map (·.respace spacing) }

def InterfaceLine.respace (spacing : Spacing) (line : InterfaceLine) : InterfaceLine :=
  { line with
    intrinsic := line.intrinsic.map fun _ => spacing .intrinsic
    gap := spacing .keyword
    base := line.base.map (·.respace spacing) }

def FunctionLine.respace (spacing : Spacing) (line : FunctionLine) : FunctionLine :=
  { line with
    attributes := line.attributes.respace spacing
    gap := spacing .keyword
    accessor := line.accessor.map fun item => (item.1, spacing .accessor) }

def PropertyLine.respace (spacing : Spacing) (line : PropertyLine) : PropertyLine :=
  { line with attributes := line.attributes.respace spacing, gap := spacing .keyword }

-- The line with the given blanks between its words. The character behind `dynamic` stays.
def Line.respace (spacing : Spacing) : Line → Line
  | .importing line => .importing (line.respace spacing)
  | .classHeader line => .classHeader (line.respace spacing)
  | .interfaceHeader line => .interfaceHeader (line.respace spacing)
  | .function line => .function (line.respace spacing)
  | .property line => .property (line.respace spacing)

theorem Attributes.words_respace (spacing : Spacing) (attributes : Attributes) :
    (attributes.respace spacing).words = attributes.words := by
  have same : attributes.items.zipIdx.map (fun item => item.1.1.text) =
      (attributes.items.zipIdx.map Prod.fst).map fun item => item.1.text := by
    rw [List.map_map]
    rfl
  rw [List.zipIdx_map_fst] at same
  simpa [Attributes.words, Attributes.respace, Function.comp_def] using same

theorem ClassLine.header_respace (spacing : Spacing) (line : ClassLine) :
    (line.respace spacing).header = line.header := by
  simp [ClassLine.header, ClassLine.respace, BasePart.respace, ListPart.respace, Function.comp_def]

theorem PropertyLine.property_respace (spacing : Spacing) (line : PropertyLine) :
    (line.respace spacing).property = line.property := by
  simp [PropertyLine.property, PropertyLine.respace, Attributes.words_respace]

theorem interfaceHeader?_respace (spacing : Spacing) (line : InterfaceLine) (rest : Text) :
    ∃ found, interfaceHeader? ((line.respace spacing).text ++ rest) = some found ∧
      interfaceHeader? (line.text ++ rest) = some found := by
  obtain ⟨intrinsic, gap, name, base⟩ := line
  simp only [interfaceHeader?_opened, InterfaceLine.respace]
  cases base with
  | none =>
    obtain ⟨type, last, read⟩ := QualifiedName.leading?_extended name rest
    simp only [Option.map_none, Option.elim_none, List.nil_append, read, Option.bind_eq_bind, Option.bind_some]
    exact ⟨_, rfl, rfl⟩
  | some part =>
    -- The gap in front of `extends` ends the name, so only the base can go on into the rest.
    have stops : ∀ part : BasePart, Stops isQualifiedPart (part.text ++ rest) := by
      intro part
      simp only [BasePart.text, List.append_assoc]
      exact part.before.stops_append (fun _ => isQualifiedPart_of_isBlank) _
    obtain ⟨type, last, read⟩ := QualifiedName.leading?_extended part.name rest
    have extended : ∀ other : BasePart, other.name = part.name →
        optional (baseName? QualifiedName.leading?) (other.text ++ rest) = (some type, last) := by
      intro other same
      apply optional_some
      rw [baseName?_opened, same, read]
    simp only [Option.map_some, Option.elim_some, QualifiedName.leading?_spelt name (stops _), extended part rfl,
      extended (part.respace spacing) rfl, Option.bind_eq_bind, Option.bind_some]
    exact ⟨_, rfl, rfl⟩

def FunctionLine.declare (line : FunctionLine) : Signature → Declaration :=
  match line.accessor with
  | none => .method
  | some (word, _) => word.declaration

theorem Declaration.read?_opened (line : FunctionLine) (rest : Text) :
    Declaration.read? (line.text ++ rest) =
      (signature? (Access.ofAttributes line.attributes.words) (line.signatureText ++ rest)).map
        fun (signature, behind) => (line.declare signature, behind) := by
  obtain ⟨noImport, noClass, noInterface⟩ := member_apart (line.starts rest)
  cases accessor : line.accessor with
  | none =>
    simp [read?, readAmong?, Form.order, Form.read?, noImport, noClass, noInterface,
      method?_opened line accessor, signature?_opened, FunctionLine.declare, accessor]
  | some item =>
    simp [read?, readAmong?, Form.order, Form.read?, noImport, noClass, noInterface,
      method?_accessor line rest accessor, accessor?_opened line accessor, signature?_opened, FunctionLine.declare,
      accessor]

theorem Line.starts (line : Line) (rest : Text) : Starts isNamePart (line.text ++ rest) := by
  cases line with
  | importing line => exact ⟨'i', _, rfl, by decide⟩
  | classHeader line => exact line.starts rest
  | interfaceHeader line => exact line.starts rest
  | function line => exact Starts.namePart (line.starts rest)
  | property line => exact Starts.namePart (line.starts rest)

theorem Line.read?_respace (spacing : Spacing) (line : Line) (rest : Text) :
    ∃ found, Declaration.read? ((line.respace spacing).text ++ rest) = some found ∧
      Declaration.read? (line.text ++ rest) = some found := by
  cases line with
  | importing line =>
    exact ⟨_, Declaration.read?_import (line.respace spacing) rest, Declaration.read?_import line rest⟩
  | classHeader line =>
    have respaced := Declaration.read?_class (line.respace spacing) rest
    rw [line.header_respace spacing] at respaced
    exact ⟨_, respaced, Declaration.read?_class line rest⟩
  | interfaceHeader line =>
    obtain ⟨found, respaced, read⟩ := interfaceHeader?_respace spacing line rest
    obtain ⟨noImport, noClass⟩ := line.apart rest
    obtain ⟨noImport', noClass'⟩ := (line.respace spacing).apart rest
    refine ⟨(.interfaceHeader found.1, found.2), ?_, ?_⟩
    · simp [Line.respace, Line.text, Declaration.read?, Declaration.readAmong?, Form.order, Form.read?, noImport',
        noClass', respaced]
    · simp [Line.text, Declaration.read?, Declaration.readAmong?, Form.order, Form.read?, noImport, noClass, read]
  | function line =>
    have respaced := Declaration.read?_opened (line.respace spacing) rest
    have declares : (line.respace spacing).declare = line.declare := by
      obtain ⟨_, _, accessor, _, _, _, _, _⟩ := line
      cases accessor <;> rfl
    have words : (line.respace spacing).attributes.words = line.attributes.words :=
      line.attributes.words_respace spacing
    have signed : (line.respace spacing).signatureText = line.signatureText := rfl
    rw [declares, words, signed, signature?_opened, Option.map_some] at respaced
    refine ⟨_, respaced, ?_⟩
    rw [Line.text, Declaration.read?_opened, signature?_opened, Option.map_some]
  | property line =>
    have respaced := Declaration.read?_property (line.respace spacing) rest
    rw [line.property_respace spacing] at respaced
    exact ⟨_, respaced, Declaration.read?_property line rest⟩

theorem Line.survey_respace (spacing : Spacing) (line : Line) {depth : Int} (outside : depth ≤ 0) (rest : Text) :
    survey depth ((line.respace spacing).text ++ rest) = survey depth (line.text ++ rest) := by
  obtain ⟨⟨declaration, behind⟩, respaced, read⟩ := line.read?_respace spacing rest
  rw [survey_declared outside ((line.respace spacing).starts rest) respaced,
    survey_declared outside (line.starts rest) read]

theorem members_none {text : Text} (unblank : skipBlanks text = text) (wordless : attribute? text = none)
    (noFunction : spaced? "function".toList text = none) (noVar : spaced? "var".toList text = none) :
    method? text = none ∧ accessor? text = none ∧ property? text = none := by
  have bare : attributes text = ([], text) := by simp [attributes, optional_none wordless]
  simp only [method?, accessor?, property?, unblank, bare, noFunction, noVar, Option.bind_eq_bind,
    Option.bind_none, and_self]

theorem Declaration.read?_none {text : Text} (noImport : importing? text = none) (noClass : classHeader? text = none)
    (noInterface : interfaceHeader? text = none)
    (noMember : method? text = none ∧ accessor? text = none ∧ property? text = none) :
    Declaration.read? text = none := by
  obtain ⟨noMethod, noAccessor, noProperty⟩ := noMember
  simp only [Declaration.read?, Declaration.readAmong?, Form.order, List.findSome?_cons, List.findSome?_nil, Form.read?,
    noImport, noClass, noInterface, noMethod, noAccessor, noProperty, Option.map_none]

-- The words that a declaration can begin with, imports apart: `import` needs no blanks behind it.
def openingWords : List Text :=
  ["intrinsic", "dynamic", "class", "interface", "public", "private", "static", "function", "var"].map String.toList

theorem openingWords_spelt : ∀ key ∈ openingWords, ∀ c ∈ key, isNamePart c = true := by
  have all : (openingWords.all fun key => key.all isNamePart) = true := by decide
  intro key member
  exact List.all_eq_true.mp (List.all_eq_true.mp all key member)

section Words

variable {key word rest : Text}

theorem after?_word {left : Text} (keySpelt : ∀ c ∈ key, isNamePart c = true) (stops : Stops isNamePart rest)
    (read : after? key (word ++ rest) = some left) : ∃ more, word = key ++ more ∧ left = more ++ rest := by
  rcases List.append_eq_append_iff.mp (after?_exact.mp read) with ⟨more, longer, back⟩ | ⟨more, shorter, back⟩
  · -- What the key has beyond the word would begin the rest.
    cases more with
    | nil => exact ⟨[], by simpa using longer.symm, by simpa using back.symm⟩
    | cons c more =>
      rw [back] at stops
      have part := keySpelt c (by rw [longer]; simp)
      rw [List.cons_append, stops_cons, part] at stops
      cases stops
  · exact ⟨more, shorter, back⟩

theorem after?_longer {left : Text} (keySpelt : ∀ c ∈ key, isNamePart c = true)
    (spelt : ∀ c ∈ word, isNamePart c = true) (stops : Stops isNamePart rest) (other : word ≠ key)
    (read : after? key (word ++ rest) = some left) : Starts isNamePart left := by
  obtain ⟨more, whole, behind⟩ := after?_word keySpelt stops read
  cases more with
  | nil => exact absurd (by simpa using whole) other
  | cons c more => exact ⟨c, more ++ rest, behind, spelt c (by rw [whole]; simp)⟩

theorem spaced?_word (keySpelt : ∀ c ∈ key, isNamePart c = true) (spelt : ∀ c ∈ word, isNamePart c = true)
    (stops : Stops isNamePart rest) (other : word ≠ key) : spaced? key (word ++ rest) = none := by
  cases read : after? key (word ++ rest) with
  | none => simp [spaced?, read]
  | some left =>
    obtain ⟨c, tail, rfl, part⟩ := after?_longer keySpelt spelt stops other read
    have unblank := isBlank_of_isQualifiedPart (isQualifiedPart_of_isNamePart part)
    simp [spaced?, read, passBlanks?, unblank]

theorem dynamicMark?_word (spelt : ∀ c ∈ word, isNamePart c = true) (stops : Stops isNamePart rest)
    (other : word ≠ "dynamic".toList) : dynamicMark? (word ++ rest) = none := by
  cases read : after? "dynamic".toList (word ++ rest) with
  | none => simp only [dynamicMark?, read, Option.bind_eq_bind, Option.bind_none]
  | some left =>
    obtain ⟨c, tail, rfl, part⟩ := after?_longer (openingWords_spelt _ (by decide)) spelt stops other read
    have unblank := isBlank_of_isQualifiedPart (isQualifiedPart_of_isNamePart part)
    have unsigned : c ≠ '+' := by
      rintro rfl
      exact absurd part (by decide)
    simp only [dynamicMark?, read, Option.bind_eq_bind, Option.bind_some]
    simp [unblank, unsigned]

theorem Declaration.read?_none_of_word (held : word ≠ []) (spelt : ∀ c ∈ word, isNamePart c = true)
    (stops : Stops isNamePart rest) (other : word ∉ openingWords) (foreign : ¬ "import".toList <+: word) :
    Declaration.read? (word ++ rest) = none := by
  have refused : ∀ key ∈ openingWords, spaced? key (word ++ rest) = none := by
    intro key member
    apply spaced?_word (openingWords_spelt key member) spelt stops
    rintro rfl
    exact other member
  have unspaced : skipSpaced "intrinsic".toList (word ++ rest) = word ++ rest :=
    skipSpaced_of_none (refused _ (by decide))
  have noImport : importing? (word ++ rest) = none := by
    cases read : after? "import".toList (word ++ rest) with
    | none => simp only [importing?, read, Option.bind_eq_bind, Option.bind_none]
    | some left =>
      obtain ⟨more, whole, _⟩ := after?_word (List.all_eq_true.mp (by decide)) stops read
      exact absurd ⟨more, whole.symm⟩ foreign
  have noClass : classHeader? (word ++ rest) = none := by
    have unmarked : dynamicMark? (word ++ rest) = none := by
      apply dynamicMark?_word spelt stops
      rintro rfl
      exact other (by decide)
    simp only [classHeader?, unspaced, optional_none unmarked, refused "class".toList (by decide),
      Option.bind_eq_bind, Option.bind_none]
  have noInterface : interfaceHeader? (word ++ rest) = none := by
    simp only [interfaceHeader?, unspaced, refused "interface".toList (by decide), Option.bind_eq_bind,
      Option.bind_none]
  apply Declaration.read?_none noImport noClass noInterface
  apply members_none
  · apply skipBlanks_of_stops
    apply ((starts_of_spelt held spelt).append rest).stops
    exact fun _ part => isBlank_of_isQualifiedPart (isQualifiedPart_of_isNamePart part)
  · simp only [attribute?, attributeWords, List.map_cons, List.map_nil, List.findSome?_cons, List.findSome?_nil,
      refused "public".toList (by decide), refused "private".toList (by decide),
      refused "static".toList (by decide), Option.map_none]
  · exact refused _ (by decide)
  · exact refused _ (by decide)

-- A word goes by letter by letter if neither it nor any of its ends begins a declaration.
theorem survey_word {depth : Int} (outside : depth ≤ 0) (spelt : ∀ c ∈ word, isNamePart c = true)
    (stops : Stops isNamePart rest)
    (foreign : ∀ last ∈ word.tails, last ∉ openingWords ∧ ¬ "import".toList <+: last) :
    survey depth (word ++ rest) = survey depth rest := by
  induction word with
  | nil => rfl
  | cons c word ih =>
    have own := foreign (c :: word) (by simp)
    have refused := Declaration.read?_none_of_word (List.cons_ne_nil c word) spelt stops own.1 own.2
    rw [List.cons_append] at refused ⊢
    rw [survey_passed outside (spelt c List.mem_cons_self) refused]
    apply ih (fun d member => spelt d (List.mem_cons_of_mem c member))
    intro last member
    apply foreign last
    rw [List.tails_cons]
    exact List.mem_cons_of_mem _ member

end Words

def ClassLine.unmarked (line : ClassLine) : ClassLine := { line with intrinsic := none, dynamic := none }

def ClassLine.dynamicText (line : ClassLine) (gap : Gap) : Text :=
  intrinsicText line.intrinsic ++ ("dynamic".toList ++ (gap.text ++ line.unmarked.text))

theorem Gap.spread_parts {gap : Gap} (spread : gap.text.length ≠ 1) : ∃ first second more,
    gap.text = first :: second :: more ∧ isBlank first = true ∧ isBlank second = true := by
  obtain ⟨⟨text, blank⟩, held⟩ := gap
  cases text with
  | nil => exact absurd rfl held
  | cons first text =>
    cases text with
    | nil => exact absurd rfl spread
    | cons second more => exact ⟨first, second, more, rfl, blank first (by simp), blank second (by simp)⟩

theorem skipSpaced_dynamic (intrinsic : Option Gap) (rest : Text) :
    skipSpaced "intrinsic".toList (intrinsicText intrinsic ++ ("dynamic".toList ++ rest)) =
      "dynamic".toList ++ rest :=
  skipSpaced_intrinsic intrinsic _ (by simp [spaced?, after?]) (stops_cons.mpr rfl)

-- One blank is taken with `dynamic`; another one keeps `class` from following it.
theorem classHeader?_spread (intrinsic : Option Gap) {gap : Gap} (spread : gap.text.length ≠ 1) (rest : Text) :
    classHeader? (intrinsicText intrinsic ++ ("dynamic".toList ++ (gap.text ++ rest))) = none := by
  obtain ⟨first, second, more, parts, blank, later⟩ := Gap.spread_parts spread
  have mark : dynamicMark? ("dynamic".toList ++ (gap.text ++ rest)) = some ((), second :: (more ++ rest)) := by
    rw [parts]
    exact dynamicMark?_written ⟨first, by simp [blank]⟩ (second :: (more ++ rest))
  have other : 'c' ≠ second := by
    rintro rfl
    exact absurd later (by decide)
  have refused : spaced? "class".toList (second :: (more ++ rest)) = none := spaced?_none_of_head other
  simp only [classHeader?, skipSpaced_dynamic, optional_some mark, refused, Option.bind_eq_bind, Option.bind_none]

theorem members_none_of_head {c : Char} {tail : Text} (unblank : isBlank c = false)
    (other : isMemberInitial c = false) :
    method? (c :: tail) = none ∧ accessor? (c :: tail) = none ∧ property? (c :: tail) = none := by
  have apart : ∀ letter, isMemberInitial letter = true → letter ≠ c := by
    rintro letter initial rfl
    rw [other] at initial
    cases initial
  apply members_none
  · exact skipBlanks_of_stops (stops_cons.mpr unblank)
  · exact attribute?_none_of_head (apart 'p' rfl) (apart 's' rfl)
  · exact spaced?_none_of_head (apart 'f' rfl)
  · exact spaced?_none_of_head (apart 'v' rfl)

theorem Declaration.read?_spread (intrinsic : Option Gap) {gap : Gap} (spread : gap.text.length ≠ 1) (rest : Text) :
    Declaration.read? (intrinsicText intrinsic ++ ("dynamic".toList ++ (gap.text ++ rest))) = none := by
  apply Declaration.read?_none
  · cases intrinsic with
    | none => exact importing?_none_of_stops (stops_cons.mpr rfl)
    | some space => exact importing?_none_of_intrinsic _
  · exact classHeader?_spread intrinsic spread rest
  · rw [interfaceHeader?, skipSpaced_dynamic]
    simp [spaced?, after?]
  · cases intrinsic with
    | none => exact members_none_of_head rfl rfl
    | some space => exact members_none_of_head rfl rfl

theorem survey_gap (depth : Int) (gap : Gap) (rest : Text) : survey depth (gap.text ++ rest) = survey depth rest := by
  rw [← survey_skipBlanks depth (gap.text ++ rest), skipBlanks_blanks, survey_skipBlanks]

-- Nothing begins at `dynamic` or at `intrinsic`, nor inside of them, and the header starts with `class`.
theorem survey_spread (intrinsic : Option Gap) {gap : Gap} (spread : gap.text.length ≠ 1) {depth : Int}
    (outside : depth ≤ 0) (rest : Text) :
    survey depth (intrinsicText intrinsic ++ ("dynamic".toList ++ (gap.text ++ rest))) = survey depth rest := by
  have ends : ∀ (gap : Gap) (rest : Text), Stops isNamePart (gap.text ++ rest) :=
    fun gap => gap.stops_append fun _ => isNamePart_of_isBlank
  have marked : survey depth ("dynamic".toList ++ (gap.text ++ rest)) = survey depth rest := by
    have later : survey depth ("ynamic".toList ++ (gap.text ++ rest)) = survey depth (gap.text ++ rest) :=
      survey_word outside (List.all_eq_true.mp (by decide)) (ends gap rest) (by decide)
    have refused := Declaration.read?_spread none spread rest
    exact (survey_passed outside (by decide) refused).trans (later.trans (survey_gap depth gap rest))
  cases intrinsic with
  | none => exact marked
  | some space =>
    have later : survey depth ("ntrinsic".toList ++ (space.text ++ ("dynamic".toList ++ (gap.text ++ rest)))) =
        survey depth (space.text ++ ("dynamic".toList ++ (gap.text ++ rest))) :=
      survey_word outside (List.all_eq_true.mp (by decide)) (ends space _) (by decide)
    have refused := Declaration.read?_spread (some space) spread rest
    rw [intrinsicText, Option.elim_some, List.append_assoc] at refused ⊢
    exact (survey_passed outside (by decide) refused).trans (later.trans ((survey_gap depth space _).trans marked))

theorem ClassLine.survey_dynamicText (line : ClassLine) (gap : Gap) {depth : Int} (outside : depth ≤ 0) (rest : Text) :
    survey depth (line.dynamicText gap ++ rest) = (survey depth rest).behind
      [.classHeader { line.header with isDynamic := decide (gap.text.length = 1) }] := by
  by_cases single : gap.text.length = 1
  · obtain ⟨sign, alone⟩ := List.length_eq_one_iff.mp single
    have blank : isBlank sign = true := gap.blank sign (by rw [alone]; exact List.mem_cons_self)
    have written : line.dynamicText gap = { line with dynamic := some ⟨sign, by simp [blank]⟩ : ClassLine }.text := by
      simp [ClassLine.dynamicText, ClassLine.unmarked, ClassLine.text, Intrinsics.dynamicText, alone, intrinsicText]
    rw [written, ClassLine.passes _ outside rest, decide_eq_true single]
    rfl
  · have spread := survey_spread line.intrinsic single outside (line.unmarked.text ++ rest)
    simp only [ClassLine.dynamicText, List.append_assoc]
    rw [spread, line.unmarked.passes outside rest, decide_eq_false single]
    rfl

-- Whatever blanks stand between the words of a declaration, a scan shows the same. Between
-- `dynamic` and `class` this holds of single blanks only: with more of them the class is shown
-- as if it were not dynamic.
theorem declarations_respaced (rest : Text) :
    (∀ (line : Line) (spacing : Spacing),
      declarations ((line.respace spacing).text ++ rest) = declarations (line.text ++ rest)) ∧
    (∀ (line : ClassLine) (gap : Gap), declarations (line.dynamicText gap ++ rest) =
      .classHeader { line.header with isDynamic := decide (gap.text.length = 1) } :: declarations rest) := by
  constructor
  · intro line spacing
    simp only [declarations_eq_survey]
    rw [line.survey_respace spacing (Int.le_refl 0) rest]
  · intro line gap
    simp only [declarations_eq_survey]
    rw [line.survey_dynamicText gap (Int.le_refl 0) rest]
    rfl

def shortHeader : ClassLine :=
  ⟨none, none, .space, (PlainName.single 'C' (by decide)).unpackaged, none, none, .empty⟩

def Gap.double : Gap := ⟨⟨[' ', ' '], List.all_eq_true.mp (by decide)⟩, List.cons_ne_nil _ _⟩

theorem dynamic_blanks_counted :
    shortHeader.dynamicText .space = "dynamic class C\x7b".toList ∧
      shortHeader.dynamicText .double = "dynamic  class C\x7b".toList ∧
      declarations (shortHeader.dynamicText .double) ≠ declarations (shortHeader.dynamicText .space) := by
  have shown : ∀ gap, declarations (shortHeader.dynamicText gap) =
      [.classHeader { shortHeader.header with isDynamic := decide (gap.text.length = 1) }] := by
    intro gap
    have sight := shortHeader.survey_dynamicText gap (Int.le_refl 0) []
    rw [List.append_nil] at sight
    rw [declarations_eq_survey, sight, survey_nil]
    rfl
  refine ⟨rfl, rfl, ?_⟩
  rw [shown, shown]
  decide

end Intrinsics
