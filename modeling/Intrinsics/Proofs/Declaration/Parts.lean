import Intrinsics.Proofs.Text.Runs

namespace Intrinsics
open Text

-- The parts of a declaration as they are written, blanks included. A part carries what
-- makes it one; its reader takes it whole, wherever the text behind it does not go on with it.

def Blanks.empty : Blanks := ⟨[], by simp⟩

def Gap.space : Gap := ⟨⟨[' '], List.forall_mem_singleton.mpr (by decide)⟩, List.cons_ne_nil _ _⟩

def PlainName.single (c : Char) (part : isNamePart c = true) : PlainName :=
  ⟨[c], List.cons_ne_nil _ _, List.forall_mem_singleton.mpr part⟩

def PlainName.unpackaged (name : PlainName) : SpeltName := ⟨⟨[], name.text⟩, by simp, name.held, name.spelt⟩

theorem Blanks.stops_append {class? : Char → Bool} (blanks : Blanks) {rest : Text}
    (apart : ∀ c, isBlank c = true → class? c = false) (stops : Stops class? rest) :
    Stops class? (blanks.text ++ rest) := by
  obtain ⟨text, blank⟩ := blanks
  cases text with
  | nil => exact stops
  | cons c tail => exact stops_cons.mpr (apart c (blank c List.mem_cons_self))

theorem Gap.stops_append {class? : Char → Bool} (gap : Gap)
    (apart : ∀ c, isBlank c = true → class? c = false) (rest : Text) : Stops class? (gap.text ++ rest) :=
  ((starts_of_spelt gap.held gap.blank).append rest).stops apart

theorem isQualifiedPart_of_isBlank {c : Char} (blank : isBlank c = true) : isQualifiedPart c = false := by
  cases part : isQualifiedPart c with
  | false => rfl
  | true =>
    rw [isBlank_of_isQualifiedPart part] at blank
    cases blank

theorem isNamePart_of_isBlank {c : Char} (blank : isBlank c = true) : isNamePart c = false := by
  cases part : isNamePart c with
  | false => rfl
  | true =>
    have := isQualifiedPart_of_isNamePart part
    rw [isQualifiedPart_of_isBlank blank] at this
    cases this

theorem PlainName.starts (name : PlainName) : Starts isNamePart name.text :=
  starts_of_spelt name.held name.spelt

theorem SpeltName.starts (name : SpeltName) : Starts isQualifiedPart name.text := by
  apply starts_of_spelt _ name.text_spelt
  intro empty
  have named := name.ofRun?_text
  rw [empty] at named
  cases named

theorem PlainName.skipBlanks_append (name : PlainName) (rest : Text) :
    skipBlanks (name.text ++ rest) = name.text ++ rest :=
  skipBlanks_of_stops ((name.starts.append rest).stops fun _ part =>
    isBlank_of_isQualifiedPart (isQualifiedPart_of_isNamePart part))

theorem SpeltName.skipBlanks_append (name : SpeltName) (rest : Text) :
    skipBlanks (name.text ++ rest) = name.text ++ rest :=
  skipBlanks_of_stops ((name.starts.append rest).stops fun _ => isBlank_of_isQualifiedPart)

theorem passBlanks?_eq_skipBlanks {text rest : Text} (read : passBlanks? text = some rest) :
    rest = skipBlanks text := by
  obtain ⟨gap, whole, stops⟩ := passBlanks?_parts read
  rw [whole, skipBlanks_blanks, skipBlanks_of_stops stops]

-- A keyword behind blanks is missing where the blanks end with another letter.
theorem passBlanks?_spaced?_none {letter : Char} {word text : Text}
    (other : Stops (· == letter) (skipBlanks text)) :
    (passBlanks? text).bind (spaced? (letter :: word)) = none := by
  cases read : passBlanks? text with
  | none => rfl
  | some rest =>
    rw [← passBlanks?_eq_skipBlanks read] at other
    simp [spaced?, after?_none_of_stops other]

inductive AttributeWord where
  | exposed | hidden | fixed

def AttributeWord.text : AttributeWord → Text
  | .exposed => "public".toList
  | .hidden => "private".toList
  | .fixed => "static".toList

structure Attributes where
  items : List (AttributeWord × Gap)
  few : items.length ≤ 2

namespace Attributes

def text (attributes : Attributes) : Text := attributes.items.flatMap fun item => item.1.text ++ item.2.text

def words (attributes : Attributes) : List Text := attributes.items.map fun item => item.1.text

end Attributes

theorem attribute?_written (word : AttributeWord) (gap : Gap) (rest : Text) :
    attribute? (word.text ++ (gap.text ++ rest)) = some (word.text, skipBlanks rest) := by
  have read := spaced?_gap word.text gap rest
  cases word with
  | exposed =>
    change spaced? "public".toList ("public".toList ++ (gap.text ++ rest)) = _ at read
    change attribute? ("public".toList ++ (gap.text ++ rest)) = some ("public".toList, _)
    simp only [attribute?, attributeWords, List.map_cons, List.findSome?_cons, read, Option.map_some]
  | hidden =>
    have noPublic : spaced? "public".toList ("private".toList ++ (gap.text ++ rest)) = none := rfl
    change spaced? "private".toList ("private".toList ++ (gap.text ++ rest)) = _ at read
    change attribute? ("private".toList ++ (gap.text ++ rest)) = some ("private".toList, _)
    simp only [attribute?, attributeWords, List.map_cons, List.findSome?_cons, noPublic, read, Option.map_some,
      Option.map_none]
  | fixed =>
    have noPublic : spaced? "public".toList ("static".toList ++ (gap.text ++ rest)) = none := rfl
    have noPrivate : spaced? "private".toList ("static".toList ++ (gap.text ++ rest)) = none := rfl
    change spaced? "static".toList ("static".toList ++ (gap.text ++ rest)) = _ at read
    change attribute? ("static".toList ++ (gap.text ++ rest)) = some ("static".toList, _)
    simp only [attribute?, attributeWords, List.map_cons, List.findSome?_cons, noPublic, noPrivate, read,
      Option.map_some, Option.map_none]

theorem attribute?_none_of_head {c : Char} {text : Text} (first : 'p' ≠ c) (second : 's' ≠ c) :
    attribute? (c :: text) = none := by
  simp [attribute?, attributeWords, spaced?_none_of_head first, spaced?_none_of_head second]

theorem attributes_written (written : Attributes) {rest : Text} (bare : attribute? rest = none)
    (stops : Stops isBlank rest) : attributes (written.text ++ rest) = (written.words, rest) := by
  obtain ⟨items, few⟩ := written
  match items, few with
  | [], _ => simp [Attributes.text, Attributes.words, attributes, optional_none bare]
  | [(word, gap)], _ =>
    have first := attribute?_written word gap rest
    rw [skipBlanks_of_stops stops] at first
    simp [Attributes.text, Attributes.words, attributes, optional_some first, optional_none bare]
  | [(word, gap), (second, space)], _ =>
    have later := attribute?_written second space rest
    rw [skipBlanks_of_stops stops] at later
    have starts : Stops isBlank (second.text ++ (space.text ++ rest)) := by
      cases second <;> exact stops_cons.mpr rfl
    have first := attribute?_written word gap (second.text ++ (space.text ++ rest))
    rw [skipBlanks_of_stops starts] at first
    simp [Attributes.text, Attributes.words, attributes, optional_some first, optional_some later]

structure TypePart where
  before : Blanks
  behind : Blanks
  name : SpeltName

def TypePart.text (part : TypePart) : Text :=
  part.before.text ++ (":".toList ++ (part.behind.text ++ part.name.text))

theorem typeMark?_written {name? : Text → Option (QualifiedName × Text)} (part : TypePart) {rest : Text}
    (reads : name? (part.name.text ++ rest) = some (part.name.value, rest)) :
    typeMark? name? (part.text ++ rest) = some (part.name.value, rest) := by
  have colon : skipBlanks (":".toList ++ (part.behind.text ++ (part.name.text ++ rest))) =
      ":".toList ++ (part.behind.text ++ (part.name.text ++ rest)) :=
    skipBlanks_of_stops (stops_cons.mpr rfl)
  simp only [typeMark?, TypePart.text, List.append_assoc, skipBlanks_blanks, colon, after?_append,
    Option.bind_eq_bind, Option.bind_some, part.name.skipBlanks_append, reads]

theorem typeMark?_none {name? : Text → Option (QualifiedName × Text)} {rest : Text}
    (other : Stops (· == ':') (skipBlanks rest)) : typeMark? name? rest = none := by
  have missing : after? ":".toList (skipBlanks rest) = none := after?_none_of_stops other
  simp only [typeMark?, missing, Option.bind_eq_bind, Option.bind_none]

theorem optional_typeMark? {name? : Text → Option (QualifiedName × Text)} (part : Option TypePart) {rest : Text}
    (reads : ∀ name : SpeltName, name? (name.text ++ rest) = some (name.value, rest))
    (other : Stops (· == ':') (skipBlanks rest)) :
    optional (typeMark? name?) (part.elim [] TypePart.text ++ rest) = (part.map (·.name.value), rest) := by
  cases part with
  | none => exact optional_none (typeMark?_none other)
  | some part => exact optional_some (typeMark?_written part (reads part.name))

theorem TypePart.stops_append {class? : Char → Bool} (part : Option TypePart) {rest : Text}
    (apart : ∀ c, isBlank c = true → class? c = false) (colon : class? ':' = false) (stops : Stops class? rest) :
    Stops class? (part.elim [] TypePart.text ++ rest) := by
  cases part with
  | none => exact stops
  | some part =>
    simp only [Option.elim_some, TypePart.text, List.append_assoc]
    exact part.before.stops_append apart (stops_cons.mpr colon)

structure BasePart where
  before : Gap
  behind : Gap
  name : SpeltName

def BasePart.text (part : BasePart) : Text :=
  part.before.text ++ ("extends".toList ++ (part.behind.text ++ part.name.text))

theorem baseName?_opened (name? : Text → Option (QualifiedName × Text)) (part : BasePart) (rest : Text) :
    baseName? name? (part.text ++ rest) = name? (part.name.text ++ rest) := by
  have word : skipBlanks ("extends".toList ++ (part.behind.text ++ (part.name.text ++ rest))) =
      "extends".toList ++ (part.behind.text ++ (part.name.text ++ rest)) :=
    skipBlanks_of_stops (stops_cons.mpr rfl)
  simp only [baseName?, BasePart.text, List.append_assoc, passBlanks?_gap, word, spaced?_gap,
    Option.bind_eq_bind, Option.bind_some, part.name.skipBlanks_append]

theorem baseName?_none {name? : Text → Option (QualifiedName × Text)} {rest : Text}
    (other : Stops (· == 'e') (skipBlanks rest)) : baseName? name? rest = none := by
  have missing : (passBlanks? rest).bind (spaced? "extends".toList) = none := passBlanks?_spaced?_none other
  simp only [baseName?, Option.bind_eq_bind, ← Option.bind_assoc, missing, Option.bind_none]

theorem optional_baseName? {name? : Text → Option (QualifiedName × Text)} (part : Option BasePart) {rest : Text}
    (reads : ∀ name : SpeltName, name? (name.text ++ rest) = some (name.value, rest))
    (other : Stops (· == 'e') (skipBlanks rest)) :
    optional (baseName? name?) (part.elim [] BasePart.text ++ rest) = (part.map (·.name.value), rest) := by
  cases part with
  | none => exact optional_none (baseName?_none other)
  | some part => exact optional_some ((baseName?_opened name? part rest).trans (reads part.name))

theorem BasePart.stops_append (part : Option BasePart) {rest : Text} (stops : Stops isQualifiedPart rest) :
    Stops isQualifiedPart (part.elim [] BasePart.text ++ rest) := by
  cases part with
  | none => exact stops
  | some part =>
    simp only [Option.elim_some, BasePart.text, List.append_assoc]
    exact part.before.stops_append (fun _ => isQualifiedPart_of_isBlank) _

-- Names with blanks and commas between them, as the list behind `implements` allows them: a
-- comma needs a name in front of it that no other comma follows.
inductive Listed : Bool → Text → Prop where
  | nil : Listed commaAllowed []
  | part : isQualifiedPart c = true → Listed true text → Listed commaAllowed (c :: text)
  | blank : isBlank c = true → Listed commaAllowed text → Listed commaAllowed (c :: text)
  | comma : Listed false text → Listed true (',' :: text)

theorem interfaceList_written {commaAllowed : Bool} {text : Text} (listed : Listed commaAllowed text)
    (blanks : Blanks) (rest : Text) :
    interfaceList commaAllowed (text ++ (blanks.text ++ '\x7b' :: rest)) =
      (text ++ blanks.text, '\x7b' :: rest) := by
  induction listed with
  | nil =>
    obtain ⟨blank, held⟩ := blanks
    simp only [List.nil_append]
    induction blank with
    | nil => simp [interfaceList, show isQualifiedPart '\x7b' = false by decide,
        show isBlank '\x7b' = false by decide]
    | cons c tail ih =>
      have first := held c List.mem_cons_self
      simp [interfaceList, isQualifiedPart_of_isBlank first, first,
        ih fun d member => held d (List.mem_cons_of_mem _ member)]
  | part held _ ih => simp [interfaceList, held, ih]
  | blank held _ ih => simp [interfaceList, isQualifiedPart_of_isBlank held, held, ih]
  | comma _ ih =>
    simp [interfaceList, show isQualifiedPart ',' = false by decide, show isBlank ',' = false by decide, ih]

structure InterfaceText where
  text : Text
  held : text ≠ []
  listed : Listed false text
  first : Stops isBlank text
  last : Stops isBlank text.reverse

theorem InterfaceText.trim_append (list : InterfaceText) (blanks : Blanks) :
    trim (list.text ++ blanks.text) = list.text := by
  have reversed : ∀ c ∈ blanks.text.reverse, isBlank c = true := by
    intro c member
    exact blanks.blank c (List.mem_reverse.mp member)
  have begins : Stops isBlank (list.text ++ blanks.text) := by
    obtain ⟨text, held, _, first, _⟩ := list
    cases text with
    | nil => exact absurd rfl held
    | cons c tail => exact stops_cons.mpr (stops_cons.mp first)
  rw [trim, skipBlanks_of_stops begins, List.reverse_append,
    dropWhile_run reversed list.last, List.reverse_reverse]

structure ListPart where
  before : Gap
  behind : Gap
  list : InterfaceText

def ListPart.text (part : ListPart) : Text :=
  part.before.text ++ ("implements".toList ++ (part.behind.text ++ part.list.text))

theorem interfaces?_written (part : ListPart) (blanks : Blanks) (rest : Text) :
    interfaces? (part.text ++ (blanks.text ++ '\x7b' :: rest)) = some (part.list.text, '\x7b' :: rest) := by
  obtain ⟨before, behind, list⟩ := part
  have word : skipBlanks ("implements".toList ++ (behind.text ++ (list.text ++ (blanks.text ++ '\x7b' :: rest)))) =
      "implements".toList ++ (behind.text ++ (list.text ++ (blanks.text ++ '\x7b' :: rest))) :=
    skipBlanks_of_stops (stops_cons.mpr rfl)
  have trimmed := list.trim_append blanks
  have taken := interfaceList_written list.listed blanks rest
  cases shape : list.text with
  | nil => exact absurd shape list.held
  | cons c tail =>
    have first := list.first
    rw [shape] at first word taken trimmed
    have begins : skipBlanks (c :: tail ++ (blanks.text ++ '\x7b' :: rest)) =
        c :: tail ++ (blanks.text ++ '\x7b' :: rest) :=
      skipBlanks_of_stops (stops_cons.mpr (stops_cons.mp first))
    simp only [interfaces?, ListPart.text, List.append_assoc, shape, passBlanks?_gap, word, spaced?_gap,
      Option.bind_eq_bind, Option.bind_some, begins, taken]
    exact congrArg (fun list => some (list, '\x7b' :: rest)) trimmed

theorem interfaces?_none {rest : Text} (other : Stops (· == 'i') (skipBlanks rest)) : interfaces? rest = none := by
  have missing : (passBlanks? rest).bind (spaced? "implements".toList) = none := passBlanks?_spaced?_none other
  simp only [interfaces?, Option.bind_eq_bind, ← Option.bind_assoc, missing, Option.bind_none]

theorem ListPart.stops_append (part : Option ListPart) {rest : Text} (stops : Stops isQualifiedPart rest) :
    Stops isQualifiedPart (part.elim [] ListPart.text ++ rest) := by
  cases part with
  | none => exact stops
  | some part =>
    simp only [Option.elim_some, ListPart.text, List.append_assoc]
    exact part.before.stops_append (fun _ => isQualifiedPart_of_isBlank) _

end Intrinsics
