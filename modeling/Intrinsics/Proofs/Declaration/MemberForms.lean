import Intrinsics.Proofs.Declaration.Origins
import Intrinsics.Proofs.Declaration.TypeNames

namespace Intrinsics
open Text

-- Functions and variables as grammars, over every text. A function ends behind its parameters or
-- behind a result; a colon that no type follows is not part of it.

def AttributeWord.isHidden : AttributeWord → Bool
  | .hidden => true
  | _ => false

def AttributeWord.isFixed : AttributeWord → Bool
  | .fixed => true
  | _ => false

def Attributes.access (attributes : Attributes) : Access :=
  ⟨if attributes.items.any (·.1.isHidden) then .hidden else .exposed, attributes.items.any (·.1.isFixed)⟩

theorem Attributes.contains_words {text : Text} {holds : AttributeWord → Bool}
    (own : ∀ word : AttributeWord, (text == word.text) = holds word) (attributes : Attributes) :
    attributes.words.contains text = attributes.items.any fun item => holds item.1 := by
  rw [Attributes.words, List.contains_eq_any_beq, List.any_map]
  apply congrArg (List.any attributes.items)
  funext item
  exact own item.1

theorem Attributes.access_words (attributes : Attributes) :
    Access.ofAttributes attributes.words = attributes.access := by
  have hidden : attributes.words.contains Visibility.hidden.word = attributes.items.any (·.1.isHidden) := by
    apply attributes.contains_words
    intro word
    cases word <;> rfl
  have fixed : attributes.words.contains "static".toList = attributes.items.any (·.1.isFixed) := by
    apply attributes.contains_words
    intro word
    cases word <;> rfl
  rw [Access.ofAttributes, Visibility.ofAttributes, hidden, fixed, Attributes.access]

structure Annotated (text run tail : Text) : Prop where
  marked : ∃ before behind : Blanks, text = before.text ++ (":".toList ++ (behind.text ++ (run ++ tail)))
  spelt : ∀ c ∈ run, isQualifiedPart c = true
  maximal : Stops isQualifiedPart tail
  begins : Stops isBlank (run ++ tail)

inductive ReturnType (text : Text) : Option QualifiedName → Text → Prop where
  | typed {run tail : Text} {type : QualifiedName} (annotated : Annotated text run tail)
      (named : NamesType (dropTrailing '.' run)) (whole : type.text = dropTrailing '.' run) (free : '.' ∉ type.name) :
      ReturnType text (some type) (skipBlanks (run.drop (dropTrailing '.' run).length ++ tail))
  | untyped (unnamed : ∀ run tail, Annotated text run tail → ¬ NamesType (dropTrailing '.' run)) :
      ReturnType text none (skipBlanks text)

theorem Annotated.typeMark?_eq {text run tail : Text} (annotated : Annotated text run tail) :
    typeMark? QualifiedName.leading? text = QualifiedName.leading? (run ++ tail) := by
  obtain ⟨before, behind, whole⟩ := annotated.marked
  have colon : skipBlanks (":".toList ++ (behind.text ++ (run ++ tail))) =
      ":".toList ++ (behind.text ++ (run ++ tail)) := skipBlanks_of_stops (stops_cons.mpr rfl)
  rw [whole, typeMark?]
  simp only [skipBlanks_blanks, colon, after?_append, Option.bind_eq_bind, Option.bind_some,
    skipBlanks_of_stops annotated.begins]

theorem typeMark?_annotated {name? : Text → Option (QualifiedName × Text)} {text last : Text} {type : QualifiedName}
    (read : typeMark? name? text = some (type, last)) : ∃ run tail, Annotated text run tail := by
  simp only [typeMark?, Option.bind_eq_bind, Option.bind_eq_some_iff] at read
  obtain ⟨first, colon, _⟩ := read
  obtain ⟨before, front⟩ := skipBlanks_parts text
  obtain ⟨behind, back⟩ := skipBlanks_parts first
  have cut : skipBlanks first = (skipBlanks first).takeWhile isQualifiedPart ++
      (skipBlanks first).dropWhile isQualifiedPart := List.takeWhile_append_dropWhile.symm
  refine ⟨(skipBlanks first).takeWhile isQualifiedPart, (skipBlanks first).dropWhile isQualifiedPart,
    ⟨before, behind, ?_⟩, fun _ => List.mem_takeWhile_imp, stops_dropWhile isQualifiedPart _, ?_⟩
  · rw [← cut, ← back, ← after?_exact.mp colon]
    exact front
  · rw [← cut]
    exact skipBlanks_stops first

theorem returnType_exact {text last : Text} {result : Option QualifiedName} :
    ReturnType text result last ↔ resultAt text = (result, last) := by
  constructor
  · intro returned
    cases returned with
    | typed annotated named whole free =>
      have read := (QualifiedName.leading?_run annotated.spelt annotated.maximal).mpr ⟨⟨named, whole, free⟩, rfl⟩
      rw [← annotated.typeMark?_eq] at read
      rw [resultAt, optional_some read]
    | untyped unnamed =>
      have refused : typeMark? QualifiedName.leading? text = none := by
        cases read : typeMark? QualifiedName.leading? text with
        | none => rfl
        | some found =>
          obtain ⟨run, tail, annotated⟩ := typeMark?_annotated read
          rw [annotated.typeMark?_eq] at read
          obtain ⟨⟨named, _⟩, _⟩ := (QualifiedName.leading?_run annotated.spelt annotated.maximal).mp read
          exact absurd named (unnamed run tail annotated)
      rw [resultAt, optional_none refused]
  · intro read
    cases found : typeMark? QualifiedName.leading? text with
    | none =>
      rw [resultAt, optional_none found] at read
      cases read
      apply ReturnType.untyped
      intro run tail annotated named
      obtain ⟨type, cut⟩ := QualifiedName.ofRun?_names named (dropTrailing_last '.' run)
      obtain ⟨named, whole, free⟩ := QualifiedName.ofRun?_dropTrailing.mp cut
      have taken := (QualifiedName.leading?_run annotated.spelt annotated.maximal).mpr ⟨⟨named, whole, free⟩, rfl⟩
      rw [← annotated.typeMark?_eq, found] at taken
      cases taken
    | some taken =>
      obtain ⟨type, behind⟩ := taken
      rw [resultAt, optional_some found] at read
      cases read
      obtain ⟨run, tail, annotated⟩ := typeMark?_annotated found
      rw [annotated.typeMark?_eq] at found
      obtain ⟨⟨named, whole, free⟩, rest⟩ := (QualifiedName.leading?_run annotated.spelt annotated.maximal).mp found
      rw [rest]
      exact .typed annotated named whole free

structure FunctionHead where
  attributes : Attributes
  gap : Gap
  name : PlainName
  blanks : Blanks
  params : Text
  enclosed : ')' ∉ params

namespace FunctionHead

def line (head : FunctionHead) (accessor : Option (AccessorWord × Gap)) : FunctionLine :=
  ⟨head.attributes, head.gap, accessor, head.name, head.blanks, head.params, head.enclosed, none⟩

def methodText (head : FunctionHead) : Text := (head.line none).text

def accessorText (head : FunctionHead) (word : AccessorWord) (space : Gap) : Text :=
  (head.line (some (word, space))).text

def signature (head : FunctionHead) (result : Option QualifiedName) : Signature :=
  ⟨head.attributes.access, head.name.text, head.params, result⟩

end FunctionHead

theorem method?_blanks (front : Blanks) (text : Text) : method? (front.text ++ text) = method? text := by
  rw [method?, skipBlanks_blanks]
  rfl

theorem FunctionHead.read_method (front : Blanks) (head : FunctionHead) (rest : Text) :
    Form.method.read? (front.text ++ (head.methodText ++ rest)) =
      some (.method (head.signature (resultAt rest).1), (resultAt rest).2) := by
  have opened := method?_opened (head.line none) rfl rest
  rw [signature?_opened, Attributes.access_words] at opened
  simp only [Form.read?, method?_blanks, FunctionHead.methodText, opened, Option.map_some]
  rfl

theorem FunctionHead.read_accessor (head : FunctionHead) (word : AccessorWord) (space : Gap) (rest : Text) :
    Form.accessor.read? (head.accessorText word space ++ rest) =
      some (word.declaration (head.signature (resultAt rest).1), (resultAt rest).2) := by
  have opened := accessor?_opened (head.line (some (word, space))) rfl rest
  rw [signature?_opened, Attributes.access_words] at opened
  simp only [Form.read?, FunctionHead.accessorText, opened, Option.map_some]
  rfl

def FunctionLine.head (line : FunctionLine) : FunctionHead :=
  ⟨line.attributes, line.gap, line.name, line.blanks, line.params, line.enclosed⟩

theorem FunctionLine.text_head (line : FunctionLine) :
    line.text = (line.head.line line.accessor).text ++ line.result.elim [] TypePart.text := by
  simp [FunctionLine.text, FunctionLine.head, FunctionHead.line, FunctionLine.signatureText]

theorem method_headed {text last : Text} {declaration : Declaration}
    (read : Form.method.read? text = some (declaration, last)) :
    ∃ (front : Blanks) (head : FunctionHead) (rest : Text), text = front.text ++ (head.methodText ++ rest) := by
  obtain ⟨⟨signature, _⟩, found, same⟩ := Option.map_eq_some_iff.mp read
  cases same
  obtain ⟨front, line, back, declared, whole⟩ := method?_parts found
  have plain : line.accessor = none := by
    unfold FunctionLine.declaration at declared
    split at declared
    · assumption
    · cases declared
    · cases declared
  refine ⟨front, line.head, line.result.elim [] TypePart.text ++ (back.text ++ last), ?_⟩
  rw [whole, line.text_head, plain, FunctionHead.methodText, List.append_assoc]

theorem accessor?_worded {text last : Text} {declaration : Declaration}
    (read : accessor? text = some (declaration, last)) :
    ∃ (word : AccessorWord) (signature : Signature), declaration = word.declaration signature := by
  simp only [accessor?, Option.bind_eq_bind, Option.bind_eq_some_iff] at read
  obtain ⟨first, _, found⟩ := read
  split at found
  · obtain ⟨⟨signature, _⟩, _, same⟩ := Option.map_eq_some_iff.mp found
    cases same
    exact ⟨.get, signature, rfl⟩
  · obtain ⟨_, _, found⟩ := Option.bind_eq_some_iff.mp found
    obtain ⟨⟨signature, _⟩, _, same⟩ := Option.map_eq_some_iff.mp found
    cases same
    exact ⟨.set, signature, rfl⟩

theorem accessor_headed {text last : Text} {declaration : Declaration}
    (read : Form.accessor.read? text = some (declaration, last)) :
    ∃ (head : FunctionHead) (word : AccessorWord) (space : Gap) (rest : Text),
      text = head.accessorText word space ++ rest := by
  obtain ⟨line, back, declared, whole⟩ := accessor?_parts read
  obtain ⟨word, signature, same⟩ := accessor?_worded read
  rw [same] at declared
  cases accessor : line.accessor with
  | none =>
    unfold FunctionLine.declaration at declared
    rw [accessor] at declared
    cases word <;> cases declared
  | some item =>
    refine ⟨line.head, item.1, item.2, line.result.elim [] TypePart.text ++ (back.text ++ last), ?_⟩
    rw [whole, line.text_head, accessor, FunctionHead.accessorText, List.append_assoc]

-- A method and an accessor show what is written: name, parameters, attributes and, where the text
-- behind the parenthesis has one, the result. Only a method may have blanks in front of it.
theorem function_exact (text : Text) :
    ((Form.method.read? text).isSome ↔
      ∃ (front : Blanks) (head : FunctionHead) (rest : Text), text = front.text ++ (head.methodText ++ rest)) ∧
    (∀ declaration last, Form.method.read? text = some (declaration, last) ↔
      ∃ (front : Blanks) (head : FunctionHead) (rest : Text) (result : Option QualifiedName),
        text = front.text ++ (head.methodText ++ rest) ∧ ReturnType rest result last ∧
          declaration = .method (head.signature result)) ∧
    ((Form.accessor.read? text).isSome ↔
      ∃ (head : FunctionHead) (word : AccessorWord) (space : Gap) (rest : Text),
        text = head.accessorText word space ++ rest) ∧
    (∀ declaration last, Form.accessor.read? text = some (declaration, last) ↔
      ∃ (head : FunctionHead) (word : AccessorWord) (space : Gap) (rest : Text) (result : Option QualifiedName),
        text = head.accessorText word space ++ rest ∧ ReturnType rest result last ∧
          declaration = word.declaration (head.signature result)) := by
  refine ⟨⟨?_, ?_⟩, ?_, ⟨?_, ?_⟩, ?_⟩
  · intro some
    obtain ⟨⟨declaration, last⟩, read⟩ := Option.isSome_iff_exists.mp some
    exact method_headed read
  · rintro ⟨front, head, rest, whole⟩
    rw [whole, head.read_method]
    rfl
  · intro declaration last
    constructor
    · intro read
      obtain ⟨front, head, rest, whole⟩ := method_headed read
      rw [whole, head.read_method] at read
      cases read
      exact ⟨front, head, rest, _, whole, returnType_exact.mpr rfl, rfl⟩
    · rintro ⟨front, head, rest, result, whole, returned, same⟩
      rw [whole, head.read_method, returnType_exact.mp returned, same]
  · intro some
    obtain ⟨⟨declaration, last⟩, read⟩ := Option.isSome_iff_exists.mp some
    exact accessor_headed read
  · rintro ⟨head, word, space, rest, whole⟩
    rw [whole, head.read_accessor]
    rfl
  · intro declaration last
    constructor
    · intro read
      obtain ⟨head, word, space, rest, whole⟩ := accessor_headed read
      rw [whole, head.read_accessor] at read
      cases read
      exact ⟨head, word, space, rest, _, whole, returnType_exact.mpr rfl, rfl⟩
    · rintro ⟨head, word, space, rest, result, whole, returned, same⟩
      rw [whole, head.read_accessor, returnType_exact.mp returned, same]

theorem PropertyLine.property_access (line : PropertyLine) :
    line.property = ⟨line.attributes.access, line.name.text, line.type.map (·.name.value)⟩ := by
  rw [PropertyLine.property, Attributes.access_words]

def PropertyLine.front (line : PropertyLine) : Text :=
  line.attributes.text ++ ("var".toList ++ (line.gap.text ++ (line.name.text ++
    (line.type.elim [] TypePart.text ++ line.value.elim [] ValuePart.text))))

theorem PropertyLine.text_front (line : PropertyLine) (rest : Text) :
    line.text ++ rest = line.front ++ ';' :: rest := by
  simp [PropertyLine.text, PropertyLine.front]

theorem PropertyLine.front_unended (line : PropertyLine) : ';' ∉ line.front := by
  have blank : ∀ blanks : Blanks, ';' ∉ blanks.text := fun blanks => free_of_spelt blanks.blank (by decide)
  have worded : ∀ word : AttributeWord, ';' ∉ word.text := by
    intro word
    cases word <;> decide
  obtain ⟨attributes, gap, name, type, value⟩ := line
  simp only [PropertyLine.front, List.mem_append, not_or]
  refine ⟨?_, by decide, blank gap.toBlanks, free_of_spelt name.spelt (by decide), ?_, ?_⟩
  · simp [Attributes.text, worded, blank]
  · cases type with
    | none => exact List.not_mem_nil
    | some part =>
      have named : ';' ∉ part.name.text := free_of_spelt part.name.text_spelt (by decide)
      simp [TypePart.text, blank, named]
  · cases value with
    | none => exact List.not_mem_nil
    | some part =>
      have inside : ';' ∉ part.value := fun member => (part.single ';' member).1 rfl
      simp [ValuePart.text, blank, inside]

-- A property is read exactly where one is written, up to the first semicolon of the text.
theorem property_exact (text : Text) :
    (∀ declaration rest, Form.property.read? text = some (declaration, rest) ↔
      ∃ line : PropertyLine, text = line.text ++ rest ∧
        declaration = .property ⟨line.attributes.access, line.name.text, line.type.map (·.name.value)⟩) ∧
    (∀ declaration rest, Form.property.read? text = some (declaration, rest) → BehindFirst ';' text rest) := by
  have sound : ∀ declaration rest, Form.property.read? text = some (declaration, rest) →
      ∃ line : PropertyLine, text = line.text ++ rest ∧
        declaration = .property ⟨line.attributes.access, line.name.text, line.type.map (·.name.value)⟩ := by
    intro declaration rest read
    obtain ⟨⟨var, _⟩, found, same⟩ := Option.map_eq_some_iff.mp read
    cases same
    obtain ⟨line, said, whole⟩ := property?_parts found
    exact ⟨line, whole, by rw [← said, line.property_access]⟩
  constructor
  · intro declaration rest
    refine ⟨sound declaration rest, ?_⟩
    rintro ⟨line, whole, same⟩
    rw [whole, same, ← line.property_access]
    simp only [Form.read?, property?_written, Option.map_some]
  · intro declaration rest read
    obtain ⟨line, whole, _⟩ := sound declaration rest read
    exact ⟨line.front, whole.trans (line.text_front rest), line.front_unended⟩

-- `private static var k:a.T =` with its value on the next line, and a second semicolon behind it.
def brokenLine : PropertyLine where
  attributes := ⟨[(.hidden, .space), (.fixed, .space)], by decide⟩
  gap := .space
  name := .single 'k' (by decide)
  type := some ⟨.empty, .empty, ⟨⟨['a'], ['T']⟩, List.forall_mem_singleton.mpr (by decide), List.cons_ne_nil _ _,
    List.forall_mem_singleton.mpr (by decide)⟩⟩
  value := some ⟨Gap.space.toBlanks, ⟨['\n'], List.forall_mem_singleton.mpr (by decide)⟩, ['1'],
    List.forall_mem_singleton.mpr (by decide)⟩

theorem property_exact_broken :
    Form.property.read? "private static var k:a.T =\n1;x;".toList =
        some (.property ⟨⟨.hidden, true⟩, ['k'], some ⟨['a'], ['T']⟩⟩, "x;".toList) ∧
      BehindFirst ';' "private static var k:a.T =\n1;x;".toList "x;".toList := by
  have exact_form := property_exact "private static var k:a.T =\n1;x;".toList
  have read := (exact_form.1 (.property ⟨⟨.hidden, true⟩, ['k'], some ⟨['a'], ['T']⟩⟩) "x;".toList).mpr
    ⟨brokenLine, rfl, rfl⟩
  exact ⟨read, exact_form.2 _ _ read⟩

end Intrinsics
