import Intrinsics.Proofs.Declaration.Parts

namespace Intrinsics
open Text

-- The forms of a declaration as they are written. Each line is read back as what it says;
-- the text behind matters only where a line has no mark at its end.

structure ImportLine where
  before : Blanks
  package : Text
  packaged : package ≠ []
  packageSpelt : ∀ c ∈ package, isQualifiedPart c = true
  name : Text
  named : name ≠ []
  nameSpelt : ∀ c ∈ name, isImportedPart c = true
  behind : Blanks

namespace ImportLine

def target (line : ImportLine) : QualifiedName := ⟨line.package, line.name⟩

def text (line : ImportLine) : Text :=
  "import".toList ++ (line.before.text ++ (line.package ++ ('.' :: (line.name ++ (line.behind.text ++ ";".toList)))))

theorem text_append (line : ImportLine) (rest : Text) :
    line.text ++ rest = "import".toList ++ (line.before.text ++ (line.package ++ ('.' :: (line.name ++
      (line.behind.text ++ ';' :: rest))))) := by
  change ("import".toList ++ (line.before.text ++ (line.package ++ ('.' :: (line.name ++
    (line.behind.text ++ [';'])))))) ++ rest = _
  simp only [List.append_assoc, List.cons_append, List.nil_append]

end ImportLine

theorem isImportedPart_of_isBlank {c : Char} (blank : isBlank c = true) : isImportedPart c = false := by
  have bare : c ≠ '*' := by
    intro star
    rw [star] at blank
    exact absurd blank (by decide)
  simp [isImportedPart, isNamePart_of_isBlank blank, bare]

theorem importing?_written (line : ImportLine) (rest : Text) :
    importing? (line.text ++ rest) = some (line.target, rest) := by
  obtain ⟨before, package, packaged, packageSpelt, name, named, nameSpelt, behind⟩ := line
  -- A star ends the run of name characters, so the run holds only the front of the name.
  have run : (package ++ ('.' :: (name ++ (behind.text ++ ';' :: rest)))).takeWhile isQualifiedPart =
      package ++ '.' :: (name ++ (behind.text ++ ';' :: rest)).takeWhile isQualifiedPart := by
    rw [List.takeWhile_append_of_pos packageSpelt]
    simp [show isQualifiedPart '.' = true by decide]
  have free : '.' ∉ (name ++ (behind.text ++ ';' :: rest)).takeWhile isQualifiedPart := by
    have begins : name.takeWhile isQualifiedPart <+: name := List.takeWhile_prefix isQualifiedPart
    have inside : (name ++ (behind.text ++ ';' :: rest)).takeWhile isQualifiedPart =
        name.takeWhile isQualifiedPart := by
      have ends : Stops isQualifiedPart (behind.text ++ ';' :: rest) :=
        behind.stops_append (fun _ => isQualifiedPart_of_isBlank) (stops_cons.mpr rfl)
      rw [List.takeWhile_append, ends.takeWhile]
      split
      · rename_i whole
        rw [List.append_nil, begins.eq_of_length whole]
      · rfl
    rw [inside]
    intro dot
    have member := begins.subset dot
    exact absurd (nameSpelt '.' member) (by decide)
  have stops : Stops isImportedPart (behind.text ++ ';' :: rest) :=
    behind.stops_append (fun _ => isImportedPart_of_isBlank) (stops_cons.mpr rfl)
  have read : run? isImportedPart (name ++ (behind.text ++ ';' :: rest)) =
      some (name, behind.text ++ ';' :: rest) := run?_parts.mpr ⟨rfl, named, nameSpelt, stops⟩
  cases package with
  | nil => exact absurd rfl packaged
  | cons c package =>
    have begins : skipBlanks (c :: package ++ ('.' :: (name ++ (behind.text ++ ';' :: rest)))) =
        c :: package ++ ('.' :: (name ++ (behind.text ++ ';' :: rest))) :=
      skipBlanks_of_stops (stops_cons.mpr (isBlank_of_isQualifiedPart (packageSpelt c List.mem_cons_self)))
    have ends : skipBlanks (';' :: rest) = ';' :: rest := skipBlanks_of_stops (stops_cons.mpr rfl)
    have cut := splitLast_append (c :: package) free
    rw [ImportLine.text_append]
    simp only [importing?, ImportLine.target, after?_append, Option.bind_eq_bind, Option.bind_some,
      skipBlanks_blanks, List.cons_append]
    simp only [List.cons_append] at begins run cut
    rw [begins, run, cut]
    have dropped : (c :: (package ++ '.' :: (name ++ (behind.text ++ ';' :: rest)))).drop (package.length + 2) =
        name ++ (behind.text ++ ';' :: rest) := by
      simp [List.drop_append]
    simp only [dropped, read, Option.bind_some, skipBlanks_blanks, ends]
    rw [show (';' :: rest : Text) = ";".toList ++ rest from rfl, after?_append]
    rfl

structure DynamicMark where
  sign : Char
  allowed : (isBlank sign || sign == '+') = true

structure ClassLine where
  intrinsic : Option Gap
  dynamic : Option DynamicMark
  gap : Gap
  name : SpeltName
  base : Option BasePart
  interfaces : Option ListPart
  blanks : Blanks

def intrinsicText (intrinsic : Option Gap) : Text :=
  intrinsic.elim [] fun gap => "intrinsic".toList ++ gap.text

def dynamicText (dynamic : Option DynamicMark) : Text :=
  dynamic.elim [] fun mark => "dynamic".toList ++ [mark.sign]

namespace ClassLine

def header (line : ClassLine) : ClassHeader :=
  ⟨line.dynamic.isSome, line.name.value, line.base.map (·.name.value), line.interfaces.map (·.list.text)⟩

def text (line : ClassLine) : Text :=
  intrinsicText line.intrinsic ++ (dynamicText line.dynamic ++ ("class".toList ++ (line.gap.text ++
    (line.name.text ++ (line.base.elim [] BasePart.text ++ (line.interfaces.elim [] ListPart.text ++
      (line.blanks.text ++ "\x7b".toList)))))))

end ClassLine

theorem skipSpaced_intrinsic (intrinsic : Option Gap) (rest : Text)
    (bare : spaced? "intrinsic".toList rest = none) (stops : Stops isBlank rest) :
    skipSpaced "intrinsic".toList (intrinsicText intrinsic ++ rest) = rest := by
  cases intrinsic with
  | none => exact skipSpaced_of_none bare
  | some gap =>
    simp only [intrinsicText, Option.elim_some, List.append_assoc, skipSpaced, spaced?_gap, Option.getD_some]
    exact skipBlanks_of_stops stops

theorem dynamicMark?_written (mark : DynamicMark) (rest : Text) :
    dynamicMark? ("dynamic".toList ++ ([mark.sign] ++ rest)) = some ((), rest) := by
  simp only [dynamicMark?, after?_append, Option.bind_eq_bind, Option.bind_some, List.singleton_append,
    mark.allowed, if_true]

theorem optional_dynamicMark? (intrinsic : Option Gap) (dynamic : Option DynamicMark) (rest : Text) :
    optional dynamicMark? (skipSpaced "intrinsic".toList
      (intrinsicText intrinsic ++ (dynamicText dynamic ++ ("class".toList ++ rest)))) =
      (dynamic.map fun _ => (), "class".toList ++ rest) := by
  cases dynamic with
  | none =>
    simp only [dynamicText, Option.elim_none, List.nil_append]
    rw [skipSpaced_intrinsic intrinsic ("class".toList ++ rest) (by simp [spaced?, after?])
      (stops_cons.mpr rfl)]
    exact optional_none (by simp [dynamicMark?, after?])
  | some mark =>
    simp only [dynamicText, Option.elim_some, List.append_assoc]
    rw [skipSpaced_intrinsic intrinsic ("dynamic".toList ++ ([mark.sign] ++ ("class".toList ++ rest)))
      (by simp [spaced?, after?]) (stops_cons.mpr rfl)]
    exact optional_some (dynamicMark?_written mark ("class".toList ++ rest))

theorem skipBlanks_brace (rest : Text) : skipBlanks ("\x7b".toList ++ rest) = "\x7b".toList ++ rest :=
  skipBlanks_of_stops (stops_cons.mpr rfl)

-- Neither `implements` nor the brace can be taken for `extends`.
theorem ListPart.apart_from_base (part : Option ListPart) (blanks : Blanks) (rest : Text) :
    Stops (· == 'e') (skipBlanks (part.elim [] ListPart.text ++ (blanks.text ++ ("\x7b".toList ++ rest)))) := by
  cases part with
  | none =>
    rw [Option.elim_none, List.nil_append, skipBlanks_blanks, skipBlanks_brace]
    exact stops_cons.mpr rfl
  | some part =>
    have word : Stops isBlank ("implements".toList ++ (part.behind.text ++ (part.list.text ++
        (blanks.text ++ ("\x7b".toList ++ rest))))) := stops_cons.mpr rfl
    simp only [Option.elim_some, ListPart.text, List.append_assoc, skipBlanks_blanks, skipBlanks_of_stops word]
    exact stops_cons.mpr rfl

-- A list takes the blanks behind it; without one they are left to the brace.
theorem optional_interfaces? (part : Option ListPart) (blanks : Blanks) (rest : Text) :
    ∃ middle, optional interfaces? (part.elim [] ListPart.text ++ (blanks.text ++ ("\x7b".toList ++ rest))) =
        (part.map (·.list.text), middle) ∧ after? "\x7b".toList (skipBlanks middle) = some rest := by
  cases part with
  | none =>
    have missing : Stops (· == 'i') (skipBlanks (blanks.text ++ ("\x7b".toList ++ rest))) := by
      rw [skipBlanks_blanks, skipBlanks_brace]
      exact stops_cons.mpr rfl
    refine ⟨_, optional_none (interfaces?_none missing), ?_⟩
    rw [Option.elim_none, List.nil_append, skipBlanks_blanks, skipBlanks_brace, after?_append]
  | some part =>
    refine ⟨_, optional_some (interfaces?_written part blanks rest), ?_⟩
    rw [show '\x7b' :: rest = "\x7b".toList ++ rest from rfl, skipBlanks_brace, after?_append]

theorem classHeader?_written (line : ClassLine) (rest : Text) :
    classHeader? (line.text ++ rest) = some (line.header, rest) := by
  obtain ⟨intrinsic, dynamic, gap, name, base, interfaces, blanks⟩ := line
  have behindList : Stops isQualifiedPart (blanks.text ++ ("\x7b".toList ++ rest)) :=
    blanks.stops_append (fun _ => isQualifiedPart_of_isBlank) (stops_cons.mpr rfl)
  have behindBase := ListPart.stops_append interfaces behindList
  have readName := QualifiedName.whole?_spelt name (BasePart.stops_append base behindBase)
  have readBase := optional_baseName? base (fun name => QualifiedName.whole?_spelt name behindBase)
    (ListPart.apart_from_base interfaces blanks rest)
  obtain ⟨middle, readList, close⟩ := optional_interfaces? interfaces blanks rest
  simp only [classHeader?, ClassLine.text, List.append_assoc, optional_dynamicMark?, spaced?_gap,
    name.skipBlanks_append, readName, readBase, readList, close, Option.bind_eq_bind, Option.bind_some]
  cases dynamic <;> rfl

structure InterfaceLine where
  intrinsic : Option Gap
  gap : Gap
  name : SpeltName
  base : Option BasePart

namespace InterfaceLine

def header (line : InterfaceLine) : InterfaceHeader := ⟨line.name.value, line.base.map (·.name.value)⟩

def text (line : InterfaceLine) : Text :=
  intrinsicText line.intrinsic ++ ("interface".toList ++ (line.gap.text ++
    (line.name.text ++ line.base.elim [] BasePart.text)))

end InterfaceLine

theorem interfaceHeader?_body (intrinsic : Option Gap) (gap : Gap) {body : Text} (begins : Stops isBlank body) :
    interfaceHeader? (intrinsicText intrinsic ++ ("interface".toList ++ (gap.text ++ body))) = do
      let (name, behind) ← QualifiedName.leading? body
      let (base, behind) := optional (baseName? QualifiedName.leading?) behind
      return (⟨name, base⟩, behind) := by
  have refused : spaced? "intrinsic".toList ("interface".toList ++ (gap.text ++ body)) = none := by
    simp [spaced?, after?]
  unfold interfaceHeader?
  rw [skipSpaced_intrinsic intrinsic _ refused (stops_cons.mpr rfl)]
  simp only [spaced?_gap, skipBlanks_of_stops begins, Option.bind_eq_bind, Option.bind_some]

theorem interfaceHeader?_opened (line : InterfaceLine) (rest : Text) :
    interfaceHeader? (line.text ++ rest) = do
      let (name, behind) ← QualifiedName.leading? (line.name.text ++ (line.base.elim [] BasePart.text ++ rest))
      let (base, behind) := optional (baseName? QualifiedName.leading?) behind
      return (⟨name, base⟩, behind) := by
  have begins : Stops isBlank (line.name.text ++ (line.base.elim [] BasePart.text ++ rest)) :=
    (line.name.starts.append _).stops fun _ => isBlank_of_isQualifiedPart
  simp only [InterfaceLine.text, List.append_assoc]
  exact interfaceHeader?_body line.intrinsic line.gap begins

theorem interfaceHeader?_written (line : InterfaceLine) {rest : Text} (stops : Stops isQualifiedPart rest)
    (bare : Stops (· == 'e') (skipBlanks rest)) :
    interfaceHeader? (line.text ++ rest) = some (line.header, rest) := by
  have readBase := optional_baseName? line.base (fun name => QualifiedName.leading?_spelt name stops) bare
  have readName := QualifiedName.leading?_spelt line.name (BasePart.stops_append line.base stops)
  simp only [interfaceHeader?_opened, readName, readBase, Option.bind_eq_bind, Option.bind_some]
  rfl

inductive AccessorWord where
  | get | set

def AccessorWord.text : AccessorWord → Text
  | .get => "get".toList
  | .set => "set".toList

structure FunctionLine where
  attributes : Attributes
  gap : Gap
  accessor : Option (AccessorWord × Gap)
  name : PlainName
  blanks : Blanks
  params : Text
  enclosed : ')' ∉ params
  result : Option TypePart

namespace FunctionLine

def signature (line : FunctionLine) : Signature :=
  ⟨Access.ofAttributes line.attributes.words, line.name.text, line.params, line.result.map (·.name.value)⟩

def declaration (line : FunctionLine) : Declaration :=
  match line.accessor with
  | none => .method line.signature
  | some (.get, _) => .getter line.signature
  | some (.set, _) => .setter line.signature

def signatureText (line : FunctionLine) : Text :=
  line.name.text ++ (line.blanks.text ++ ("(".toList ++ (line.params ++ (")".toList ++
    line.result.elim [] TypePart.text))))

def text (line : FunctionLine) : Text :=
  line.attributes.text ++ ("function".toList ++ (line.gap.text ++
    (line.accessor.elim [] (fun item => item.1.text ++ item.2.text) ++ line.signatureText)))

end FunctionLine

-- A text that can follow a function: it neither goes on with the last name nor begins a result.
structure BehindFunction (rest : Text) : Prop where
  name : Stops isQualifiedPart rest
  result : Stops (· == ':') (skipBlanks rest)

def resultAt (text : Text) : Option QualifiedName × Text :=
  let (result, rest) := optional (typeMark? QualifiedName.leading?) text
  (result, skipBlanks rest)

theorem signature?_opened (line : FunctionLine) (access : Access) (rest : Text) :
    signature? access (line.signatureText ++ rest) =
      some (⟨access, line.name.text, line.params, (resultAt (line.result.elim [] TypePart.text ++ rest)).1⟩,
        (resultAt (line.result.elim [] TypePart.text ++ rest)).2) := by
  obtain ⟨_, _, _, name, blanks, params, enclosed, result⟩ := line
  have inside : ∀ c ∈ params, (c != ')') = true := by
    intro c member
    rw [bne_iff_ne]
    intro same
    rw [same] at member
    exact enclosed member
  have stops : Stops isNamePart (blanks.text ++ ("(".toList ++ (params ++ (")".toList ++
      (result.elim [] TypePart.text ++ rest))))) :=
    blanks.stops_append (fun _ => isNamePart_of_isBlank) (stops_cons.mpr rfl)
  have readName := run?_parts.mpr ⟨rfl, name.held, name.spelt, stops⟩
  have paren : skipBlanks ("(".toList ++ (params ++ (")".toList ++ (result.elim [] TypePart.text ++ rest)))) =
      "(".toList ++ (params ++ (")".toList ++ (result.elim [] TypePart.text ++ rest))) :=
    skipBlanks_of_stops (stops_cons.mpr rfl)
  have closes : Stops (· != ')') (")".toList ++ (result.elim [] TypePart.text ++ rest)) :=
    stops_cons.mpr rfl
  simp only [signature?, FunctionLine.signatureText, List.append_assoc, readName, skipBlanks_blanks, paren,
    after?_append, takeWhile_run inside closes, dropWhile_run inside closes, Option.bind_eq_bind,
    Option.bind_some]
  rfl

theorem signature?_written (line : FunctionLine) {rest : Text} (behind : BehindFunction rest) (access : Access) :
    signature? access (line.signatureText ++ rest) =
      some (⟨access, line.name.text, line.params, line.result.map (·.name.value)⟩, skipBlanks rest) := by
  have readResult := optional_typeMark? line.result (fun name => QualifiedName.leading?_spelt name behind.name)
    behind.result
  simp only [signature?_opened, resultAt, readResult]

theorem attributes_function (written : Attributes) (rest : Text) :
    attributes (written.text ++ ("function".toList ++ rest)) = (written.words, "function".toList ++ rest) :=
  attributes_written written (attribute?_none_of_head (by decide) (by decide)) (stops_cons.mpr rfl)

theorem attributes_var (written : Attributes) (rest : Text) :
    attributes (written.text ++ ("var".toList ++ rest)) = (written.words, "var".toList ++ rest) :=
  attributes_written written (attribute?_none_of_head (by decide) (by decide)) (stops_cons.mpr rfl)

-- The first letters of members keep them apart from imports and headers.
def isMemberInitial (c : Char) : Bool := c == 'p' || c == 's' || c == 'f' || c == 'v'

theorem Attributes.starts (written : Attributes) {rest : Text} (starts : Starts isMemberInitial rest) :
    Starts isMemberInitial (written.text ++ rest) := by
  obtain ⟨items, few⟩ := written
  cases items with
  | nil => exact starts
  | cons item items =>
    obtain ⟨word, gap⟩ := item
    simp only [Attributes.text, List.flatMap_cons, List.append_assoc]
    cases word with
    | exposed => exact ⟨'p', _, rfl, rfl⟩
    | hidden => exact ⟨'p', _, rfl, rfl⟩
    | fixed => exact ⟨'s', _, rfl, rfl⟩

theorem skipBlanks_member {text : Text} (starts : Starts isMemberInitial text) : skipBlanks text = text := by
  apply skipBlanks_of_stops
  apply starts.stops
  intro c initial
  simp only [isMemberInitial, Bool.or_eq_true, beq_iff_eq] at initial
  rcases initial with ((same | same) | same) | same
  all_goals subst same; decide

theorem FunctionLine.starts (line : FunctionLine) (rest : Text) : Starts isMemberInitial (line.text ++ rest) := by
  simp only [FunctionLine.text, List.append_assoc]
  exact line.attributes.starts ⟨'f', _, rfl, rfl⟩

theorem method?_opened (line : FunctionLine) (plain : line.accessor = none) (rest : Text) :
    method? (line.text ++ rest) =
      signature? (Access.ofAttributes line.attributes.words) (line.signatureText ++ rest) := by
  rw [method?, skipBlanks_member (line.starts rest)]
  have named : skipBlanks (line.signatureText ++ rest) = line.signatureText ++ rest := by
    rw [FunctionLine.signatureText, List.append_assoc, line.name.skipBlanks_append]
  simp only [FunctionLine.text, plain, Option.elim_none, List.nil_append, List.append_assoc,
    attributes_function, spaced?_gap, named, Option.bind_eq_bind, Option.bind_some]

theorem method?_written (line : FunctionLine) {rest : Text} (behind : BehindFunction rest)
    (plain : line.accessor = none) : method? (line.text ++ rest) = some (line.signature, skipBlanks rest) := by
  rw [method?_opened line plain, signature?_written line behind]
  rfl

-- A method would have to go by the name `get` or `set`, and no parenthesis follows that.
theorem method?_accessor (line : FunctionLine) (rest : Text) {word : AccessorWord} {space : Gap}
    (accessor : line.accessor = some (word, space)) : method? (line.text ++ rest) = none := by
  rw [method?, skipBlanks_member (line.starts rest)]
  have begins : skipBlanks (word.text ++ (space.text ++ (line.signatureText ++ rest))) =
      word.text ++ (space.text ++ (line.signatureText ++ rest)) := by
    cases word <;> exact skipBlanks_of_stops (stops_cons.mpr rfl)
  have readWord : run? isNamePart (word.text ++ (space.text ++ (line.signatureText ++ rest))) =
      some (word.text, space.text ++ (line.signatureText ++ rest)) := by
    refine run?_parts.mpr ⟨rfl, ?_, ?_, space.stops_append (fun _ => isNamePart_of_isBlank) _⟩
    · cases word <;> decide
    · cases word <;> exact List.all_eq_true.mp (by decide)
  have refused : after? "(".toList (skipBlanks (line.signatureText ++ rest)) = none := by
    rw [FunctionLine.signatureText, List.append_assoc, line.name.skipBlanks_append]
    obtain ⟨c, tail, shape, part⟩ := line.name.starts
    rw [shape]
    apply after?_none_of_head
    intro same
    rw [← same] at part
    exact absurd part (by decide)
  simp only [FunctionLine.text, accessor, Option.elim_some, List.append_assoc, attributes_function,
    spaced?_gap, begins, signature?, readWord, skipBlanks_blanks, refused, Option.bind_eq_bind,
    Option.bind_some, Option.bind_none]

def AccessorWord.declaration : AccessorWord → Signature → Declaration
  | .get => .getter
  | .set => .setter

theorem accessor?_opened (line : FunctionLine) {word : AccessorWord} {space : Gap}
    (accessor : line.accessor = some (word, space)) (rest : Text) :
    accessor? (line.text ++ rest) =
      (signature? (Access.ofAttributes line.attributes.words) (line.signatureText ++ rest)).map
        fun (signature, behind) => (word.declaration signature, behind) := by
  have named : skipBlanks (line.signatureText ++ rest) = line.signatureText ++ rest := by
    rw [FunctionLine.signatureText, List.append_assoc, line.name.skipBlanks_append]
  have begins : skipBlanks (word.text ++ (space.text ++ (line.signatureText ++ rest))) =
      word.text ++ (space.text ++ (line.signatureText ++ rest)) := by
    cases word <;> exact skipBlanks_of_stops (stops_cons.mpr rfl)
  simp only [accessor?, FunctionLine.text, accessor, Option.elim_some, List.append_assoc, attributes_function,
    spaced?_gap, begins, Option.bind_eq_bind, Option.bind_some]
  cases word with
  | get => simp only [AccessorWord.text, spaced?_gap, named, AccessorWord.declaration]
  | set =>
    have other : spaced? "get".toList ("set".toList ++ (space.text ++ (line.signatureText ++ rest))) = none := by
      simp [spaced?, after?]
    simp only [AccessorWord.text, other, spaced?_gap, named, Option.bind_some, AccessorWord.declaration]

theorem accessor?_written (line : FunctionLine) {rest : Text} (behind : BehindFunction rest)
    {word : AccessorWord} {space : Gap} (accessor : line.accessor = some (word, space)) :
    accessor? (line.text ++ rest) = some (line.declaration, skipBlanks rest) := by
  rw [accessor?_opened line accessor, signature?_written line behind, Option.map_some, FunctionLine.declaration,
    accessor]
  cases word <;> rfl

-- A property with its semicolon. The text behind an equals sign is not looked into.
structure ValuePart where
  before : Blanks
  behind : Blanks
  value : Text
  single : ∀ c ∈ value, c ≠ ';' ∧ c ≠ '\n'

def ValuePart.text (part : ValuePart) : Text := part.before.text ++ ("=".toList ++ (part.behind.text ++ part.value))

structure PropertyLine where
  attributes : Attributes
  gap : Gap
  name : PlainName
  type : Option TypePart
  value : Option ValuePart

namespace PropertyLine

def property (line : PropertyLine) : Property :=
  ⟨Access.ofAttributes line.attributes.words, line.name.text, line.type.map (·.name.value)⟩

def text (line : PropertyLine) : Text :=
  line.attributes.text ++ ("var".toList ++ (line.gap.text ++ (line.name.text ++
    (line.type.elim [] TypePart.text ++ (line.value.elim [] ValuePart.text ++ ";".toList)))))

end PropertyLine

theorem PropertyLine.starts (line : PropertyLine) (rest : Text) : Starts isMemberInitial (line.text ++ rest) := by
  simp only [PropertyLine.text, List.append_assoc]
  exact line.attributes.starts ⟨'v', _, rfl, rfl⟩

-- Blanks at the front of the value go with those in front of it.
theorem ValuePart.dropWhile_value (part : ValuePart) (rest : Text) :
    (skipBlanks (part.value ++ (";".toList ++ rest))).dropWhile (fun c => c != ';' && c != '\n') =
      ";".toList ++ rest := by
  obtain ⟨blanks, whole⟩ := skipBlanks_parts part.value
  have inside : ∀ c ∈ skipBlanks part.value, (c != ';' && c != '\n') = true := by
    intro c member
    have allowed := part.single c ((skipBlanks_suffix part.value).subset member)
    simp [allowed]
  have begins : Stops isBlank (skipBlanks part.value ++ (";".toList ++ rest)) :=
    (skipBlanks_stops part.value).append (stops_cons.mpr rfl)
  rw [whole, List.append_assoc, skipBlanks_blanks, skipBlanks_of_stops begins]
  exact dropWhile_run inside (stops_cons.mpr rfl)

theorem propertyEnd?_written (part : Option ValuePart) (rest : Text) :
    propertyEnd? (part.elim [] ValuePart.text ++ (";".toList ++ rest)) = some rest := by
  cases part with
  | none => simp only [Option.elim_none, List.nil_append, propertyEnd?, after?_append]
  | some part =>
    have equals : skipBlanks ("=".toList ++ (part.behind.text ++ (part.value ++ (";".toList ++ rest)))) =
        "=".toList ++ (part.behind.text ++ (part.value ++ (";".toList ++ rest))) :=
      skipBlanks_of_stops (stops_cons.mpr rfl)
    have apart : Stops (· == ';') (part.before.text ++ ("=".toList ++ (part.behind.text ++
        (part.value ++ (";".toList ++ rest))))) := by
      apply part.before.stops_append _ (stops_cons.mpr rfl)
      intro c blank
      rw [beq_eq_false_iff_ne]
      intro same
      rw [same] at blank
      exact absurd blank (by decide)
    have missing : after? ";".toList (part.before.text ++ ("=".toList ++ (part.behind.text ++
        (part.value ++ (";".toList ++ rest))))) = none := after?_none_of_stops apart
    simp only [Option.elim_some, ValuePart.text, List.append_assoc, propertyEnd?, missing,
      skipBlanks_blanks, equals, after?_append, part.dropWhile_value, Option.bind_eq_bind, Option.bind_some]

theorem property?_written (line : PropertyLine) (rest : Text) :
    property? (line.text ++ rest) = some (line.property, rest) := by
  obtain ⟨words, gap, name, type, value⟩ := line
  have behindType : Stops isQualifiedPart (value.elim [] ValuePart.text ++ (";".toList ++ rest)) := by
    cases value with
    | none => exact stops_cons.mpr rfl
    | some part =>
      simp only [Option.elim_some, ValuePart.text, List.append_assoc]
      exact part.before.stops_append (fun _ => isQualifiedPart_of_isBlank) (stops_cons.mpr rfl)
  have behindName : Stops isNamePart (type.elim [] TypePart.text ++
      (value.elim [] ValuePart.text ++ (";".toList ++ rest))) :=
    TypePart.stops_append type (fun _ => isNamePart_of_isBlank) (by decide)
      (behindType.mono fun _ => isQualifiedPart_of_isNamePart)
  have noType : Stops (· == ':') (skipBlanks (value.elim [] ValuePart.text ++ (";".toList ++ rest))) := by
    cases value with
    | none =>
      rw [Option.elim_none, List.nil_append, skipBlanks_of_stops]
      · exact stops_cons.mpr rfl
      · exact stops_cons.mpr rfl
    | some part =>
      simp only [Option.elim_some, ValuePart.text, List.append_assoc, skipBlanks_blanks]
      rw [skipBlanks_of_stops]
      · exact stops_cons.mpr rfl
      · exact stops_cons.mpr rfl
  have readName := run?_parts.mpr ⟨rfl, name.held, name.spelt, behindName⟩
  have readType := optional_typeMark? type (fun name => QualifiedName.whole?_spelt name behindType) noType
  simp only [property?, PropertyLine.text, List.append_assoc, attributes_var, spaced?_gap,
    name.skipBlanks_append, readName, readType, propertyEnd?_written, Option.bind_eq_bind, Option.bind_some]
  rfl

end Intrinsics
