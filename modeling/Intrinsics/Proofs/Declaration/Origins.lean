import Intrinsics.Declaration.Progress
import Intrinsics.Proofs.Declaration.Lines

namespace Intrinsics
open Text

-- The converse of reading a line back: what a reader accepts is a written line, with the
-- parts that it reports. So every field of a declaration is spelt as its line allows.

theorem optional_parts {α β : Type} (reader : Text → Option (α × Text)) (text : Text) (value : β → α)
    (written : β → Text) (parts : ∀ found rest, reader text = some (found, rest) →
      ∃ part, value part = found ∧ text = written part ++ rest) :
    ∃ (part : Option β) (rest : Text), optional reader text = (part.map value, rest) ∧
      text = part.elim [] written ++ rest := by
  cases read : reader text with
  | none => exact ⟨none, text, optional_none read, rfl⟩
  | some taken =>
    obtain ⟨found, rest⟩ := taken
    obtain ⟨part, same, whole⟩ := parts found rest read
    exact ⟨some part, rest, by rw [optional_some read, ← same]; rfl, whole⟩

def Blanks.append (front back : Blanks) : Blanks where
  text := front.text ++ back.text
  blank := by
    intro c member
    rcases List.mem_append.mp member with first | later
    · exact front.blank c first
    · exact back.blank c later

theorem importing?_parts {text rest : Text} {target : QualifiedName}
    (read : importing? text = some (target, rest)) :
    ∃ line : ImportLine, line.target = target ∧ text = line.text ++ rest := by
  simp only [importing?, Option.bind_eq_bind, Option.bind_eq_some_iff] at read
  obtain ⟨first, word, found⟩ := read
  obtain ⟨before, front⟩ := skipBlanks_parts first
  split at found
  · rename_i c package own cut
    simp only [Option.bind_eq_some_iff] at found
    obtain ⟨⟨name, second⟩, run, last, close, same⟩ := found
    cases same
    obtain ⟨named, held, spelt, _⟩ := run?_parts.mp run
    obtain ⟨behind, back⟩ := skipBlanks_parts second
    obtain ⟨parts, _⟩ := splitLast_exact.mp cut
    -- The run begins the text, so its package and dot do.
    have begins : (c :: package) ++ ['.'] <+: skipBlanks first := by
      have whole : (skipBlanks first).takeWhile isQualifiedPart <+: skipBlanks first :=
        List.takeWhile_prefix isQualifiedPart
      rw [parts] at whole
      exact .trans ⟨own, by simp⟩ whole
    obtain ⟨tail, whole⟩ := begins
    have dropped : (skipBlanks first).drop (package.length + 2) = tail := by
      rw [← whole, List.drop_left']
      simp
    have packageSpelt : ∀ d ∈ c :: package, isQualifiedPart d = true := by
      intro d member
      apply List.mem_takeWhile_imp (p := isQualifiedPart) (l := skipBlanks first)
      rw [parts]
      exact List.mem_append_left _ member
    refine ⟨⟨before, c :: package, List.cons_ne_nil _ _, packageSpelt, name, held, spelt, behind⟩, rfl, ?_⟩
    rw [after?_exact.mp word, front, ← whole, ← dropped, named, back, after?_exact.mp close]
    rw [ImportLine.text_append]
    simp only [List.append_assoc, List.cons_append, List.nil_append]
    rfl
  · cases found

theorem baseName?_parts {name? : Text → Option (QualifiedName × Text)} {text rest : Text} {base : QualifiedName}
    (named : ∀ text base rest, name? text = some (base, rest) →
      ∃ name : SpeltName, name.value = base ∧ text = name.text ++ rest)
    (read : baseName? name? text = some (base, rest)) :
    ∃ part : BasePart, part.name.value = base ∧ text = part.text ++ rest := by
  simp only [baseName?, Option.bind_eq_bind, Option.bind_eq_some_iff] at read
  obtain ⟨first, blanks, second, word, found⟩ := read
  obtain ⟨before, front, _⟩ := passBlanks?_parts blanks
  obtain ⟨behind, middle, _⟩ := spaced?_parts word
  obtain ⟨name, value, back⟩ := named _ _ _ found
  refine ⟨⟨before, behind, name⟩, value, ?_⟩
  rw [front, middle, back]
  simp [BasePart.text]

theorem interfaceList_listed (commaAllowed : Bool) (text : Text) :
    Listed commaAllowed (interfaceList commaAllowed text).1 := by
  fun_induction interfaceList commaAllowed text with
  | case1 => exact .nil
  | case2 _ c text part _ _ taken ih =>
    rw [taken] at ih
    exact .part part ih
  | case3 _ c text _ blank _ _ taken ih =>
    rw [taken] at ih
    exact .blank blank ih
  | case4 allowed c text _ _ comma _ _ taken ih =>
    rw [taken] at ih
    simp only [Bool.and_eq_true, beq_iff_eq] at comma
    obtain ⟨rfl, rfl⟩ := comma
    exact .comma ih
  | case5 => exact .nil

theorem Listed.front {commaAllowed : Bool} {front back : Text} (listed : Listed commaAllowed (front ++ back)) :
    Listed commaAllowed front := by
  induction front generalizing commaAllowed with
  | nil => exact .nil
  | cons c front ih =>
    cases listed with
    | part held rest => exact .part held (ih rest)
    | blank held rest => exact .blank held (ih rest)
    | comma rest => exact .comma (ih rest)

-- A text that begins with no blank is trimmed at its end only.
theorem trim_parts {text : Text} (held : text ≠ []) (stops : Stops isBlank text) :
    ∃ blanks : Blanks, text = trim text ++ blanks.text ∧ trim text ≠ [] ∧ Stops isBlank (trim text) ∧
      Stops isBlank (trim text).reverse := by
  have trimmed : trim text = (text.reverse.dropWhile isBlank).reverse := by
    rw [trim, skipBlanks_of_stops stops]
  have blank : ∀ c ∈ (text.reverse.takeWhile isBlank).reverse, isBlank c = true :=
    fun c member => List.mem_takeWhile_imp (List.mem_reverse.mp member)
  have cut : text = trim text ++ (text.reverse.takeWhile isBlank).reverse := by
    rw [trimmed, ← List.reverse_append, List.takeWhile_append_dropWhile, List.reverse_reverse]
  cases shape : trim text with
  | nil =>
    -- Nothing would be left of a text of blanks, and this one begins with another character.
    rw [shape, List.nil_append] at cut
    cases text with
    | nil => exact absurd rfl held
    | cons c tail =>
      have inside : c ∈ ((c :: tail).reverse.takeWhile isBlank).reverse := by
        rw [← cut]
        exact List.mem_cons_self
      have bare := stops_cons.mp stops
      rw [blank c inside] at bare
      cases bare
  | cons c tail =>
    refine ⟨⟨_, blank⟩, by rw [← shape]; exact cut, List.cons_ne_nil _ _, ?_, ?_⟩
    · rw [shape] at cut
      rw [cut] at stops
      exact stops_cons.mpr (stops_cons.mp stops)
    · rw [← shape, trimmed, List.reverse_reverse]
      exact stops_dropWhile isBlank _

theorem interfaces?_parts {text rest list : Text} (read : interfaces? text = some (list, rest)) :
    ∃ item : ListPart × Blanks, item.1.list.text = list ∧ text = item.1.text ++ item.2.text ++ rest := by
  simp only [interfaces?, Option.bind_eq_bind, Option.bind_eq_some_iff] at read
  obtain ⟨first, blanks, second, word, found⟩ := read
  obtain ⟨before, front, _⟩ := passBlanks?_parts blanks
  obtain ⟨behind, middle, stops⟩ := spaced?_parts word
  have whole := interfaceList_append false second
  have listed := interfaceList_listed false second
  split at found
  · cases found
  · rename_i c taken left parts
    cases found
    rw [parts] at whole listed
    have begins : Stops isBlank (c :: taken) := by
      rw [← whole] at stops
      exact stops_cons.mpr (stops_cons.mp stops)
    obtain ⟨back, cut, held, opens, closes⟩ := trim_parts (List.cons_ne_nil c taken) begins
    have inner : Listed false (trim (c :: taken)) := by
      rw [cut] at listed
      exact listed.front
    refine ⟨⟨⟨before, behind, ⟨_, held, inner, opens, closes⟩⟩, back⟩, rfl, ?_⟩
    rw [front, middle, ← whole]
    simp only [ListPart.text, List.append_assoc]
    rw [← List.append_assoc (trim (c :: taken)), ← cut]

theorem intrinsic_parts (text : Text) :
    ∃ intrinsic : Option Gap, text = intrinsicText intrinsic ++ skipSpaced "intrinsic".toList text := by
  cases read : spaced? "intrinsic".toList text with
  | none => exact ⟨none, by rw [skipSpaced_of_none read]; rfl⟩
  | some rest =>
    obtain ⟨gap, whole, _⟩ := spaced?_parts read
    refine ⟨some gap, ?_⟩
    rw [skipSpaced, read, Option.getD_some, whole]
    simp [intrinsicText]

theorem dynamicMark?_parts {text rest : Text} {mark : Unit} (read : dynamicMark? text = some (mark, rest)) :
    ∃ sign : DynamicMark, () = mark ∧ text = ("dynamic".toList ++ [sign.sign]) ++ rest := by
  simp only [dynamicMark?, Option.bind_eq_bind, Option.bind_eq_some_iff] at read
  obtain ⟨middle, word, set⟩ := read
  split at set
  · cases set
  · rename_i c behind
    split at set
    · rename_i allowed
      cases set
      exact ⟨⟨c, allowed⟩, rfl, by rw [after?_exact.mp word]; simp⟩
    · cases set

theorem classHeader?_parts {text rest : Text} {header : ClassHeader}
    (read : classHeader? text = some (header, rest)) :
    ∃ line : ClassLine, line.header = header ∧ text = line.text ++ rest := by
  simp only [classHeader?, Option.bind_eq_bind, Option.bind_eq_some_iff] at read
  obtain ⟨first, word, ⟨name, second⟩, named, third, close, same⟩ := read
  obtain ⟨intrinsic, front⟩ := intrinsic_parts text
  obtain ⟨dynamic, marked, mark, set⟩ := optional_parts dynamicMark? (skipSpaced "intrinsic".toList text)
    (fun _ : DynamicMark => ()) (fun mark => "dynamic".toList ++ [mark.sign]) fun _ _ => dynamicMark?_parts
  simp only [mark] at word same
  obtain ⟨gap, classed, _⟩ := spaced?_parts word
  obtain ⟨own, value, held⟩ := QualifiedName.whole?_parts named
  obtain ⟨base, behindBase, based, extended⟩ := optional_parts (baseName? QualifiedName.whole?) second
    (fun part : BasePart => part.name.value) BasePart.text
    fun _ _ => baseName?_parts fun _ _ _ => QualifiedName.whole?_parts
  simp only [based] at close same
  obtain ⟨list, behindList, listed, implemented⟩ := optional_parts interfaces? behindBase
    (fun item : ListPart × Blanks => item.1.list.text) (fun item => item.1.text ++ item.2.text)
    fun _ _ => interfaces?_parts
  simp only [listed] at close same
  obtain ⟨blanks, braced⟩ := skipBlanks_parts behindList
  cases same
  -- The blanks behind a list were taken with it; they belong to those in front of the brace.
  refine ⟨⟨intrinsic, dynamic, gap, own, base, list.map Prod.fst,
    list.elim blanks fun item => item.2.append blanks⟩, ?_, ?_⟩
  · simp only [ClassLine.header, value, Option.map_map, Option.isSome_map]
    rfl
  · rw [front, set, classed, held, extended, implemented, braced, after?_exact.mp close]
    cases list <;> simp [ClassLine.text, dynamicText, Blanks.append]

theorem interfaceHeader?_parts {text rest : Text} {header : InterfaceHeader}
    (read : interfaceHeader? text = some (header, rest)) :
    ∃ line : InterfaceLine, line.header = header ∧ text = line.text ++ rest := by
  simp only [interfaceHeader?, Option.bind_eq_bind, Option.bind_eq_some_iff] at read
  obtain ⟨first, word, ⟨name, second⟩, named, same⟩ := read
  obtain ⟨intrinsic, front⟩ := intrinsic_parts text
  obtain ⟨gap, interfaced, _⟩ := spaced?_parts word
  obtain ⟨own, value, held⟩ := QualifiedName.leading?_parts named
  obtain ⟨base, behindBase, based, extended⟩ := optional_parts (baseName? QualifiedName.leading?) second
    (fun part : BasePart => part.name.value) BasePart.text
    fun _ _ => baseName?_parts fun _ _ _ => QualifiedName.leading?_parts
  rw [based] at same
  cases same
  refine ⟨⟨intrinsic, gap, own, base⟩, ?_, ?_⟩
  · simp only [InterfaceLine.header, value]
  · rw [front, interfaced, held, extended]
    simp [InterfaceLine.text]

theorem attribute?_parts {text rest word : Text} (read : attribute? text = some (word, rest)) :
    ∃ item : AttributeWord × Gap, item.1.text = word ∧ text = item.1.text ++ item.2.text ++ rest := by
  obtain ⟨candidate, member, found⟩ := List.exists_of_findSome?_eq_some read
  obtain ⟨behind, spaced, same⟩ := Option.map_eq_some_iff.mp found
  cases same
  obtain ⟨gap, whole, _⟩ := spaced?_parts spaced
  have known : ∃ keyword : AttributeWord, keyword.text = word := by
    simp only [attributeWords, List.map_cons, List.map_nil, List.mem_cons, List.not_mem_nil, or_false] at member
    rcases member with same | same | same
    · exact ⟨.exposed, same.symm⟩
    · exact ⟨.hidden, same.symm⟩
    · exact ⟨.fixed, same.symm⟩
  obtain ⟨keyword, same⟩ := known
  refine ⟨⟨keyword, gap⟩, same, ?_⟩
  rw [whole, same, List.append_assoc]

theorem attributes_parts (text : Text) : ∃ (written : Attributes) (rest : Text),
    attributes text = (written.words, rest) ∧ text = written.text ++ rest := by
  obtain ⟨first, middle, named, front⟩ := optional_parts attribute? text
    (fun item : AttributeWord × Gap => item.1.text) (fun item => item.1.text ++ item.2.text)
    fun _ _ => attribute?_parts
  obtain ⟨second, rest, called, back⟩ := optional_parts attribute? middle
    (fun item : AttributeWord × Gap => item.1.text) (fun item => item.1.text ++ item.2.text)
    fun _ _ => attribute?_parts
  have few : (first.toList ++ second.toList).length ≤ 2 := by
    cases first <;> cases second <;> simp
  refine ⟨⟨first.toList ++ second.toList, few⟩, rest, ?_, ?_⟩
  · simp only [attributes, named, called, Attributes.words]
    cases first <;> cases second <;> rfl
  · rw [front, back, Attributes.text]
    cases first <;> cases second <;> simp

theorem typeMark?_parts {name? : Text → Option (QualifiedName × Text)} {text rest : Text} {type : QualifiedName}
    (named : ∀ text type rest, name? text = some (type, rest) →
      ∃ name : SpeltName, name.value = type ∧ text = name.text ++ rest)
    (read : typeMark? name? text = some (type, rest)) :
    ∃ part : TypePart, part.name.value = type ∧ text = part.text ++ rest := by
  simp only [typeMark?, Option.bind_eq_bind, Option.bind_eq_some_iff] at read
  obtain ⟨first, colon, found⟩ := read
  obtain ⟨before, front⟩ := skipBlanks_parts text
  obtain ⟨behind, back⟩ := skipBlanks_parts first
  obtain ⟨name, value, held⟩ := named _ _ _ found
  refine ⟨⟨before, behind, name⟩, value, ?_⟩
  rw [front, after?_exact.mp colon, back, held]
  simp [TypePart.text]

-- The blanks that a signature takes behind its result are no part of the line.
theorem signature?_parts {access : Access} {text rest : Text} {signature : Signature}
    (words : Attributes) (gap : Gap) (accessor : Option (AccessorWord × Gap))
    (read : signature? access text = some (signature, rest)) :
    ∃ (line : FunctionLine) (blanks : Blanks), line.attributes = words ∧ line.gap = gap ∧
      line.accessor = accessor ∧ signature = ⟨access, line.name.text, line.params, line.result.map (·.name.value)⟩ ∧
      text = line.signatureText ++ (blanks.text ++ rest) := by
  simp only [signature?, Option.bind_eq_bind, Option.bind_eq_some_iff] at read
  obtain ⟨⟨name, first⟩, run, second, opened, third, closed, same⟩ := read
  obtain ⟨whole, held, spelt, _⟩ := run?_parts.mp run
  obtain ⟨before, front⟩ := skipBlanks_parts first
  obtain ⟨result, behind, typed, marked⟩ := optional_parts (typeMark? QualifiedName.leading?) third
    (fun part : TypePart => part.name.value) TypePart.text
    fun _ _ => typeMark?_parts fun _ _ _ => QualifiedName.leading?_parts
  simp only [typed] at same
  obtain ⟨blanks, back⟩ := skipBlanks_parts behind
  have enclosed : ')' ∉ second.takeWhile (· != ')') := by
    intro member
    have inside := List.mem_takeWhile_imp member
    simp at inside
  cases same
  refine ⟨⟨words, gap, accessor, ⟨name, held, spelt⟩, before, _, enclosed, result⟩, blanks, rfl, rfl, rfl, rfl, ?_⟩
  have params : second = second.takeWhile (· != ')') ++ second.dropWhile (· != ')') :=
    List.takeWhile_append_dropWhile.symm
  rw [after?_exact.mp closed, marked, back] at params
  rw [whole, front, after?_exact.mp opened, FunctionLine.signatureText]
  simp only [List.append_assoc]
  exact congrArg (fun tail => name ++ (before.text ++ ("(".toList ++ tail))) params

theorem method?_parts {text rest : Text} {signature : Signature} (read : method? text = some (signature, rest)) :
    ∃ (front : Blanks) (line : FunctionLine) (back : Blanks), line.declaration = .method signature ∧
      text = front.text ++ (line.text ++ (back.text ++ rest)) := by
  obtain ⟨front, leading⟩ := skipBlanks_parts text
  obtain ⟨words, first, found, opened⟩ := attributes_parts (skipBlanks text)
  simp only [method?, found, Option.bind_eq_bind, Option.bind_eq_some_iff] at read
  obtain ⟨second, word, header⟩ := read
  obtain ⟨gap, spaced, _⟩ := spaced?_parts word
  obtain ⟨line, back, sameWords, sameGap, plain, same, whole⟩ := signature?_parts words gap none header
  refine ⟨front, line, back, ?_, ?_⟩
  · rw [FunctionLine.declaration, plain, FunctionLine.signature, sameWords, same]
  · rw [leading, opened, spaced, whole, FunctionLine.text, plain, sameWords, sameGap]
    simp

theorem accessor?_parts {text rest : Text} {declaration : Declaration}
    (read : accessor? text = some (declaration, rest)) :
    ∃ (line : FunctionLine) (back : Blanks), line.declaration = declaration ∧
      text = line.text ++ (back.text ++ rest) := by
  obtain ⟨words, first, found, opened⟩ := attributes_parts text
  simp only [accessor?, found, Option.bind_eq_bind, Option.bind_eq_some_iff] at read
  obtain ⟨second, word, accessor⟩ := read
  obtain ⟨gap, spaced, _⟩ := spaced?_parts word
  have assembled : ∀ (keyword : AccessorWord) (named : Text) (signature : Signature),
      spaced? keyword.text second = some named →
      signature? (Access.ofAttributes words.words) named = some (signature, rest) →
      ∃ (line : FunctionLine) (back : Blanks) (space : Gap), line.accessor = some (keyword, space) ∧
        line.signature = signature ∧ text = line.text ++ (back.text ++ rest) := by
    intro keyword named signature spelt header
    obtain ⟨space, between, _⟩ := spaced?_parts spelt
    obtain ⟨line, back, sameWords, sameGap, given, same, whole⟩ :=
      signature?_parts words gap (some (keyword, space)) header
    refine ⟨line, back, space, given, ?_, ?_⟩
    · rw [FunctionLine.signature, sameWords, same]
    · rw [opened, spaced, between, whole, FunctionLine.text, given, sameWords, sameGap]
      simp
  split at accessor
  · rename_i named get
    obtain ⟨⟨signature, behind⟩, header, same⟩ := Option.map_eq_some_iff.mp accessor
    cases same
    obtain ⟨line, back, space, given, value, whole⟩ := assembled .get named signature get header
    exact ⟨line, back, by rw [FunctionLine.declaration, given, value], whole⟩
  · obtain ⟨named, set, found⟩ := Option.bind_eq_some_iff.mp accessor
    obtain ⟨⟨signature, behind⟩, header, same⟩ := Option.map_eq_some_iff.mp found
    cases same
    obtain ⟨line, back, space, given, value, whole⟩ := assembled .set named signature set header
    exact ⟨line, back, by rw [FunctionLine.declaration, given, value], whole⟩

theorem propertyEnd?_parts {text rest : Text} (read : propertyEnd? text = some rest) :
    ∃ part : Option ValuePart, text = part.elim [] ValuePart.text ++ (";".toList ++ rest) := by
  unfold propertyEnd? at read
  split at read
  · rename_i behind close
    cases read
    refine ⟨none, ?_⟩
    rw [after?_exact.mp close]
    rfl
  · obtain ⟨first, equals, close⟩ := Option.bind_eq_some_iff.mp read
    obtain ⟨before, front⟩ := skipBlanks_parts text
    obtain ⟨behind, back⟩ := skipBlanks_parts first
    have single : ∀ c ∈ (skipBlanks first).takeWhile (fun c => c != ';' && c != '\n'), c ≠ ';' ∧ c ≠ '\n' := by
      intro c member
      have inside := List.mem_takeWhile_imp member
      simpa using inside
    have value : skipBlanks first = (skipBlanks first).takeWhile (fun c => c != ';' && c != '\n') ++
        (skipBlanks first).dropWhile (fun c => c != ';' && c != '\n') :=
      List.takeWhile_append_dropWhile.symm
    rw [after?_exact.mp close] at value
    have whole : text = before.text ++ ("=".toList ++ (behind.text ++ skipBlanks first)) := by
      rw [← back, ← after?_exact.mp equals]
      exact front
    refine ⟨some ⟨before, behind, _, single⟩, ?_⟩
    simp only [Option.elim_some, ValuePart.text, List.append_assoc]
    exact whole.trans (congrArg (fun tail => before.text ++ ("=".toList ++ (behind.text ++ tail))) value)

theorem property?_parts {text rest : Text} {var : Property} (read : property? text = some (var, rest)) :
    ∃ line : PropertyLine, line.property = var ∧ text = line.text ++ rest := by
  obtain ⟨words, first, found, opened⟩ := attributes_parts text
  simp only [property?, found, Option.bind_eq_bind, Option.bind_eq_some_iff] at read
  obtain ⟨second, word, ⟨name, third⟩, run, fourth, close, same⟩ := read
  obtain ⟨gap, spaced, _⟩ := spaced?_parts word
  obtain ⟨whole, held, spelt, _⟩ := run?_parts.mp run
  obtain ⟨type, behind, typed, marked⟩ := optional_parts (typeMark? QualifiedName.whole?) third
    (fun part : TypePart => part.name.value) TypePart.text
    fun _ _ => typeMark?_parts fun _ _ _ => QualifiedName.whole?_parts
  simp only [typed] at close same
  obtain ⟨value, ended⟩ := propertyEnd?_parts close
  cases same
  refine ⟨⟨words, gap, ⟨name, held, spelt⟩, type, value⟩, rfl, ?_⟩
  rw [opened, spaced, whole, marked, ended]
  simp [PropertyLine.text]

inductive Declaration.Spoken : Declaration → Prop where
  | importing (line : ImportLine) : Spoken (.importing line.target)
  | classHeader (line : ClassLine) : Spoken (.classHeader line.header)
  | interfaceHeader (line : InterfaceLine) : Spoken (.interfaceHeader line.header)
  | function (line : FunctionLine) : Spoken line.declaration
  | property (line : PropertyLine) : Spoken (.property line.property)

theorem Form.read?_spoken {form : Form} {text rest : Text} {declaration : Declaration}
    (read : form.read? text = some (declaration, rest)) : declaration.Spoken := by
  cases form with
  | importing =>
    obtain ⟨⟨_, _⟩, found, same⟩ := Option.map_eq_some_iff.mp read
    cases same
    obtain ⟨line, rfl, _⟩ := importing?_parts found
    exact .importing line
  | classHeader =>
    obtain ⟨⟨_, _⟩, found, same⟩ := Option.map_eq_some_iff.mp read
    cases same
    obtain ⟨line, rfl, _⟩ := classHeader?_parts found
    exact .classHeader line
  | interfaceHeader =>
    obtain ⟨⟨_, _⟩, found, same⟩ := Option.map_eq_some_iff.mp read
    cases same
    obtain ⟨line, rfl, _⟩ := interfaceHeader?_parts found
    exact .interfaceHeader line
  | method =>
    obtain ⟨⟨_, _⟩, found, same⟩ := Option.map_eq_some_iff.mp read
    cases same
    obtain ⟨_, line, _, declared, _⟩ := method?_parts found
    rw [← declared]
    exact .function line
  | accessor =>
    obtain ⟨line, _, declared, _⟩ := accessor?_parts read
    rw [← declared]
    exact .function line
  | property =>
    obtain ⟨⟨_, _⟩, found, same⟩ := Option.map_eq_some_iff.mp read
    cases same
    obtain ⟨line, rfl, _⟩ := property?_parts found
    exact .property line

theorem Declaration.read?_spoken {text rest : Text} {declaration : Declaration}
    (read : Declaration.read? text = some (declaration, rest)) : declaration.Spoken := by
  obtain ⟨form, _, found⟩ := List.exists_of_findSome?_eq_some read
  exact Form.read?_spoken found

end Intrinsics
