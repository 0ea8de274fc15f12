import Intrinsics.Declaration.Reader

namespace Intrinsics
open Text

-- Every form takes something: a declaration leaves a rest that lies behind its own text.

theorem spaced?_behind {word text rest : Text} (read : spaced? word text = some rest) :
    Behind rest text := by
  obtain ⟨middle, word, blanks⟩ := Option.bind_eq_some_iff.mp read
  exact (passBlanks?_behind blanks).after_suffix (after?_suffix word)

theorem skipSpaced_suffix (word text : Text) : skipSpaced word text <:+ text := by
  unfold skipSpaced
  cases read : spaced? word text with
  | none => exact List.suffix_rfl
  | some rest => exact (spaced?_behind read).suffix

theorem importing?_behind {text rest : Text} {target : QualifiedName}
    (read : importing? text = some (target, rest)) : Behind rest text := by
  simp only [importing?, Option.bind_eq_bind, Option.bind_eq_some_iff] at read
  obtain ⟨first, word, found⟩ := read
  split at found
  · simp only [Option.bind_eq_some_iff] at found
    obtain ⟨⟨name, behindName⟩, run, last, close, same⟩ := found
    cases same
    have toName : behindName <:+ first :=
      (run?_behind run).suffix.trans ((List.drop_suffix _ _).trans (skipBlanks_suffix first))
    exact .of_suffix (((after?_suffix close).trans (skipBlanks_suffix _)).trans toName)
      (after?_behind (by decide) word)
  · cases found

theorem dynamicMark?_suffix {text rest : Text} {mark : Unit}
    (read : dynamicMark? text = some (mark, rest)) : rest <:+ text := by
  simp only [dynamicMark?, Option.bind_eq_bind, Option.bind_eq_some_iff] at read
  obtain ⟨middle, word, set⟩ := read
  split at set
  · cases set
  · split at set
    · cases set
      exact (List.suffix_cons _ _).trans (after?_suffix word)
    · cases set

theorem baseName?_suffix {name? : Text → Option (QualifiedName × Text)} {text rest : Text}
    {base : QualifiedName}
    (named : ∀ text base rest, name? text = some (base, rest) → Behind rest text)
    (read : baseName? name? text = some (base, rest)) : rest <:+ text := by
  simp only [baseName?, Option.bind_eq_bind, Option.bind_eq_some_iff] at read
  obtain ⟨first, blanks, second, word, name⟩ := read
  exact (named _ _ _ name).suffix.trans
    ((spaced?_behind word).suffix.trans (passBlanks?_behind blanks).suffix)

theorem interfaceList_append (commaAllowed : Bool) (text : Text) :
    (interfaceList commaAllowed text).1 ++ (interfaceList commaAllowed text).2 = text := by
  fun_induction interfaceList commaAllowed text <;> simp_all

theorem interfaces?_suffix {text list rest : Text}
    (read : interfaces? text = some (list, rest)) : rest <:+ text := by
  simp only [interfaces?, Option.bind_eq_bind, Option.bind_eq_some_iff] at read
  obtain ⟨first, blanks, second, word, found⟩ := read
  have whole := interfaceList_append false second
  split at found
  · cases found
  · rename_i c taken behind parts
    cases found
    rw [parts] at whole
    exact List.IsSuffix.trans ⟨c :: taken, whole⟩
      ((spaced?_behind word).suffix.trans (passBlanks?_behind blanks).suffix)

theorem classHeader?_behind {text rest : Text} {header : ClassHeader}
    (read : classHeader? text = some (header, rest)) : Behind rest text := by
  simp only [classHeader?, Option.bind_eq_bind, Option.bind_eq_some_iff] at read
  obtain ⟨first, word, ⟨name, second⟩, named, third, close, same⟩ := read
  cases same
  have front := (optional_suffix _ fun _ _ => dynamicMark?_suffix).trans
    (skipSpaced_suffix "intrinsic".toList text)
  have base := optional_suffix second fun _ _ =>
    baseName?_suffix fun _ _ _ => QualifiedName.whole?_behind
  have list := (optional_suffix _ fun _ _ => interfaces?_suffix).trans base
  have tail := ((after?_suffix close).trans (skipBlanks_suffix _)).trans list
  exact (Behind.of_suffix (tail.trans (QualifiedName.whole?_behind named).suffix)
    (spaced?_behind word)).after_suffix front

theorem interfaceHeader?_behind {text rest : Text} {header : InterfaceHeader}
    (read : interfaceHeader? text = some (header, rest)) : Behind rest text := by
  simp only [interfaceHeader?, Option.bind_eq_bind, Option.bind_eq_some_iff] at read
  obtain ⟨first, word, ⟨name, second⟩, named, same⟩ := read
  cases same
  have base := optional_suffix second fun _ _ =>
    baseName?_suffix fun _ _ _ => QualifiedName.leading?_behind
  exact (Behind.of_suffix (base.trans (QualifiedName.leading?_behind named).suffix)
    (spaced?_behind word)).after_suffix (skipSpaced_suffix _ text)

theorem attribute?_suffix {text rest word : Text}
    (read : attribute? text = some (word, rest)) : rest <:+ text := by
  obtain ⟨candidate, _, found⟩ := List.exists_of_findSome?_eq_some read
  obtain ⟨behind, spaced, same⟩ := Option.map_eq_some_iff.mp found
  cases same
  exact (spaced?_behind spaced).suffix

theorem attributes_suffix (text : Text) : (attributes text).2 <:+ text :=
  (optional_suffix _ fun _ _ => attribute?_suffix).trans (optional_suffix _ fun _ _ => attribute?_suffix)

theorem typeMark?_suffix {name? : Text → Option (QualifiedName × Text)} {text rest : Text}
    {type : QualifiedName}
    (named : ∀ text type rest, name? text = some (type, rest) → Behind rest text)
    (read : typeMark? name? text = some (type, rest)) : rest <:+ text := by
  simp only [typeMark?, Option.bind_eq_bind, Option.bind_eq_some_iff] at read
  obtain ⟨first, colon, name⟩ := read
  exact ((named _ _ _ name).suffix.trans (skipBlanks_suffix _)).trans
    ((after?_suffix colon).trans (skipBlanks_suffix _))

theorem signature?_suffix {access : Access} {text rest : Text} {signature : Signature}
    (read : signature? access text = some (signature, rest)) : rest <:+ text := by
  simp only [signature?, Option.bind_eq_bind, Option.bind_eq_some_iff] at read
  obtain ⟨⟨name, first⟩, run, second, opened, third, closed, same⟩ := read
  cases same
  have result := optional_suffix third fun _ _ =>
    typeMark?_suffix fun _ _ _ => QualifiedName.leading?_behind
  have params := (after?_suffix closed).trans (List.dropWhile_suffix _)
  have front := ((after?_suffix opened).trans (skipBlanks_suffix _)).trans (run?_behind run).suffix
  exact ((skipBlanks_suffix _).trans result).trans (params.trans front)

theorem method?_behind {text rest : Text} {signature : Signature}
    (read : method? text = some (signature, rest)) : Behind rest text := by
  simp only [method?, Option.bind_eq_bind, Option.bind_eq_some_iff] at read
  obtain ⟨first, word, header⟩ := read
  exact (Behind.of_suffix (signature?_suffix header) (spaced?_behind word)).after_suffix
    ((attributes_suffix _).trans (skipBlanks_suffix text))

theorem accessor?_behind {text rest : Text} {declaration : Declaration}
    (read : accessor? text = some (declaration, rest)) : Behind rest text := by
  simp only [accessor?, Option.bind_eq_bind, Option.bind_eq_some_iff] at read
  obtain ⟨first, word, accessor⟩ := read
  have front := (spaced?_behind word).after_suffix (attributes_suffix text)
  split at accessor
  · rename_i named get
    obtain ⟨⟨signature, behind⟩, header, same⟩ := Option.map_eq_some_iff.mp accessor
    cases same
    exact .of_suffix ((signature?_suffix header).trans (spaced?_behind get).suffix) front
  · obtain ⟨named, set, found⟩ := Option.bind_eq_some_iff.mp accessor
    obtain ⟨⟨signature, behind⟩, header, same⟩ := Option.map_eq_some_iff.mp found
    cases same
    exact .of_suffix ((signature?_suffix header).trans (spaced?_behind set).suffix) front

theorem propertyEnd?_suffix {text rest : Text} (read : propertyEnd? text = some rest) : rest <:+ text := by
  unfold propertyEnd? at read
  split at read
  · rename_i behind close
    cases read
    exact after?_suffix close
  · obtain ⟨first, equals, close⟩ := Option.bind_eq_some_iff.mp read
    exact ((after?_suffix close).trans ((List.dropWhile_suffix _).trans (skipBlanks_suffix _))).trans
      ((after?_suffix equals).trans (skipBlanks_suffix _))

theorem property?_behind {text rest : Text} {var : Property}
    (read : property? text = some (var, rest)) : Behind rest text := by
  simp only [property?, Option.bind_eq_bind, Option.bind_eq_some_iff] at read
  obtain ⟨first, word, ⟨name, second⟩, run, third, close, same⟩ := read
  cases same
  have type := optional_suffix second fun _ _ =>
    typeMark?_suffix fun _ _ _ => QualifiedName.whole?_behind
  have tail := ((propertyEnd?_suffix close).trans type).trans (run?_behind run).suffix
  exact (Behind.of_suffix tail (spaced?_behind word)).after_suffix (attributes_suffix text)

theorem Form.read?_behind {form : Form} {text rest : Text} {declaration : Declaration}
    (read : form.read? text = some (declaration, rest)) : Behind rest text := by
  cases form with
  | importing =>
    obtain ⟨⟨_, _⟩, found, same⟩ := Option.map_eq_some_iff.mp read
    cases same
    exact importing?_behind found
  | classHeader =>
    obtain ⟨⟨_, _⟩, found, same⟩ := Option.map_eq_some_iff.mp read
    cases same
    exact classHeader?_behind found
  | interfaceHeader =>
    obtain ⟨⟨_, _⟩, found, same⟩ := Option.map_eq_some_iff.mp read
    cases same
    exact interfaceHeader?_behind found
  | method =>
    obtain ⟨⟨_, _⟩, found, same⟩ := Option.map_eq_some_iff.mp read
    cases same
    exact method?_behind found
  | accessor => exact accessor?_behind read
  | property =>
    obtain ⟨⟨_, _⟩, found, same⟩ := Option.map_eq_some_iff.mp read
    cases same
    exact property?_behind found

theorem Declaration.read?_behind {text rest : Text} {declaration : Declaration}
    (read : Declaration.read? text = some (declaration, rest)) : Behind rest text := by
  obtain ⟨form, _, found⟩ := List.exists_of_findSome?_eq_some read
  exact Form.read?_behind found

end Intrinsics
