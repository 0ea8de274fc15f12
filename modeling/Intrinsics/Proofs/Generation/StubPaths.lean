import Intrinsics.Generation
import Intrinsics.Proofs.Path.Components
import Intrinsics.Proofs.Stub.RoundTrip

namespace Intrinsics
open Text

-- Where stubs are filed. Types are named in words and dots, so the path of a stub goes down from
-- the output by one name for each word and leads nowhere else.

-- A name that a type can have: words between dots, of which the last holds something.
structure TypeWords (typeName : Text) (ahead : List Text) (last : Text) : Prop where
  parts : typeName.splitOn '.' = ahead ++ [last]
  spelt : ∀ part ∈ typeName.splitOn '.', ∀ c ∈ part, isNamePart c = true
  held : last ≠ []

theorem SpeltName.typeWords (name : SpeltName) : ∃ ahead, TypeWords name.text ahead name.value.name := by
  have spelt : ∀ part ∈ name.text.splitOn '.', ∀ c ∈ part, isNamePart c = true := by
    intro part member c held
    obtain ⟨inside, other⟩ := mem_splitOn.mp ⟨part, member, held⟩
    have part := name.text_spelt c inside
    simpa [isQualifiedPart, other] using part
  have own := List.splitOn_eq_singleton (dot_free name.spelt)
  have parts : ∃ ahead, name.text.splitOn '.' = ahead ++ [name.value.name] := by
    unfold SpeltName.text QualifiedName.text
    split
    · exact ⟨[], own⟩
    · exact ⟨_, by rw [List.splitOn_append_cons_self, own]⟩
  obtain ⟨ahead, parts⟩ := parts
  exact ⟨ahead, parts, spelt, name.held⟩

theorem render_spelt {publicOnly : Bool} {source : Text} {type : QualifiedName}
    (rendered : (Stub.render publicOnly source).typeName = some type) : ∃ name : SpeltName, name.value = type := by
  rw [Stub.render_eq] at rendered
  obtain ⟨declaration, member, named⟩ := List.exists_of_findSome?_eq_some rendered
  have spoken := outline_spoken publicOnly source declaration (List.mem_reverse.mp member)
  cases spoken with
  | classHeader line => exact ⟨line.name, Option.some.inj named⟩
  | interfaceHeader line => exact ⟨line.name, Option.some.inj named⟩
  | importing | property => cases named
  | function line =>
    unfold FunctionLine.declaration at named
    split at named <;> cases named

theorem render_typeWords {publicOnly : Bool} {source : Text} {type : QualifiedName}
    (rendered : (Stub.render publicOnly source).typeName = some type) :
    ∃ ahead, TypeWords type.text ahead type.name := by
  obtain ⟨name, rfl⟩ := render_spelt rendered
  exact name.typeWords

def fileNames (ahead : List Text) (last : Text) : List Text :=
  ahead.filter (!·.isEmpty) ++ [last ++ ".as".toList]

namespace TypeWords

variable {typeName last : Text} {ahead : List Text}

theorem separate (words : TypeWords typeName ahead last) : ∀ part ∈ ahead ++ [last], '/' ∉ part := by
  intro part member
  rw [← words.parts] at member
  exact free_of_spelt (words.spelt part member) (by decide)

theorem dotless (words : TypeWords typeName ahead last) : ∀ part ∈ ahead ++ [last], '.' ∉ part := by
  intro part member
  rw [← words.parts] at member
  exact free_of_spelt (words.spelt part member) (by decide)

-- The extension is added to the path that the words give and takes nothing away.
theorem stubPath_appended (words : TypeWords typeName ahead last) (output : Path) :
    stubPath output typeName = (typeName.splitOn '.').foldl Path.push output ++ ".as".toList := by
  have single := words.separate last (by simp)
  obtain ⟨front, whole, _, closed⟩ := Path.push_parts (ahead.foldl Path.push output) (Path.isAbsolute_single single)
  rw [stubPath, words.parts, List.foldl_append, List.foldl_cons, List.foldl_nil, whole]
  exact Path.withExtension_named single words.held (words.dotless last (by simp)) closed "as".toList

theorem stubPath_pushed (words : TypeWords typeName ahead last) (output : Path) :
    stubPath output typeName = (ahead.foldl Path.push output).push (last ++ ".as".toList) := by
  have single := words.separate last (by simp)
  rw [words.stubPath_appended, words.parts, List.foldl_append, List.foldl_cons, List.foldl_nil,
    Path.push_append (Path.isAbsolute_single single) words.held]

theorem stubPath_plain (words : TypeWords typeName ahead last) (output : Path) :
    (stubPath output typeName).getLast? ≠ some '/' := by
  rw [words.stubPath_appended, List.getLast?_append]
  simp

-- Empty words leave no trace, not even in how the path is written.
theorem stubPath_fileNames (words : TypeWords typeName ahead last) (output : Path) :
    stubPath output typeName = (fileNames ahead last).foldl Path.push output := by
  rw [words.stubPath_pushed, Path.pushAll_held, fileNames, List.foldl_append, List.foldl_cons, List.foldl_nil]

theorem fileNames_ordinary (words : TypeWords typeName ahead last) :
    ∀ name ∈ fileNames ahead last, name ≠ [] ∧ name ≠ ['.'] ∧ name ≠ ['.', '.'] ∧ '/' ∉ name := by
  intro name member
  rcases List.mem_append.mp member with inside | file
  · obtain ⟨within, held⟩ := List.mem_filter.mp inside
    have dotless := words.dotless name (List.mem_append_left _ within)
    refine ⟨by simpa using held, ?_, ?_, words.separate name (List.mem_append_left _ within)⟩
    · rintro rfl
      simp at dotless
    · rintro rfl
      simp at dotless
  · rw [List.mem_singleton.mp file]
    have single := words.separate last (by simp)
    have longer : 3 < (last ++ ".as".toList).length := by
      have := List.length_pos_iff.mpr words.held
      simp
      omega
    refine ⟨?_, ?_, ?_, by simp [single]⟩
    all_goals
      intro same
      rw [same] at longer
      simp at longer

theorem stubPath_names (words : TypeWords typeName ahead last) (output : Path) :
    (stubPath output typeName).segments = output.segments ++ fileNames ahead last ∧
      (stubPath output typeName).isAbsolute = output.isAbsolute := by
  obtain ⟨names, absolute⟩ := Path.pushAll_names
    (fun part member => words.separate part (List.mem_append_left _ member)) output
  have file : last ++ ".as".toList ∈ fileNames ahead last := by simp [fileNames]
  obtain ⟨held, _, _, single⟩ := words.fileNames_ordinary _ file
  rw [words.stubPath_pushed, Path.segments_push (Path.isAbsolute_single single),
    Path.isAbsolute_push (Path.isAbsolute_single single), names, absolute, Path.segments_plain single held,
    fileNames, List.append_assoc]
  exact ⟨rfl, rfl⟩

theorem stubPath_eq {other final : Text} {before : List Text} {output : Path} (words : TypeWords typeName ahead last)
    (others : TypeWords other before final)
    (same : (stubPath output typeName).segments = (stubPath output other).segments) :
    stubPath output typeName = stubPath output other := by
  rw [(words.stubPath_names output).1, (others.stubPath_names output).1] at same
  rw [words.stubPath_fileNames, others.stubPath_fileNames, List.append_cancel_left same]

theorem stubPath_components (words : TypeWords typeName ahead last) (output : Path) :
    (stubPath output typeName).components = output.components ++ (fileNames ahead last).map .named := by
  obtain ⟨names, absolute⟩ := words.stubPath_names output
  have ordinary := words.fileNames_ordinary
  apply Path.components_behind absolute names
  · exact fun member => (ordinary _ member).2.1 rfl
  · exact fun member => (ordinary _ member).2.2.1 rfl

end TypeWords

-- Where the stub of a type goes: down from the output by the words of its name, empty ones left
-- out, the last with the extension behind it. None of these names climbs or starts anew.
structure FiledBelow (output : Path) (typeName : Text) (packages : List Text) (last : Text) : Prop where
  spelt : ∀ part ∈ typeName.splitOn '.', ∀ c ∈ part, isNamePart c = true
  ends : (typeName.splitOn '.').getLast? = some last
  held : last ≠ []
  parts : (typeName.splitOn '.').filter (!·.isEmpty) = packages ++ [last]
  appended : stubPath output typeName = (typeName.splitOn '.').foldl Path.push output ++ ".as".toList
  components : (stubPath output typeName).components =
    output.components ++ (packages ++ [last ++ ".as".toList]).map .named
  ordinary : ∀ name ∈ packages ++ [last ++ ".as".toList],
    name ≠ [] ∧ name ≠ ['.'] ∧ name ≠ ['.', '.'] ∧ '/' ∉ name

theorem TypeWords.filedBelow {typeName last : Text} {ahead : List Text} (words : TypeWords typeName ahead last)
    (output : Path) : FiledBelow output typeName (ahead.filter (!·.isEmpty)) last where
  spelt := words.spelt
  ends := by rw [words.parts, List.getLast?_concat]
  held := words.held
  parts := by simp [words.parts, words.held]
  appended := words.stubPath_appended output
  components := words.stubPath_components output
  ordinary := words.fileNames_ordinary

-- A name of words and single dots between them.
def FullName (typeName : Text) : Prop :=
  ∀ part ∈ typeName.splitOn '.', part ≠ [] ∧ ∀ c ∈ part, isNamePart c = true

theorem FullName.typeWords {typeName : Text} (full : FullName typeName) :
    ∃ ahead last, TypeWords typeName ahead last ∧
      fileNames ahead last = ahead ++ [last ++ ".as".toList] := by
  have split := List.dropLast_concat_getLast (List.splitOn_ne_nil '.' typeName)
  refine ⟨_, _, ⟨split.symm, fun part member => (full part member).2, ?_⟩, ?_⟩
  · exact (full _ (List.getLast_mem _)).1
  · rw [fileNames, List.filter_eq_self.mpr]
    intro part member
    have held := (full part (List.dropLast_subset _ member)).1
    simp [held]

-- Full names are the names on the path, so the path gives them back.
theorem FullName.eq_of_components {first second : Text} (one : FullName first) (other : FullName second)
    (output : Path) (same : (stubPath output first).components = (stubPath output second).components) :
    first = second := by
  obtain ⟨ahead, last, words, names⟩ := one.typeWords
  obtain ⟨before, final, others, rest⟩ := other.typeWords
  rw [words.stubPath_components, others.stubPath_components, names, rest] at same
  have equal := (List.map_inj_right fun _ _ => Path.Component.named.inj).mp (List.append_cancel_left same)
  obtain ⟨rfl, ends⟩ := List.append_inj' equal rfl
  obtain rfl : last = final := List.append_cancel_right (List.singleton_inj.mp ends)
  calc first = ['.'].intercalate (first.splitOn '.') := (List.intercalate_splitOn '.').symm
    _ = ['.'].intercalate (second.splitOn '.') := by rw [words.parts, others.parts]
    _ = second := List.intercalate_splitOn '.'

-- Whatever a source says, its stub is filed below the output, and types whose names have no empty
-- word are filed apart.
theorem stubPath_inside (output : Path) :
    (∀ publicOnly source type, (Stub.render publicOnly source).typeName = some type →
      ∃ packages last, FiledBelow output type.text packages last) ∧
    (∀ first second, FullName first → FullName second →
      (stubPath output first).components = (stubPath output second).components → first = second) := by
  constructor
  · intro publicOnly source type rendered
    obtain ⟨ahead, words⟩ := render_typeWords rendered
    exact ⟨_, _, words.filedBelow output⟩
  · intro first second one other same
    exact one.eq_of_components other output same

-- `class ..C` with its brace.
def dottedClass : ClassLine where
  intrinsic := none
  dynamic := none
  gap := .space
  name := ⟨⟨['.'], ['C']⟩, List.forall_mem_singleton.mpr (by decide), List.cons_ne_nil _ _,
    List.forall_mem_singleton.mpr (by decide)⟩
  base := none
  interfaces := none
  blanks := .empty

-- Dots in front leave the empty path empty, and packages keep types of one name apart.
theorem stubPath_inside_dotted :
    (Stub.render false "class ..C\x7b".toList).typeName = some ⟨['.'], ['C']⟩ ∧
      (∃ packages last, FiledBelow [] "..C".toList packages last) ∧
      stubPath [] "..C".toList = "C.as".toList ∧
      FullName "a.C".toList ∧ FullName "b.C".toList ∧
      (stubPath [] "a.C".toList).components ≠ (stubPath [] "b.C".toList).components := by
  have scanned : declarations "class ..C\x7b".toList = [.classHeader dottedClass.header] := by
    have passed := dottedClass.passes (Int.le_refl 0) []
    rw [declarations_eq_survey, show "class ..C\x7b".toList = dottedClass.text ++ [] from rfl, passed, survey_nil]
    rfl
  have rendered : (Stub.render false "class ..C\x7b".toList).typeName = some ⟨['.'], ['C']⟩ := by
    rw [Stub.render_eq, outline, scanned]
    rfl
  obtain ⟨packages, last, filed⟩ := (stubPath_inside []).1 false "class ..C\x7b".toList ⟨['.'], ['C']⟩ rendered
  have one : FullName "a.C".toList := by
    have parts : "a.C".toList.splitOn '.' = [['a'], ['C']] := rfl
    rw [FullName, parts]
    simp [isNamePart]
  have other : FullName "b.C".toList := by
    have parts : "b.C".toList.splitOn '.' = [['b'], ['C']] := rfl
    rw [FullName, parts]
    simp [isNamePart]
  refine ⟨rendered, ⟨packages, last, filed⟩, filed.appended.trans (by decide), one, other, ?_⟩
  intro same
  exact absurd ((stubPath_inside []).2 _ _ one other same) (by decide)

end Intrinsics
