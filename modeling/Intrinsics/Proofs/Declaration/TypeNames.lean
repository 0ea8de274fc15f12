import Intrinsics.Proofs.Declaration.Parts

namespace Intrinsics
open Text

-- Which runs of name characters and dots name a type. The dots at the end of a run are no part
-- of a name, unless the whole run has to be one.

def NamesType (run : Text) : Prop :=
  run ≠ [] ∧ ('.' ∉ run ∨ ∃ package name, run = package ++ '.' :: name ∧ package ≠ [] ∧ '.' ∉ name)

theorem NamesType.append {front : Text} (names : NamesType front) (more : Text) : NamesType (front ++ more) := by
  obtain ⟨held, dots⟩ := names
  refine ⟨List.append_ne_nil_of_left_ne_nil held more, ?_⟩
  cases cut : splitLast '.' more with
  | some parts =>
    obtain ⟨package, name⟩ := parts
    obtain ⟨whole, free⟩ := splitLast_exact.mp cut
    refine .inr ⟨front ++ package, name, ?_, List.append_ne_nil_of_left_ne_nil held package, free⟩
    rw [whole, List.append_assoc]
  | none =>
    have free := splitLast_none.mp cut
    rcases dots with bare | ⟨package, name, whole, held, own⟩
    · left
      simp [bare, free]
    · refine .inr ⟨package, name ++ more, ?_, held, by simp [own, free]⟩
      rw [whole, List.append_assoc, List.cons_append]

namespace QualifiedName

theorem ofRun?_free {run : Text} {type : QualifiedName} (named : ofRun? run = some type) :
    '.' ∉ type.name ∧ NamesType run := by
  have held := ofRun?_nonempty named
  unfold ofRun? at named
  split at named
  · rename_i missing
    have free := splitLast_none.mp missing
    split at named
    · cases named
    · cases named
      exact ⟨free, held, .inl free⟩
  · rename_i package name cut
    obtain ⟨whole, free⟩ := splitLast_exact.mp cut
    split at named
    · cases named
    · rename_i both
      cases named
      simp only [Bool.or_eq_true, List.isEmpty_iff, not_or] at both
      exact ⟨free, held, .inr ⟨package, name, whole, both.1, free⟩⟩

theorem ofRun?_names {run : Text} (names : NamesType run) (ends : ∀ front, run ≠ front ++ ['.']) :
    ∃ type, ofRun? run = some type := by
  obtain ⟨held, free | ⟨package, name, whole, packaged, free⟩⟩ := names
  · exact ⟨⟨[], run⟩, by simp [ofRun?, splitLast_none.mpr free, held]⟩
  · have named : name ≠ [] := by
      rintro rfl
      exact ends package whole
    refine ⟨⟨package, name⟩, ?_⟩
    rw [whole, ofRun?, splitLast_append package free]
    simp [packaged, named]

-- Text and last part settle a name: the package is what remains in front of the last dot.
theorem eq_of_text {first second : QualifiedName} (same : first.text = second.text) (free : '.' ∉ first.name)
    (other : '.' ∉ second.name) : first = second := by
  have cut : ∀ name : QualifiedName, '.' ∉ name.name →
      splitLast '.' name.text = if name.package.isEmpty then none else some (name.package, name.name) := by
    intro name own
    unfold QualifiedName.text
    split
    · exact splitLast_none.mpr own
    · exact splitLast_append name.package own
  obtain ⟨package, name⟩ := first
  obtain ⟨packaged, named⟩ := second
  have both := (cut _ free).symm.trans ((congrArg (splitLast '.') same).trans (cut _ other))
  cases package with
  | nil =>
    cases packaged with
    | nil => exact congrArg (QualifiedName.mk []) same
    | cons c packaged => simp at both
  | cons c package =>
    cases packaged with
    | nil => simp at both
    | cons d packaged =>
      obtain ⟨⟨rfl, rfl⟩, rfl⟩ : (c = d ∧ package = packaged) ∧ name = named := by simpa using both
      rfl

theorem ofRun?_dropTrailing {run : Text} {type : QualifiedName} :
    ofRun? (dropTrailing '.' run) = some type ↔
      NamesType (dropTrailing '.' run) ∧ type.text = dropTrailing '.' run ∧ '.' ∉ type.name := by
  constructor
  · intro named
    obtain ⟨free, names⟩ := ofRun?_free named
    exact ⟨names, text_ofRun? named, free⟩
  · rintro ⟨names, whole, free⟩
    obtain ⟨found, named⟩ := ofRun?_names names (dropTrailing_last '.' run)
    rw [named, eq_of_text ((text_ofRun? named).trans whole.symm) (ofRun?_free named).1 free]

theorem leading?_run {run tail : Text} (spelt : ∀ c ∈ run, isQualifiedPart c = true)
    (maximal : Stops isQualifiedPart tail) {type : QualifiedName} {last : Text} :
    leading? (run ++ tail) = some (type, last) ↔
      (NamesType (dropTrailing '.' run) ∧ type.text = dropTrailing '.' run ∧ '.' ∉ type.name) ∧
        last = run.drop (dropTrailing '.' run).length ++ tail := by
  have begins := dropTrailing_begins '.' run
  have dropped : (run ++ tail).drop (dropTrailing '.' run).length =
      run.drop (dropTrailing '.' run).length ++ tail := List.drop_append_of_le_length begins.length_le
  rw [← ofRun?_dropTrailing, leading?, takeWhile_run spelt maximal, dropped]
  cases QualifiedName.ofRun? (dropTrailing '.' run) with
  | none => simp
  | some found => simp [eq_comm]

end QualifiedName

theorem dropTrailing_append {mark : Char} {front : Text} (kept : dropTrailing mark front = front) (back : Text) :
    dropTrailing mark (front ++ back) = front ++ dropTrailing mark back := by
  unfold dropTrailing at kept ⊢
  rw [List.reverse_append, List.dropWhile_append]
  split
  · rename_i empty
    rw [kept, List.isEmpty_iff.mp empty, List.reverse_nil, List.append_nil]
  · rw [List.reverse_append, List.reverse_reverse]

-- A name stays one whatever follows it: only the dots at the end are left.
theorem QualifiedName.leading?_extended (name : SpeltName) (rest : Text) :
    ∃ type last, leading? (name.text ++ rest) = some (type, last) := by
  have own : NamesType name.text := (ofRun?_free name.ofRun?_text).2
  have run : (name.text ++ rest).takeWhile isQualifiedPart = name.text ++ rest.takeWhile isQualifiedPart :=
    List.takeWhile_append_of_pos name.text_spelt
  have names : NamesType (dropTrailing '.' (name.text ++ rest.takeWhile isQualifiedPart)) := by
    rw [dropTrailing_append name.dropTrailing_text]
    exact own.append _
  obtain ⟨type, named⟩ := ofRun?_names names (dropTrailing_last '.' _)
  simp only [leading?, run, named, Option.bind_eq_bind, Option.bind_some]
  exact ⟨type, _, rfl⟩

end Intrinsics
