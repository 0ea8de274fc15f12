import Intrinsics.Text.Word

namespace Intrinsics

structure QualifiedName where
  package : Text
  name : Text
  deriving DecidableEq

namespace QualifiedName
open Text

def text (q : QualifiedName) : Text :=
  if q.package.isEmpty then q.name else q.package ++ '.' :: q.name

-- A whole run of name characters and dots is cut at its last dot. Both sides must hold
-- something, so a run that ends in a dot, or whose only dot comes first, names nothing.
def ofRun? (run : Text) : Option QualifiedName :=
  match splitLast '.' run with
  | none => if run.isEmpty then none else some ⟨[], run⟩
  | some (package, name) => if package.isEmpty || name.isEmpty then none else some ⟨package, name⟩

def whole? (text : Text) : Option (QualifiedName × Text) := do
  let name ← ofRun? (text.takeWhile isQualifiedPart)
  return (name, text.dropWhile isQualifiedPart)

def leading? (text : Text) : Option (QualifiedName × Text) := do
  let run := dropTrailing '.' (text.takeWhile isQualifiedPart)
  let name ← ofRun? run
  return (name, text.drop run.length)

theorem text_ofRun? {run : Text} {q : QualifiedName} (named : ofRun? run = some q) : q.text = run := by
  unfold ofRun? at named
  split at named
  · split at named
    · cases named
    · cases named; simp [QualifiedName.text]
  · rename_i package name found
    split at named
    · cases named
    · rename_i held
      cases named
      have nonempty : package.isEmpty = false := by simp_all
      simp [QualifiedName.text, nonempty, (splitLast_exact.mp found).1]

theorem ofRun?_nonempty {run : Text} {q : QualifiedName} (named : ofRun? run = some q) : run ≠ [] := by
  rintro rfl
  cases named

theorem whole?_behind {text rest : Text} {q : QualifiedName}
    (read : whole? text = some (q, rest)) : Behind rest text := by
  obtain ⟨name, named, same⟩ := Option.bind_eq_some_iff.mp read
  cases same
  exact ⟨_, ofRun?_nonempty named, List.takeWhile_append_dropWhile.symm⟩

theorem leadingRun_begins (text : Text) : dropTrailing '.' (text.takeWhile isQualifiedPart) <+: text :=
  (dropTrailing_begins '.' _).trans <| List.takeWhile_prefix isQualifiedPart

theorem leading?_behind {text rest : Text} {q : QualifiedName}
    (read : leading? text = some (q, rest)) : Behind rest text := by
  obtain ⟨name, named, same⟩ := Option.bind_eq_some_iff.mp read
  cases same
  exact ⟨_, ofRun?_nonempty named, (List.prefix_iff_eq_append.mp (leadingRun_begins text)).symm⟩

end QualifiedName
end Intrinsics
