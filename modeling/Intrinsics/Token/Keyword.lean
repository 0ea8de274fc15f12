import Intrinsics.Text.Word

namespace Intrinsics

def keywords : List Text :=
  ["as", "break", "case", "catch", "class", "const", "continue", "default", "dynamic", "delete",
   "do", "else", "extends", "false", "finally", "for", "function", "if", "implements", "import",
   "in", "instanceof", "interface", "intrinsic", "new", "null", "private", "public", "return",
   "static", "super", "switch", "this", "throw", "true", "try", "typeof", "use", "var", "void",
   "while", "with"].map String.toList

-- One word at most can stand here: of two words where one begins the other, the shorter is
-- followed by a letter of the longer. The order of the words is therefore free.
def keywordAmong? (words : List Text) (text : Text) : Option (Text × Text) :=
  words.findSome? fun word =>
    match Text.after? word text with
    | some [] => some (word, [])
    | some (c :: rest) => if Text.isWordPart c then none else some (word, c :: rest)
    | none => none

def keyword? : Text → Option (Text × Text) := keywordAmong? keywords

theorem keywordAmong?_bounded {words : List Text} {text word rest : Text}
    (read : keywordAmong? words text = some (word, rest)) :
    word ∈ words ∧ text = word ++ rest ∧ ∀ c ∈ rest.head?, Text.isWordPart c = false := by
  obtain ⟨candidate, member, found⟩ := List.exists_of_findSome?_eq_some read
  split at found
  · rename_i behind
    cases found
    exact ⟨member, Text.after?_exact.mp behind, by simp⟩
  · rename_i c tail behind
    split at found
    · cases found
    · rename_i outside
      cases found
      exact ⟨member, Text.after?_exact.mp behind, by simpa using outside⟩
  · cases found

theorem keyword?_exact {text word rest : Text} (read : keyword? text = some (word, rest)) :
    word ∈ keywords ∧ text = word ++ rest := by
  obtain ⟨member, whole, _⟩ := keywordAmong?_bounded read
  exact ⟨member, whole⟩

theorem keywords_nonempty : ∀ word ∈ keywords, word ≠ [] := by decide

end Intrinsics
