import Intrinsics.Text.Blank
import Intrinsics.Text.Delimited

namespace Intrinsics
open Text

inductive Skip where
  | blanks | lineComment | blockComment | string | inclusion
  deriving DecidableEq

namespace Skip

def trivia : List Skip := [.blanks, .lineComment, .blockComment, .string]

def all : List Skip := trivia ++ [.inclusion]

def name : Skip → String
  | .blanks => "whitespace"
  | .lineComment => "line-comment"
  | .blockComment => "block-comment"
  | .string => "string"
  | .inclusion => "include"

def ofName? (name : String) : Option Skip := all.find? (·.name == name)

-- Unlike a comment among tokens, a line comment here takes its newline along.
def read? : Skip → Text → Option Text
  | .blanks, text => passBlanks? text
  | .lineComment, text => (lineComment? text).map fun (_, rest) => rest.drop 1
  | .blockComment, text => (blockComment? text).map fun (_, rest) => rest
  | .string, text =>
    match quoted? '"' text with
    | some (_, rest) => some rest
    | none => (quoted? '\'' text).map fun (_, rest) => rest
  | .inclusion, text => do
    let text ← after? "#include".toList text
    let text ← passBlanks? text
    after? ";".toList (text.dropWhile fun c => c != ';' && c != '\n')

def length? (skip : Skip) (text : Text) : Option Nat :=
  (skip.read? text).map fun rest => byteLength text - byteLength rest

theorem read?_behind {skip : Skip} {text rest : Text} (read : skip.read? text = some rest) :
    Behind rest text := by
  cases skip with
  | blanks => exact passBlanks?_behind read
  | lineComment =>
    obtain ⟨⟨body, behind⟩, found, same⟩ := Option.map_eq_some_iff.mp read
    cases same
    rw [lineComment?_append found]
    exact .of_suffix (List.drop_suffix 1 behind) ⟨'/' :: '/' :: body, by simp, by simp⟩
  | blockComment =>
    obtain ⟨⟨body, behind⟩, found, same⟩ := Option.map_eq_some_iff.mp read
    cases same
    rw [blockComment?_append found]
    exact ⟨'/' :: '*' :: (body ++ ['*', '/']), by simp, by simp⟩
  | string =>
    simp only [Skip.read?] at read
    split at read
    · rename_i body behind found
      cases read
      rw [quoted?_append found]
      exact ⟨'"' :: (body ++ ['"']), by simp, by simp⟩
    · obtain ⟨⟨body, behind⟩, found, same⟩ := Option.map_eq_some_iff.mp read
      cases same
      rw [quoted?_append found]
      exact ⟨'\'' :: (body ++ ['\'']), by simp, by simp⟩
  | inclusion =>
    simp only [Skip.read?, Option.bind_eq_bind, Option.bind_eq_some_iff] at read
    obtain ⟨first, word, second, blanks, close⟩ := read
    exact .of_suffix ((after?_suffix close).trans (List.dropWhile_suffix _))
      ((passBlanks?_behind blanks).after_suffix (after?_suffix word))

end Skip
end Intrinsics
