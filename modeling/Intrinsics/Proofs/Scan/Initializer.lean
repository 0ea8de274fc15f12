import Intrinsics.Proofs.Scan.Lines

namespace Intrinsics
open Text

-- The value of a property, cut into string literals, block comments and other characters. A
-- scan does not look into a value: it ends at the first semicolon, wherever that stands.

inductive ValuePiece where
  | string (quote : Char) (body : Text) (opened : isQuote quote = true) (written : QuotedText quote body)
  | comment (body : Text) (single : ¬ ['*', '/'] <:+: body)
  | plain (c : Char) (allowed : (c != ';' && !isQuote c && c != '/') = true)

namespace ValuePiece

def text : ValuePiece → Text
  | .string quote body _ _ => quote :: (body ++ [quote])
  | .comment body _ => '/' :: '*' :: (body ++ ['*', '/'])
  | .plain c _ => [c]

end ValuePiece

structure Initializer where
  pieces : List ValuePiece
  single : ∀ piece ∈ pieces, '\n' ∉ piece.text

namespace Initializer

def text (value : Initializer) : Text := value.pieces.flatMap ValuePiece.text

theorem text_single (value : Initializer) : '\n' ∉ value.text := by
  intro newline
  obtain ⟨piece, member, held⟩ := List.mem_flatMap.mp newline
  exact value.single piece member held

end Initializer

theorem Attributes.none_few : ([] : List (AttributeWord × Gap)).length ≤ 2 := Nat.zero_le 2

def Attributes.none : Attributes := ⟨[], none_few⟩

def assignment (name type : PlainName) (value : Text) : Text :=
  "var ".toList ++ (name.text ++ (":".toList ++ (type.text ++ (" = ".toList ++ (value ++ ";".toList)))))

def assigned (name type : PlainName) : Declaration :=
  .property ⟨⟨.exposed, false⟩, name.text, some ⟨[], type.text⟩⟩

def assignmentLine (name type : PlainName) (value : Text) (inside : ∀ c ∈ value, c ≠ ';' ∧ c ≠ '\n') :
    PropertyLine :=
  ⟨.none, .space, name, some ⟨.empty, .empty, type.unpackaged⟩,
    some ⟨Gap.space.toBlanks, Gap.space.toBlanks, value, inside⟩⟩

-- Up to its first semicolon a value can hold whatever fits on a line.
theorem declarations_assignment (name type : PlainName) {value : Text}
    (unended : ';' ∉ value) (single : '\n' ∉ value) (rest : Text) :
    declarations (assignment name type value ++ rest) = assigned name type :: declarations rest := by
  have inside : ∀ c ∈ value, c ≠ ';' ∧ c ≠ '\n' := by
    intro c member
    exact ⟨fun same => unended (same ▸ member), fun same => single (same ▸ member)⟩
  have written : (assignmentLine name type value inside).text = assignment name type value := rfl
  rw [declarations_eq_survey, declarations_eq_survey, ← written,
    (assignmentLine name type value inside).passes (Int.le_refl 0)]
  rfl

theorem assignment_append (name type : PlainName) (first second rest : Text) :
    assignment name type (first ++ ';' :: second) ++ rest =
      assignment name type first ++ (second ++ ';' :: rest) := by
  change ("var ".toList ++ (name.text ++ (":".toList ++ (type.text ++ (" = ".toList ++
    ((first ++ ';' :: second) ++ [';'])))))) ++ rest = ("var ".toList ++ (name.text ++ (":".toList ++
      (type.text ++ (" = ".toList ++ (first ++ [';'])))))) ++ (second ++ ';' :: rest)
  simp only [List.append_assoc, List.cons_append, List.nil_append]

-- Strings and comments hide braces, quotes and keywords, but not their semicolons. The
-- property is shown either way; a scan then goes on behind the first semicolon, which is
-- the end of the property only if no string or comment holds one.
theorem declarations_initializer (name type : PlainName) (value : Initializer) (rest : Text) :
    ((∀ piece ∈ value.pieces, ';' ∉ piece.text) →
      declarations (assignment name type value.text ++ rest) = assigned name type :: declarations rest) ∧
    ∀ first second, value.text = first ++ ';' :: second → ';' ∉ first →
      declarations (assignment name type value.text ++ rest) =
        assigned name type :: declarations (second ++ ';' :: rest) := by
  constructor
  · intro unended
    apply declarations_assignment name type _ value.text_single
    intro semicolon
    obtain ⟨piece, member, held⟩ := List.mem_flatMap.mp semicolon
    exact unended piece member held
  · intro first second cut unended
    have single := value.text_single
    rw [cut] at single ⊢
    rw [assignment_append]
    exact declarations_assignment name type unended
      (fun newline => single (List.mem_append_left _ newline)) _

theorem QuotedText.of_plain {quote : Char} {body : Text} (bare : quote ∉ body) (simple : '\\' ∉ body) :
    QuotedText quote body := by
  induction body with
  | nil => exact .nil
  | cons c body ih =>
    obtain ⟨notQuote, bareRest⟩ := List.ne_and_not_mem_of_not_mem_cons bare
    obtain ⟨notEscape, simpleRest⟩ := List.ne_and_not_mem_of_not_mem_cons simple
    exact .plain (Ne.symm notQuote) (Ne.symm notEscape) (ih bareRest simpleRest)

def shortName : PlainName := .single 'n' (by decide)

def shortType : PlainName := .single 'T' (by decide)

-- A string with a brace, and a comment with another brace, a quote and the word `function`.
def guardedValue : Initializer where
  pieces := [.string '"' ['\x7d'] (by decide) (.of_plain (by decide) (by decide)),
    .comment "\x7b'function".toList fun inside => absurd (inside.subset List.mem_cons_self) (by decide)]
  single := by decide

theorem declarations_initializer_guarded :
    assignment shortName shortType guardedValue.text = "var n:T = \"\x7d\"/*\x7b'function*/;".toList ∧
      (∀ piece ∈ guardedValue.pieces, ';' ∉ piece.text) ∧
      ∀ rest, declarations (assignment shortName shortType guardedValue.text ++ rest) =
        assigned shortName shortType :: declarations rest := by
  have unended : ∀ piece ∈ guardedValue.pieces, ';' ∉ piece.text := by decide
  exact ⟨rfl, unended, fun rest => (declarations_initializer shortName shortType guardedValue rest).1 unended⟩

-- `var n:T = ";";` in front of `var y;"`: the string is cut in two, its second half goes on to
-- the next quote, and the second property is lost in it.
def semicolonValue : Initializer where
  pieces := [.string '"' [';'] (by decide) (.of_plain (by decide) (by decide))]
  single := by decide

def secondLine : PropertyLine := ⟨.none, .space, .single 'y' (by decide), none, none⟩

theorem semicolon_not_hidden :
    assignment shortName shortType semicolonValue.text = "var n:T = \";\";".toList ∧
      declarations (assignment shortName shortType semicolonValue.text ++ "var y;\"".toList) ≠
        assigned shortName shortType :: declarations "var y;\"".toList := by
  refine ⟨rfl, ?_⟩
  have ended : declarations (assignment shortName shortType ['"'] ++ "\";var y;\"".toList) =
      assigned shortName shortType :: declarations "\";var y;\"".toList :=
    declarations_assignment shortName shortType (by decide) (by decide) _
  have swallowed : declarations "\";var y;\"".toList = [] := by
    have body : QuotedText '"' ";var y;".toList := .of_plain (by decide) (by decide)
    have quoted : Step.trivia? "\";var y;\"".toList = some (.skipped .string, []) :=
      Step.trivia?_string rfl body []
    rw [declarations_eq_survey, survey_trivia quoted, survey_nil]
  have shown : declarations "var y;\"".toList = .property secondLine.property :: declarations ['"'] := by
    have line : survey 0 (secondLine.text ++ ['"']) = (survey 0 ['"']).behind [.property secondLine.property] :=
      secondLine.passes (Int.le_refl 0) ['"']
    rw [declarations_eq_survey, declarations_eq_survey]
    exact congrArg Prod.fst line
  have cut : assignment shortName shortType semicolonValue.text ++ "var y;\"".toList =
      assignment shortName shortType ['"'] ++ "\";var y;\"".toList := rfl
  rw [cut, ended, swallowed, shown]
  simp

end Intrinsics
