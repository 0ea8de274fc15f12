import Intrinsics.Text.Delimited
import Intrinsics.Token.Basic
import Intrinsics.Token.Keyword

namespace Intrinsics

-- Tokens see fewer kinds of white space than the declarations of a file do.
def isSpacing (c : Char) : Bool := c == ' ' || c == '\t' || c == '\r' || c == '\n' || c == '\x0C'

def identifier? : Text → Option (Text × Text)
  | [] => none
  | c :: text =>
    if Text.isNameStart c then some (c :: text.takeWhile Text.isNamePart, text.dropWhile Text.isNamePart)
    else none

def punctuation? (text : Text) : Option (Text × Text) := do
  let found ← Punctuator.longest? text
  return (found.symbol, text.drop found.symbol.length)

def TokenKind.read? : TokenKind → Text → Option (Text × Text)
  | .whitespace => Text.run? isSpacing
  | .lineComment => Text.lineComment?
  | .blockComment => Text.blockComment?
  | .string => Text.quoted? '"'
  | .keyword => keyword?
  | .identifier => identifier?
  | .punctuation => punctuation?

def Lexeme.read? (text : Text) : Option (Lexeme × Text) :=
  TokenKind.precedence.findSome? fun kind =>
    (kind.read? text).map fun (body, rest) => (⟨kind, body⟩, rest)

theorem Punctuator.symbol_nonempty (p : Punctuator) : p.symbol ≠ [] := by
  cases p <;> decide

theorem punctuation?_append {text body rest : Text} (read : punctuation? text = some (body, rest)) :
    body ≠ [] ∧ text = body ++ rest := by
  obtain ⟨found, longest, same⟩ := Option.bind_eq_some_iff.mp read
  cases same
  unfold Punctuator.longest? at longest
  have begins := List.find?_some longest
  obtain ⟨behind, rfl⟩ := List.isPrefixOf_iff_prefix.mp begins
  simp [found.symbol_nonempty]

theorem TokenKind.read?_append {kind : TokenKind} {text body rest : Text}
    (read : kind.read? text = some (body, rest)) :
    (Lexeme.mk kind body).text ≠ [] ∧ text = (Lexeme.mk kind body).text ++ rest := by
  cases kind with
  | whitespace => exact ⟨(Text.run?_exact.mp read).1, Text.run?_append read⟩
  | lineComment => simpa [Lexeme.text] using Text.lineComment?_append read
  | blockComment => simpa [Lexeme.text] using Text.blockComment?_append read
  | string => simpa [Lexeme.text] using Text.quoted?_append read
  | keyword =>
    obtain ⟨member, split⟩ := keyword?_exact read
    exact ⟨keywords_nonempty _ member, split⟩
  | identifier =>
    cases text with
    | nil => cases read
    | cons c text =>
      simp only [TokenKind.read?, identifier?] at read
      split at read
      · cases read; simp [Lexeme.text]
      · cases read
  | punctuation => exact punctuation?_append read

theorem Lexeme.read?_append {text rest : Text} {lexeme : Lexeme}
    (read : Lexeme.read? text = some (lexeme, rest)) :
    lexeme.text ≠ [] ∧ text = lexeme.text ++ rest := by
  obtain ⟨kind, _, found⟩ := List.exists_of_findSome?_eq_some read
  obtain ⟨⟨body, behind⟩, taken, same⟩ := Option.map_eq_some_iff.mp found
  cases same
  exact TokenKind.read?_append taken

theorem Lexeme.read?_behind {text rest : Text} {lexeme : Lexeme}
    (read : Lexeme.read? text = some (lexeme, rest)) : Text.Behind rest text :=
  ⟨lexeme.text, Lexeme.read?_append read⟩

-- A character that begins no lexeme is passed over, so every text has its tokens.
def tokensFrom (offset : Nat) (text : Text) : List Token :=
  match text with
  | [] => []
  | c :: tail =>
    match _ : Lexeme.read? (c :: tail) with
    | some (lexeme, rest) =>
      let stop := offset + Text.byteLength lexeme.text
      ⟨lexeme, offset, stop⟩ :: tokensFrom stop rest
    | none => tokensFrom (offset + c.utf8Size) tail
termination_by text.length
decreasing_by
  · exact (Lexeme.read?_behind ‹_›).length_lt
  · simp

def tokens (source : Text) : List Token := tokensFrom 0 source

end Intrinsics
