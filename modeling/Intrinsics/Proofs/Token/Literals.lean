import Intrinsics.Proofs.Token.Extents
import Intrinsics.Proofs.Token.Places
import Intrinsics.Text.Escape
import Mathlib.Data.Set.Function

namespace Intrinsics
open Text

-- Text written as a string literal. Escaping leaves no bare quote and no lone backslash, so the
-- literal ends where it was meant to end, whatever stands behind it.

namespace Text

-- Escaping one character: a pair that is read back as that character, or the character itself,
-- which then is neither a quote nor a backslash.
theorem escapeChar_cases (c : Char) :
    (∃ d, escapeChar c = ['\\', d] ∧ d ≠ '\n' ∧ ∀ text, unescape ('\\' :: d :: text) = c :: unescape text) ∨
      (escapeChar c = [c] ∧ c ≠ '"' ∧ c ≠ '\\') := by
  unfold escapeChar
  split
  · exact .inl ⟨'\\', rfl, by decide, fun _ => rfl⟩
  · exact .inl ⟨'"', rfl, by decide, fun _ => rfl⟩
  · exact .inl ⟨'n', rfl, by decide, fun _ => rfl⟩
  · exact .inl ⟨'t', rfl, by decide, fun _ => rfl⟩
  · rename_i backslash quote _ _
    exact .inr ⟨rfl, quote, backslash⟩

theorem escape_cons (c : Char) (text : Text) : escape (c :: text) = escapeChar c ++ escape text := rfl

theorem unescape_plain {c : Char} (simple : c ≠ '\\') (text : Text) : unescape (c :: text) = c :: unescape text := by
  apply unescape.eq_6 <;> intros <;> contradiction

theorem escape_quoted (text : Text) : QuotedText '"' (escape text) := by
  induction text with
  | nil => exact .nil
  | cons c text ih =>
    rw [escape_cons]
    rcases escapeChar_cases c with ⟨d, pair, single, _⟩ | ⟨same, bare, simple⟩
    · rw [pair]
      exact .escape single ih
    · rw [same]
      exact .plain bare simple ih

theorem unescape_escape (text : Text) : unescape (escape text) = text := by
  induction text with
  | nil => rfl
  | cons c text ih =>
    rw [escape_cons]
    rcases escapeChar_cases c with ⟨d, pair, _, back⟩ | ⟨same, _, simple⟩
    · rw [pair, List.cons_append, List.singleton_append, back, ih]
    · rw [same, List.singleton_append, unescape_plain simple, ih]

-- The bodies that escaping can write, read from left to right: characters that stand for
-- themselves and whole escapes. A backslash opens an escape or is the second half of one.
inductive Escaped : Text → Prop where
  | nil : Escaped []
  | plain : c ≠ '\\' → c ≠ '"' → c ≠ '\n' → c ≠ '\t' → Escaped text → Escaped (c :: text)
  | pair : d ∈ ['\\', '"', 'n', 't'] → Escaped text → Escaped ('\\' :: d :: text)

theorem Escaped.escapeChar_append (c : Char) {text : Text} (escaped : Escaped text) :
    Escaped (escapeChar c ++ text) := by
  unfold escapeChar
  split
  · exact .pair (by decide) escaped
  · exact .pair (by decide) escaped
  · exact .pair (by decide) escaped
  · exact .pair (by decide) escaped
  · rename_i backslash quote newline tab
    exact .plain backslash quote newline tab escaped

theorem escape_escaped (text : Text) : Escaped (escape text) := by
  induction text with
  | nil => exact .nil
  | cons c text ih =>
    rw [escape_cons]
    exact ih.escapeChar_append c

theorem Escaped.source {body : Text} (escaped : Escaped body) : ∃ text, escape text = body := by
  induction escaped with
  | nil => exact ⟨[], rfl⟩
  | @plain c body backslash quote newline tab _ ih =>
    obtain ⟨text, written⟩ := ih
    have same : escapeChar c = [c] := escapeChar.eq_5 c backslash quote newline tab
    exact ⟨c :: text, by rw [escape_cons, same, written, List.singleton_append]⟩
  | @pair d body known _ ih =>
    obtain ⟨text, written⟩ := ih
    have denoted : ∃ c, escapeChar c = ['\\', d] := by
      simp only [List.mem_cons, List.not_mem_nil, or_false] at known
      rcases known with rfl | rfl | rfl | rfl
      · exact ⟨'\\', rfl⟩
      · exact ⟨'"', rfl⟩
      · exact ⟨'\n', rfl⟩
      · exact ⟨'\t', rfl⟩
    obtain ⟨c, pair⟩ := denoted
    exact ⟨c :: text, by rw [escape_cons, pair, written]; rfl⟩

theorem escape_range : Set.range escape = {body | Escaped body} := by
  ext body
  constructor
  · rintro ⟨text, rfl⟩
    exact escape_escaped text
  · exact Escaped.source

-- Only a body that was escaped comes back: unescaping it and escaping the result gives the body
-- again because some text is written by it, and of that text nothing was lost.
theorem escape_unescape {body : Text} : escape (unescape body) = body ↔ Escaped body := by
  constructor
  · intro back
    rw [← back]
    exact escape_escaped (unescape body)
  · intro escaped
    obtain ⟨text, written⟩ := escaped.source
    rw [← written, unescape_escape]

end Text

theorem Lexeme.read?_string {text body rest : Text} (read : quoted? '"' text = some (body, rest)) :
    Lexeme.read? text = some (⟨.string, body⟩, rest) := by
  have order : TokenKind.precedence =
      [.whitespace, .lineComment, .blockComment] ++ .string :: [.keyword, .identifier, .punctuation] := rfl
  refine Lexeme.read?_first order ?_ read
  rw [quoted?_append read]
  exact Lexeme.trivia_refused (by decide) (by decide) _

theorem tokens_escaped (text rest : Text) :
    tokens ('"' :: (escape text ++ '"' :: rest)) =
        ⟨⟨.string, escape text⟩, 0, 2 + byteLength (escape text)⟩ ::
          (tokens rest).map (Token.shift (2 + byteLength (escape text))) ∧
      Skip.string.length? ('"' :: (escape text ++ '"' :: rest)) = some (2 + byteLength (escape text)) ∧
      unescape (escape text) = text := by
  refine ⟨?_, ?_, unescape_escape text⟩
  · have read : quoted? '"' ('"' :: (escape text ++ '"' :: rest)) = some (escape text, rest) :=
      (quoted?_exact (by decide)).mpr ⟨rfl, escape_quoted text⟩
    have length : byteLength (Lexeme.mk .string (escape text)).text = 2 + byteLength (escape text) := by
      have single : '"'.utf8Size = 1 := rfl
      simp only [Lexeme.text, byteLength_cons, byteLength_append, byteLength_nil, single]
      omega
    rw [tokens, tokensFrom_read (Lexeme.read?_string read), length, Nat.zero_add]
    rw [tokens, ← tokensFrom_shift, Nat.add_zero]
  · refine ((string_extent _).skipped _).mpr ⟨'"', by decide, escape text, rest, rfl, escape_quoted text, by omega⟩

theorem escape_inverse :
    (∀ body, escape (unescape body) = body ↔ Escaped body) ∧ Set.range escape = {body | Escaped body} ∧
      Function.Injective escape ∧ Set.InvOn unescape escape Set.univ {body | Escaped body} := by
  refine ⟨fun _ => escape_unescape, escape_range, ?_, ?_, ?_⟩
  · exact Function.LeftInverse.injective unescape_escape
  · intro text _
    exact unescape_escape text
  · intro body escaped
    exact escape_unescape.mpr escaped

end Intrinsics
