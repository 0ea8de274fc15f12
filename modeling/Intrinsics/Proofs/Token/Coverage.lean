import Intrinsics.Proofs.Text.Runs
import Intrinsics.Token.Lexer

namespace Intrinsics
open Text

-- Where no lexeme begins. Every other form has a first character that settles it; a quote
-- needs a look at what follows.

theorem Punctuator.mem_all (p : Punctuator) : p ∈ Punctuator.all := by
  cases p <;> decide

-- The first character of a symbol is a symbol by itself.
theorem Punctuator.single (p : Punctuator) : ∃ q : Punctuator, q.symbol = p.symbol.take 1 := by
  have listed : ∀ p ∈ Punctuator.all, ∃ q ∈ Punctuator.all, q.symbol = p.symbol.take 1 := by decide
  obtain ⟨q, _, same⟩ := listed p p.mem_all
  exact ⟨q, same⟩

theorem keywords_start : ∀ word ∈ keywords, word.head?.any isNameStart = true := by
  decide

-- What starts no name starts no reserved word either.
theorem words_none {c : Char} (bare : isNameStart c = false) (tail : Text) :
    keyword? (c :: tail) = none ∧ identifier? (c :: tail) = none := by
  refine ⟨?_, by simp [identifier?, bare]⟩
  cases read : keyword? (c :: tail) with
  | none => rfl
  | some taken =>
    obtain ⟨word, rest⟩ := taken
    obtain ⟨member, whole⟩ := keyword?_exact read
    cases word with
    | nil => exact absurd rfl (keywords_nonempty [] member)
    | cons d word =>
      simp only [List.cons_append, List.cons.injEq] at whole
      have starts : isNameStart d = true := keywords_start (d :: word) member
      rw [← whole.1, bare] at starts
      cases starts

theorem Punctuator.longest?_none {text : Text} :
    Punctuator.longest? text = none ↔ ∀ p ∈ Punctuator.all, ¬ p.symbol <+: text := by
  simp only [Punctuator.longest?, List.find?_eq_none, List.isPrefixOf_iff_prefix]

theorem punctuation?_none {c : Char} {tail : Text} :
    punctuation? (c :: tail) = none ↔ ∀ p : Punctuator, p.symbol.head? ≠ some c := by
  have refused : punctuation? (c :: tail) = none ↔ ∀ p : Punctuator, ¬ p.symbol <+: c :: tail := by
    simp only [punctuation?, Option.bind_eq_bind, Option.bind_eq_none_iff, reduceCtorEq, imp_false,
      ← Option.eq_none_iff_forall_ne_some, Punctuator.longest?_none, Punctuator.mem_all, true_imp_iff, pure]
  rw [refused]
  constructor
  · intro none p head
    obtain ⟨q, single⟩ := p.single
    apply none q
    cases symbol : p.symbol with
    | nil => simp [symbol] at head
    | cons d later =>
      simp only [symbol, List.head?_cons, Option.some.injEq] at head
      rw [single, symbol, head]
      exact ⟨tail, rfl⟩
  · intro other p begins
    obtain ⟨behind, whole⟩ := begins
    cases symbol : p.symbol with
    | nil => exact p.symbol_nonempty symbol
    | cons d later =>
      rw [symbol, List.cons_append, List.cons.injEq] at whole
      apply other p
      rw [symbol, whole.1]
      rfl

theorem Lexeme.read?_none {text : Text} : Lexeme.read? text = none ↔ ∀ kind : TokenKind, kind.read? text = none := by
  simp only [Lexeme.read?, List.findSome?_eq_none_iff, Option.map_eq_none_iff]
  constructor
  · intro none kind
    apply none
    cases kind <;> decide
  · intro none kind _
    exact none kind

structure Unclassified (c : Char) (tail : Text) : Prop where
  spacing : isSpacing c = false
  nameStart : isNameStart c = false
  symbol : ∀ p : Punctuator, p.symbol.head? ≠ some c
  quote : c = '"' → quoted? '"' (c :: tail) = none

theorem unclassified_iff (c : Char) (tail : Text) :
    Unclassified c tail ↔ ∀ kind : TokenKind, kind.read? (c :: tail) = none := by
  constructor
  · intro bare kind
    obtain ⟨spacing, nameStart, symbol, quote⟩ := bare
    have noSlash : c ≠ '/' := by
      intro slash
      rw [slash] at symbol
      exact symbol .divide rfl
    obtain ⟨noLine, noBlock⟩ : lineComment? (c :: tail) = none ∧ blockComment? (c :: tail) = none :=
      comments_none fun slash => absurd slash noSlash
    cases kind with
    | whitespace => simp [TokenKind.read?, run?, spacing]
    | lineComment => exact noLine
    | blockComment => exact noBlock
    | string =>
      by_cases opened : c = '"'
      · exact quote opened
      · simp [TokenKind.read?, quoted?, opened]
    | keyword => exact (words_none nameStart tail).1
    | identifier => exact (words_none nameStart tail).2
    | punctuation => exact punctuation?_none.mpr symbol
  · intro none
    refine ⟨?_, ?_, ?_, ?_⟩
    · cases spacing : isSpacing c with
      | false => rfl
      | true => simpa [TokenKind.read?, run?, spacing] using none .whitespace
    · cases nameStart : isNameStart c with
      | false => rfl
      | true => simpa [TokenKind.read?, identifier?, nameStart] using none .identifier
    · exact punctuation?_none.mp (none .punctuation)
    · intro _
      exact none .string

-- Of two cuts of one text, the later one cuts the rest of the earlier.
theorem append_beyond {first rest before tail : Text} (whole : first ++ rest = before ++ tail)
    (past : byteLength first ≤ byteLength before) :
    ∃ middle, before = first ++ middle ∧ rest = middle ++ tail := by
  rcases List.append_eq_append_iff.mp whole with ⟨middle, front, back⟩ | ⟨middle, front, back⟩
  · exact ⟨middle, front, back⟩
  · have empty : middle = [] := by
      cases middle with
      | nil => rfl
      | cons d middle =>
        have positive := d.utf8Size_pos
        rw [front, byteLength_append, byteLength_cons] at past
        omega
    subst empty
    exact ⟨[], by simpa using front.symm, back.symm⟩

-- The text at a span. A span that ends before it starts, leaves the text or cuts a character
-- has none.
def slice? (source : Text) (span : Span) : Option Text := do
  let text ← fromByte? source span.start
  let behind ← fromByte? source span.stop
  if span.start ≤ span.stop then some (text.take (text.length - behind.length)) else none

theorem slice?_exact {source piece : Text} {span : Span} :
    slice? source span = some piece ↔ ∃ before behind, source = before ++ (piece ++ behind) ∧
      byteLength before = span.start ∧ byteLength before + byteLength piece = span.stop := by
  constructor
  · intro sliced
    simp only [slice?, Option.bind_eq_bind, Option.bind_eq_some_iff] at sliced
    obtain ⟨text, started, behind, stopped, taken⟩ := sliced
    split at taken
    · rename_i forward
      obtain ⟨before, whole, start⟩ := fromByte?_exact.mp started
      obtain ⟨upTo, parts, stop⟩ := fromByte?_exact.mp stopped
      obtain ⟨middle, rfl, rest⟩ := append_beyond (whole.symm.trans parts) (by omega)
      rw [rest] at taken whole
      have same : middle = piece := by simpa using taken
      subst same
      rw [byteLength_append] at stop
      exact ⟨before, behind, whole, start, stop⟩
    · cases taken
  · rintro ⟨before, behind, rfl, start, stop⟩
    have started : fromByte? (before ++ (piece ++ behind)) span.start = some (piece ++ behind) :=
      fromByte?_exact.mpr ⟨before, rfl, start⟩
    have stopped : fromByte? (before ++ (piece ++ behind)) span.stop = some behind :=
      fromByte?_exact.mpr ⟨before ++ piece, by simp, by simpa using stop⟩
    have forward : span.start ≤ span.stop := by omega
    simp [slice?, started, stopped, forward]

-- A text put together again: each token as it is written, and between the tokens what
-- stands there in the source.
def rebuildFrom (source : Text) (offset : Nat) : List Token → Option Text
  | [] => fromByte? source offset
  | token :: later => do
    let gap ← slice? source ⟨offset, token.span.start⟩
    let behind ← rebuildFrom source token.span.stop later
    return gap ++ (token.text ++ behind)

def rebuild (source : Text) (found : List Token) : Option Text := rebuildFrom source 0 found

theorem rebuildFrom_passed {before tail whole : Text} {c : Char} {found : List Token}
    (rebuilt : rebuildFrom (before ++ c :: tail) (byteLength before + c.utf8Size) found = some whole) :
    rebuildFrom (before ++ c :: tail) (byteLength before) found = some (c :: whole) := by
  have next : fromByte? (before ++ c :: tail) (byteLength before + c.utf8Size) = some tail :=
    fromByte?_exact.mpr ⟨before ++ [c], by simp, by simp⟩
  cases found with
  | nil =>
    rw [rebuildFrom, next] at rebuilt
    cases rebuilt
    exact fromByte?_exact.mpr ⟨before, rfl, rfl⟩
  | cons token later =>
    simp only [rebuildFrom, Option.bind_eq_bind, Option.bind_eq_some_iff] at rebuilt ⊢
    obtain ⟨gap, sliced, behind, rest, same⟩ := rebuilt
    cases same
    obtain ⟨front, back, parts, start, stop⟩ := slice?_exact.mp sliced
    simp only at start stop
    have located : fromByte? (before ++ c :: tail) (byteLength before + c.utf8Size) = some (gap ++ back) :=
      fromByte?_exact.mpr ⟨front, parts, start⟩
    rw [next, Option.some.injEq] at located
    refine ⟨c :: gap, slice?_exact.mpr ⟨before, back, by simp [located], rfl, ?_⟩, behind, rest, rfl⟩
    simp only [byteLength_cons]
    omega

-- How tokens lie in a text that begins at an offset: one after the other, and between them
-- only characters at which nothing begins.
inductive Tiled : Nat → Text → List Token → Prop where
  | nil : Tiled offset [] []
  | token {lexeme : Lexeme} {offset : Nat} {rest : Text} {found : List Token} : lexeme.text ≠ [] →
      Tiled (offset + byteLength lexeme.text) rest found →
      Tiled offset (lexeme.text ++ rest) (⟨lexeme, offset, offset + byteLength lexeme.text⟩ :: found)
  | passed : Unclassified c tail → Tiled (offset + c.utf8Size) tail found → Tiled offset (c :: tail) found

theorem tokensFrom_tiled (offset : Nat) (text : Text) : Tiled offset text (tokensFrom offset text) := by
  fun_induction tokensFrom offset text with
  | case1 offset => exact .nil
  | case2 offset c tail lexeme rest read stop ih =>
    obtain ⟨held, whole⟩ := Lexeme.read?_append read
    rw [whole]
    exact .token held ih
  | case3 offset c tail read ih =>
    exact .passed ((unclassified_iff c tail).mpr (Lexeme.read?_none.mp read)) ih

namespace Tiled

theorem located {offset : Nat} {text : Text} {found : List Token} (tiled : Tiled offset text found) :
    ∀ token ∈ found, ∃ before behind, text = before ++ (token.text ++ behind) ∧ token.text ≠ [] ∧
      token.span.start = offset + byteLength before ∧
      token.span.stop = token.span.start + byteLength token.text := by
  induction tiled with
  | nil => simp
  | @token lexeme offset rest found held _ ih =>
    intro token member
    rcases List.mem_cons.mp member with here | later
    · subst here
      exact ⟨[], rest, rfl, held, rfl, rfl⟩
    · obtain ⟨before, behind, rfl, nonempty, start, stop⟩ := ih token later
      refine ⟨lexeme.text ++ before, behind, by simp, nonempty, ?_, stop⟩
      rw [start, byteLength_append, Nat.add_assoc]
  | @passed c tail offset found _ _ ih =>
    intro token member
    obtain ⟨before, behind, rfl, nonempty, start, stop⟩ := ih token member
    refine ⟨c :: before, behind, rfl, nonempty, ?_, stop⟩
    rw [start, byteLength_cons, Nat.add_assoc]

theorem start_le {offset : Nat} {text : Text} {found : List Token} (tiled : Tiled offset text found) :
    ∀ token ∈ found, offset ≤ token.span.start := by
  intro token member
  obtain ⟨before, _, _, _, start, _⟩ := tiled.located token member
  omega

theorem ordered {offset : Nat} {text : Text} {found : List Token} (tiled : Tiled offset text found) :
    found.Pairwise fun earlier later => earlier.span.stop ≤ later.span.start := by
  induction tiled with
  | nil => exact .nil
  | token _ behind ih => exact .cons behind.start_le ih
  | passed _ _ ih => exact ih

end Tiled

def Covered (found : List Token) (offset : Nat) : Prop :=
  ∃ token ∈ found, token.span.start ≤ offset ∧ offset < token.span.stop

theorem covered_cons {token : Token} {found : List Token} {offset : Nat} :
    Covered (token :: found) offset ↔
      (token.span.start ≤ offset ∧ offset < token.span.stop) ∨ Covered found offset := by
  simp [Covered]

namespace Tiled

theorem uncovered {offset : Nat} {text : Text} {found : List Token} (tiled : Tiled offset text found)
    {before tail : Text} {c : Char} (whole : text = before ++ c :: tail)
    (bare : ¬ Covered found (offset + byteLength before)) : Unclassified c tail := by
  induction tiled generalizing before with
  | nil => simp at whole
  | @token lexeme offset rest found held _ ih =>
    rw [covered_cons, not_or] at bare
    obtain ⟨outside, later⟩ := bare
    have past : byteLength lexeme.text ≤ byteLength before := by
      simp only at outside
      omega
    obtain ⟨middle, rfl, behind⟩ := append_beyond whole past
    apply ih behind
    rw [byteLength_append, ← Nat.add_assoc] at later
    exact later
  | @passed d behind offset found refused _ ih =>
    cases before with
    | nil =>
      simp only [List.nil_append, List.cons.injEq] at whole
      obtain ⟨rfl, rfl⟩ := whole
      exact refused
    | cons e before =>
      simp only [List.cons_append, List.cons.injEq] at whole
      obtain ⟨rfl, rest⟩ := whole
      apply ih rest
      rw [byteLength_cons, ← Nat.add_assoc] at bare
      exact bare

-- A token ends before the next one, so what covers a place behind it stands later in the list.
theorem joined {offset : Nat} {text : Text} {found : List Token} (tiled : Tiled offset text found)
    (covered : ∀ before c tail, text = before ++ c :: tail → Covered found (offset + byteLength before)) :
    (found.flatMap fun token => token.text) = text := by
  induction tiled with
  | nil => rfl
  | @token lexeme offset rest found held behind ih =>
    rw [List.flatMap_cons, ih]
    intro before c tail whole
    have place := covered (lexeme.text ++ before) c tail (by simp [whole])
    rw [byteLength_append, ← Nat.add_assoc, covered_cons] at place
    rcases place with here | later
    · simp only at here
      omega
    · exact later
  | @passed c tail offset found _ behind ih =>
    obtain ⟨token, member, begun, _⟩ := covered [] c tail rfl
    have later := behind.start_le token member
    have positive := c.utf8Size_pos
    simp only [byteLength_nil] at begun
    omega

theorem rebuilt {offset : Nat} {text : Text} {found : List Token} (tiled : Tiled offset text found)
    {front : Text} (begun : byteLength front = offset) : rebuildFrom (front ++ text) offset found = some text := by
  induction tiled generalizing front with
  | nil => exact fromByte?_exact.mpr ⟨front, rfl, begun⟩
  | @token lexeme offset rest found held _ ih =>
    have gap : slice? (front ++ (lexeme.text ++ rest)) ⟨offset, offset⟩ = some [] :=
      slice?_exact.mpr ⟨front, lexeme.text ++ rest, rfl, begun, begun⟩
    have behind := @ih (front ++ lexeme.text) (by simp [begun])
    rw [List.append_assoc] at behind
    simp [rebuildFrom, gap, behind]
  | @passed c tail offset found _ _ ih =>
    subst begun
    have behind := @ih (front ++ [c]) (by simp)
    rw [List.append_assoc] at behind
    exact rebuildFrom_passed behind

end Tiled

-- What tokens keep of their source. A character outside of all spans is one at which no kind
-- has a lexeme.
structure Coverage (source : Text) (found : List Token) : Prop where
  nonempty : ∀ token ∈ found, token.span.start < token.span.stop
  onBoundary : ∀ token ∈ found, (fromByte? source token.span.start).isSome = true ∧
    (fromByte? source token.span.stop).isSome = true
  within : ∀ token ∈ found, token.span.stop ≤ byteLength source
  ordered : found.Pairwise fun earlier later => earlier.span.stop ≤ later.span.start
  written : ∀ token ∈ found, slice? source token.span = some token.text
  uncovered : ∀ before c tail, source = before ++ c :: tail → ¬ Covered found (byteLength before) →
    (∀ kind : TokenKind, kind.read? (c :: tail) = none) ∧ Unclassified c tail

theorem Tiled.coverage {source : Text} {found : List Token} (tiled : Tiled 0 source found) :
    Coverage source found where
  nonempty token member := by
    obtain ⟨_, _, _, held, _, stop⟩ := tiled.located token member
    have positive := byteLength_pos held
    omega
  onBoundary token member := by
    obtain ⟨before, behind, whole, _, start, stop⟩ := tiled.located token member
    have started : fromByte? source token.span.start = some (token.text ++ behind) :=
      fromByte?_exact.mpr ⟨before, whole, by omega⟩
    have stopped : fromByte? source token.span.stop = some behind :=
      fromByte?_exact.mpr ⟨before ++ token.text, by simp [whole], by rw [byteLength_append]; omega⟩
    simp [started, stopped]
  within token member := by
    obtain ⟨before, behind, whole, _, start, stop⟩ := tiled.located token member
    simp only [whole, byteLength_append]
    omega
  ordered := tiled.ordered
  written token member := by
    obtain ⟨before, behind, whole, _, start, stop⟩ := tiled.located token member
    exact slice?_exact.mpr ⟨before, behind, whole, by omega, by omega⟩
  uncovered before c tail whole bare := by
    have refused : Unclassified c tail := tiled.uncovered whole (by simpa using bare)
    exact ⟨(unclassified_iff c tail).mp refused, refused⟩

theorem tokens_coverage (source : Text) :
    Coverage source (tokens source) ∧
      (∀ c tail, Unclassified c tail ↔ ∀ kind : TokenKind, kind.read? (c :: tail) = none) ∧
      rebuild source (tokens source) = some source ∧
      ((∀ before c tail, source = before ++ c :: tail → Covered (tokens source) (byteLength before)) →
        ((tokens source).flatMap fun token => token.text) = source) := by
  have tiled : Tiled 0 source (tokens source) := tokensFrom_tiled 0 source
  refine ⟨tiled.coverage, unclassified_iff, ?_, ?_⟩
  · exact @Tiled.rebuilt 0 source (tokens source) tiled [] rfl
  · intro covered
    apply tiled.joined
    intro before c tail whole
    rw [Nat.zero_add]
    exact covered before c tail whole

theorem tokensFrom_read {offset : Nat} {text rest : Text} {lexeme : Lexeme}
    (read : Lexeme.read? text = some (lexeme, rest)) :
    tokensFrom offset text =
      ⟨lexeme, offset, offset + byteLength lexeme.text⟩ :: tokensFrom (offset + byteLength lexeme.text) rest := by
  cases text with
  | nil => cases read
  | cons c tail =>
    rw [tokensFrom]
    split
    · rename_i found behind taken
      rw [read] at taken
      cases taken
      rfl
    · rename_i refused
      rw [read] at refused
      cases refused

-- A name and a comment that ends with the text, with a character of two bytes inside.
theorem tokens_comment : tokens "x//é".toList =
    [⟨⟨.identifier, "x".toList⟩, 0, 1⟩, ⟨⟨.lineComment, "é".toList⟩, 1, 5⟩] := by
  have first : Lexeme.read? "x//é".toList = some (⟨.identifier, "x".toList⟩, "//é".toList) := by decide
  have second : Lexeme.read? "//é".toList = some (⟨.lineComment, "é".toList⟩, []) := by decide
  rw [tokens, tokensFrom_read first, tokensFrom_read second, tokensFrom]
  rfl

theorem tokens_coverage_comment :
    (∀ before c tail, "x//é".toList = before ++ c :: tail → Covered (tokens "x//é".toList) (byteLength before)) ∧
      ((tokens "x//é".toList).flatMap fun token => token.text) = "x//é".toList := by
  have covered : ∀ before c tail, "x//é".toList = before ++ c :: tail →
      Covered (tokens "x//é".toList) (byteLength before) := by
    intro before c tail whole
    have bytes : byteLength before + byteLength (c :: tail) = 5 := by
      rw [← byteLength_append, ← whole]
      rfl
    have positive := byteLength_pos (List.cons_ne_nil c tail)
    rw [tokens_comment, covered_cons, covered_cons]
    simp only
    omega
  exact ⟨covered, (tokens_coverage "x//é".toList).2.2.2 covered⟩

end Intrinsics
