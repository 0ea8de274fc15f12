import Intrinsics.Proofs.Token.Places

namespace Intrinsics
open Text

-- Reserved words and names. A reserved word ends where its class of characters ends, a name where
-- the narrower class of names ends. The two classes differ in the dollar sign, which only names
-- have, and in everything beyond ASCII, which only words have.

theorem keywords_spelt : ∀ word ∈ keywords, ∀ c ∈ word, isWordPart c = true := by
  have spelt : keywords.all (·.all isWordPart) = true := by decide +kernel
  simpa only [List.all_eq_true] using spelt

theorem wordRanges_above : ∀ range ∈ wordRanges, 0x80 ≤ range.1 := by
  decide +kernel

theorem isNamePart_of_isWordPart {c : Char} (part : isWordPart c = true) (ascii : c.toNat < 0x80) :
    isNamePart c = true := by
  simp only [isWordPart, Bool.or_eq_true, List.any_eq_true, Bool.and_eq_true, decide_eq_true_eq] at part
  rcases part with plain | ⟨range, member, within⟩
  · simp only [isNamePart, Bool.or_eq_true]
    exact .inl plain
  · have above := wordRanges_above range member
    omega

theorem isNamePart_of_isNameStart {c : Char} (starts : isNameStart c = true) : isNamePart c = true := by
  simp only [isNameStart, isNamePart, Char.isAlphanum, Bool.or_eq_true] at starts ⊢
  rcases starts with (letter | score) | dollar
  · exact .inl (.inl (.inl letter))
  · exact .inl (.inr score)
  · exact .inr dollar

theorem isNameStart_dollar {c : Char} (starts : isNameStart c = true) (outside : isWordPart c = false) : c = '$' := by
  simp only [isNameStart, Bool.or_eq_true, beq_iff_eq] at starts
  simp only [isWordPart, Char.isAlphanum, Bool.or_eq_false_iff] at outside
  rcases starts with (letter | score) | dollar
  · rw [letter] at outside
    cases outside.1.1.1
  · simp [score] at outside
  · exact dollar

-- What the search for a word says, whatever the order of the words.
section KeywordAmong

variable {words : List Text} {text word rest : Text}

theorem keywordAmong?_exact (spelt : ∀ word ∈ words, ∀ c ∈ word, isWordPart c = true) :
    keywordAmong? words text = some (word, rest) ↔
      word ∈ words ∧ text.takeWhile isWordPart = word ∧ text.dropWhile isWordPart = rest := by
  have sound : ∀ {word rest}, keywordAmong? words text = some (word, rest) →
      word ∈ words ∧ text.takeWhile isWordPart = word ∧ text.dropWhile isWordPart = rest := by
    intro word rest read
    obtain ⟨member, whole, stops⟩ := keywordAmong?_bounded read
    rw [whole]
    exact ⟨member, takeWhile_run (spelt word member) stops, dropWhile_run (spelt word member) stops⟩
  constructor
  · exact sound
  · rintro ⟨member, taken, left⟩
    have whole : text = word ++ rest := by rw [← taken, ← left, List.takeWhile_append_dropWhile]
    -- The search comes to the word at the latest, and another hit would be the same word.
    cases read : keywordAmong? words text with
    | none =>
      have refused := List.findSome?_eq_none_iff.mp read word member
      rw [whole, after?_append] at refused
      have stops := stops_dropWhile isWordPart text
      rw [left] at stops
      cases rest with
      | nil => cases refused
      | cons c tail => simp [stops_cons.mp stops] at refused
    | some found =>
      obtain ⟨other, behind⟩ := found
      obtain ⟨_, same, after⟩ := sound read
      rw [← same, ← after, taken, left]

theorem keywordAmong?_perm (perm : words.Perm keywords) (text : Text) : keywordAmong? words text = keyword? text := by
  have spelt : ∀ word ∈ words, ∀ c ∈ word, isWordPart c = true :=
    fun word member => keywords_spelt word (perm.mem_iff.mp member)
  apply Option.ext
  rintro ⟨word, rest⟩
  rw [keyword?, keywordAmong?_exact spelt, keywordAmong?_exact keywords_spelt, perm.mem_iff]

end KeywordAmong

theorem keyword?_maximal {text word rest : Text} : keyword? text = some (word, rest) ↔
    word ∈ keywords ∧ text.takeWhile isWordPart = word ∧ text.dropWhile isWordPart = rest :=
  keywordAmong?_exact keywords_spelt

theorem identifier?_maximal {text body rest : Text} : identifier? text = some (body, rest) ↔
    Starts isNameStart text ∧ text.takeWhile isNamePart = body ∧ text.dropWhile isNamePart = rest := by
  constructor
  · intro read
    cases text with
    | nil => cases read
    | cons c tail =>
      simp only [identifier?] at read
      split at read
      · rename_i held
        cases read
        have part := isNamePart_of_isNameStart held
        exact ⟨⟨c, tail, rfl, held⟩, List.takeWhile_cons_of_pos part, List.dropWhile_cons_of_pos part⟩
      · cases read
  · rintro ⟨⟨c, tail, rfl, held⟩, rfl, rfl⟩
    simp [identifier?, held, isNamePart_of_isNameStart held]

-- A name right behind a reserved word begins with the one character that only names have.
theorem identifier?_behind {text word rest body behind : Text} (reserved : keyword? text = some (word, rest))
    (name : identifier? rest = some (body, behind)) : body.head? = some '$' := by
  obtain ⟨_, _, left⟩ := keyword?_maximal.mp reserved
  obtain ⟨⟨c, tail, rfl, starts⟩, taken, _⟩ := identifier?_maximal.mp name
  have stops := stops_dropWhile isWordPart text
  rw [left, stops_cons] at stops
  rw [← taken, List.takeWhile_cons_of_pos (isNamePart_of_isNameStart starts), List.head?_cons,
    isNameStart_dollar starts stops]

namespace Lexeme

variable {text body rest : Text}

-- What starts a name is nothing to the kinds that come before words and names.
theorem early_refused {c : Char} (held : isNameStart c = true) (tail : Text) :
    ∀ kind ∈ [TokenKind.whitespace, .lineComment, .blockComment] ++ [.string], kind.read? (c :: tail) = none := by
  have apart : ∀ d, isNameStart d = false → c ≠ d := by
    intro d other same
    rw [same, other] at held
    cases held
  have bare : isSpacing c = false := by
    simp only [isSpacing, Bool.or_eq_false_iff, beq_eq_false_iff_ne]
    exact ⟨⟨⟨⟨apart ' ' rfl, apart '\t' rfl⟩, apart '\r' rfl⟩, apart '\n' rfl⟩, apart '\x0C' rfl⟩
  have unquoted : TokenKind.string.read? (c :: tail) = none := by
    simp [TokenKind.read?, quoted?, apart '"' rfl]
  rw [List.forall_mem_append, List.forall_mem_singleton]
  exact ⟨trivia_refused bare (apart '/' rfl) tail, unquoted⟩

def word (text : Text) : Lexeme :=
  if text.takeWhile isWordPart ∈ keywords then ⟨.keyword, text.takeWhile isWordPart⟩
  else ⟨.identifier, text.takeWhile isNamePart⟩

theorem read?_word (starts : Starts isNameStart text) : ∃ rest, Lexeme.read? text = some (word text, rest) := by
  obtain ⟨c, tail, rfl, held⟩ := starts
  have early := early_refused held tail
  cases read : keyword? (c :: tail) with
  | some found =>
    obtain ⟨reserved, behind⟩ := found
    obtain ⟨member, taken, _⟩ := keyword?_maximal.mp read
    have order : TokenKind.precedence = ([.whitespace, .lineComment, .blockComment] ++ [.string]) ++
      .keyword :: [.identifier, .punctuation] := rfl
    refine ⟨behind, ?_⟩
    rw [word, taken, if_pos member]
    exact read?_first order early read
  | none =>
    have free : (c :: tail).takeWhile isWordPart ∉ keywords := by
      intro member
      rw [keyword?_maximal.mpr ⟨member, rfl, rfl⟩] at read
      cases read
    have name : identifier? (c :: tail) = some ((c :: tail).takeWhile isNamePart, (c :: tail).dropWhile isNamePart) :=
      identifier?_maximal.mpr ⟨⟨c, tail, rfl, held⟩, rfl, rfl⟩
    have order : TokenKind.precedence = (([.whitespace, .lineComment, .blockComment] ++ [.string]) ++ [.keyword]) ++
      .identifier :: [.punctuation] := rfl
    refine ⟨(c :: tail).dropWhile isNamePart, ?_⟩
    rw [word, if_neg free]
    refine read?_first order ?_ name
    rw [List.forall_mem_append, List.forall_mem_singleton]
    exact ⟨early, read⟩

theorem read?_identifier (read : Lexeme.read? text = some (⟨.identifier, body⟩, rest)) :
    text.takeWhile isWordPart ∉ keywords ∧ identifier? text = some (body, rest) := by
  have name : identifier? text = some (body, rest) := read?_kind read
  obtain ⟨behind, found⟩ := read?_word (identifier?_maximal.mp name).1
  rw [read, Option.some.injEq, Prod.mk.injEq] at found
  refine ⟨?_, name⟩
  intro member
  rw [word, if_pos member] at found
  cases found.1

-- A name that is spelt like a reserved word goes on, for the eyes of the words, with a character
-- that no name has.
theorem read?_reserved (read : Lexeme.read? text = some (⟨.identifier, body⟩, rest)) (member : body ∈ keywords) :
    ∃ c tail, rest = c :: tail ∧ isWordPart c = true ∧ 0x80 ≤ c.toNat := by
  obtain ⟨free, name⟩ := read?_identifier read
  obtain ⟨_, taken, left⟩ := identifier?_maximal.mp name
  have whole : text = body ++ rest := by rw [← taken, ← left, List.takeWhile_append_dropWhile]
  have goesOn : ¬ Stops isWordPart rest := by
    intro stops
    rw [whole, takeWhile_run (keywords_spelt body member) stops] at free
    exact free member
  cases rest with
  | nil => exact absurd (stops_nil isWordPart) goesOn
  | cons c tail =>
    rw [stops_cons, Bool.not_eq_false] at goesOn
    have ends := stops_dropWhile isNamePart text
    rw [left, stops_cons] at ends
    refine ⟨c, tail, rfl, goesOn, ?_⟩
    by_contra ascii
    rw [isNamePart_of_isWordPart goesOn (by omega)] at ends
    cases ends

end Lexeme

-- What reserved words and names say about the text at their ends. Characters of no token may
-- stand between two tokens of the list, so two tokens meet only where their spans do.
structure WordBoundaries (source : Text) (found : List Token) : Prop where
  reserved : ∀ token ∈ found, token.kind = .identifier → token.body ∈ keywords →
    ∃ c tail, fromByte? source token.span.stop = some (c :: tail) ∧ isWordPart c = true ∧ 0x80 ≤ c.toNat
  followed : ∀ front first second behind, found = front ++ first :: second :: behind →
    first.kind = .keyword → second.kind = .identifier → first.span.stop = second.span.start →
      second.body.head? = some '$'

theorem tokens_wordBoundaries (source : Text) : WordBoundaries source (tokens source) where
  reserved token member identifier spelt := by
    obtain ⟨before, here, rest, placed⟩ := tokens_readAt member
    have read := placed.read
    rw [show token.toLexeme = ⟨.identifier, token.body⟩ by rw [← identifier]] at read
    obtain ⟨c, tail, rfl, part, beyond⟩ := Lexeme.read?_reserved read spelt
    obtain ⟨whole, stop⟩ := placed.behind
    exact ⟨c, tail, fromByte?_exact.mpr ⟨_, whole, by omega⟩, part, beyond⟩
  followed front first second behind found keyword identifier meet := by
    obtain ⟨before, here, rest, placed, later⟩ := tokensFrom_split front found
    obtain ⟨between, there, left, next, _⟩ := tokensFrom_split [] later.symm
    have reserved := Lexeme.read?_kind placed.read
    have name := Lexeme.read?_kind next.read
    rw [keyword] at reserved
    rw [identifier] at name
    have empty : between = [] := by
      by_contra held
      have positive := byteLength_pos held
      have start := next.start
      omega
    have same := next.whole
    rw [empty, List.nil_append] at same
    rw [← same] at name
    exact identifier?_behind reserved name

theorem words_split (text : Text) :
    (∀ word rest, keyword? text = some (word, rest) ↔
        word ∈ keywords ∧ text.takeWhile isWordPart = word ∧ text.dropWhile isWordPart = rest) ∧
      (∀ words, words.Perm keywords → keywordAmong? words text = keyword? text) ∧
      (Starts isNameStart text →
        (tokens text).head? = some ⟨Lexeme.word text, 0, byteLength (Lexeme.word text).text⟩) ∧
      WordBoundaries text (tokens text) := by
  refine ⟨fun _ _ => keyword?_maximal, fun _ perm => keywordAmong?_perm perm text, ?_, tokens_wordBoundaries text⟩
  intro starts
  obtain ⟨rest, read⟩ := Lexeme.read?_word starts
  rw [tokens, tokensFrom_read read, List.head?_cons, Nat.zero_add]

-- The one way to a name that is spelt like a reserved word, and the one name right behind such a word.
example : (tokens "foré for$".toList).map Token.toLexeme =
    [⟨.identifier, "for".toList⟩, ⟨.whitespace, " ".toList⟩, ⟨.keyword, "for".toList⟩,
      ⟨.identifier, "$".toList⟩] := by
  decide +kernel

end Intrinsics
