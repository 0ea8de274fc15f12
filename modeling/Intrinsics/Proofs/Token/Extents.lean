import Intrinsics.Proofs.Scan.Closed
import Intrinsics.Token.Lexer

namespace Intrinsics
open Text

-- How far comments and strings reach. Tokens and scans take them on their own, so what each of
-- the two takes is held against one rule for the form.

-- The first occurrence of a mark: what stands in front of it and what stands behind it.
structure FirstMark (mark text front rest : Text) : Prop where
  whole : text = front ++ (mark ++ rest)
  first : ∀ before behind, text = before ++ (mark ++ behind) → front.length ≤ before.length

section FirstMark

variable {mark text tail front rest : Text} {c : Char}

theorem firstMark_here : FirstMark mark (mark ++ text) front rest ↔ front = [] ∧ rest = text := by
  constructor
  · intro found
    have empty : front = [] := List.length_eq_zero_iff.mp (Nat.le_zero.mp (found.first [] text rfl))
    have whole := found.whole
    rw [empty, List.nil_append, List.append_cancel_left_eq] at whole
    exact ⟨empty, whole.symm⟩
  · rintro ⟨rfl, rfl⟩
    exact ⟨rfl, fun before _ _ => Nat.zero_le before.length⟩

theorem firstMark_later (refused : ¬ mark <+: c :: tail) :
    FirstMark mark (c :: tail) front rest ↔ ∃ inner, front = c :: inner ∧ FirstMark mark tail inner rest := by
  constructor
  · intro found
    have whole := found.whole
    cases front with
    | nil => exact absurd ⟨rest, whole.symm⟩ refused
    | cons d inner =>
      simp only [List.cons_append, List.cons.injEq] at whole
      obtain ⟨rfl, behind⟩ := whole
      refine ⟨inner, rfl, behind, ?_⟩
      intro before later same
      have least := found.first (c :: before) later (by rw [same]; rfl)
      exact Nat.le_of_succ_le_succ least
  · rintro ⟨inner, rfl, found⟩
    refine ⟨by rw [found.whole]; rfl, ?_⟩
    intro before behind same
    cases before with
    | nil => exact absurd ⟨behind, same.symm⟩ refused
    | cons d before =>
      simp only [List.cons_append, List.cons.injEq] at same
      exact Nat.succ_le_succ (found.first before behind same.2)

theorem firstMark_exists (held : mark <:+: text) : ∃ front rest, FirstMark mark text front rest := by
  induction text with
  | nil =>
    rw [List.eq_nil_of_infix_nil held]
    exact ⟨[], [], firstMark_here.mpr ⟨rfl, rfl⟩⟩
  | cons c tail ih =>
    by_cases begins : mark <+: c :: tail
    · obtain ⟨behind, whole⟩ := begins
      rw [← whole]
      exact ⟨[], behind, firstMark_here.mpr ⟨rfl, rfl⟩⟩
    · rcases List.infix_cons_iff.mp held with here | later
      · exact absurd here begins
      · obtain ⟨front, rest, found⟩ := ih later
        exact ⟨c :: front, rest, (firstMark_later begins).mpr ⟨front, rfl, found⟩⟩

end FirstMark

-- The inside of a string that never closes: the reading comes to the end of the text, or to a
-- backslash with nothing or with a newline behind it, before it meets a bare quote.
def Unclosed (quote : Char) (text : Text) : Prop :=
  ∃ body stuck, text = body ++ stuck ∧ QuotedText quote body ∧
    (stuck = [] ∨ stuck = ['\\'] ∨ ∃ more, stuck = '\\' :: '\n' :: more)

namespace Text

variable {text body rest : Text} {quote : Char}

theorem blockBody?_exact : blockBody? text = some (body, rest) ↔ FirstMark ['*', '/'] text body rest := by
  fun_induction blockBody? text generalizing body with
  | case1 =>
    simp only [reduceCtorEq, false_iff]
    intro found
    simpa using congrArg List.length found.whole
  | case2 tail =>
    rw [show '*' :: '/' :: tail = ['*', '/'] ++ tail from rfl, firstMark_here, Option.some.injEq, Prod.mk.injEq,
      eq_comm, @eq_comm _ tail]
  | case3 c tail other ih =>
    have refused : ¬ ['*', '/'] <+: c :: tail := by
      rintro ⟨behind, same⟩
      simp only [List.cons_append, List.nil_append, List.cons.injEq] at same
      exact other behind same.1.symm same.2.symm
    rw [firstMark_later refused, Option.map_eq_some_iff]
    constructor
    · rintro ⟨⟨inner, behind⟩, read, same⟩
      cases same
      exact ⟨inner, rfl, ih.mp read⟩
    · rintro ⟨inner, rfl, found⟩
      exact ⟨(inner, rest), ih.mpr found, rfl⟩

theorem blockComment?_exact : blockComment? text = some (body, rest) ↔
    ∃ inner, text = '/' :: '*' :: inner ∧ FirstMark ['*', '/'] inner body rest := by
  unfold blockComment?
  split
  · rename_i inner
    simp [blockBody?_exact]
  · rename_i other
    simp only [reduceCtorEq, false_iff, not_exists, not_and]
    intro inner same
    exact absurd same (other inner)

theorem quotedBody?_quoted (read : quotedBody? quote text = some (body, rest)) : QuotedText quote body := by
  fun_induction quotedBody? quote text generalizing body with
  | case1 => cases read
  | case2 tail => cases read; exact .nil
  | case3 | case4 => cases read
  | case5 d tail other _ ih =>
    obtain ⟨parts, found, same⟩ := Option.map_eq_some_iff.mp read
    cases same
    exact .escape other (ih found)
  | case6 c tail bare simple ih =>
    obtain ⟨parts, found, same⟩ := Option.map_eq_some_iff.mp read
    cases same
    exact .plain bare simple (ih found)

theorem quoted?_exact (other : quote ≠ '\\') : quoted? quote text = some (body, rest) ↔
    text = quote :: (body ++ quote :: rest) ∧ QuotedText quote body := by
  constructor
  · intro read
    refine ⟨quoted?_append read, ?_⟩
    unfold quoted? at read
    split at read
    · split at read
      · exact quotedBody?_quoted read
      · cases read
    · cases read
  · rintro ⟨rfl, written⟩
    simp [quoted?, quotedBody?_written other written]

theorem quotedBody?_unclosed (other : quote ≠ '\\') : quotedBody? quote text = none ↔ Unclosed quote text := by
  constructor
  · intro refused
    fun_induction quotedBody? quote text with
    | case1 => exact ⟨[], [], rfl, .nil, .inl rfl⟩
    | case2 tail => cases refused
    | case3 => exact ⟨[], _, rfl, .nil, .inr (.inl rfl)⟩
    | case4 tail => exact ⟨[], _, rfl, .nil, .inr (.inr ⟨tail, rfl⟩)⟩
    | case5 d tail inner _ ih =>
      obtain ⟨body, stuck, rfl, written, ends⟩ := ih (Option.map_eq_none_iff.mp refused)
      exact ⟨'\\' :: d :: body, stuck, rfl, .escape inner written, ends⟩
    | case6 c tail bare simple ih =>
      obtain ⟨body, stuck, rfl, written, ends⟩ := ih (Option.map_eq_none_iff.mp refused)
      exact ⟨c :: body, stuck, rfl, .plain bare simple written, ends⟩
  · rintro ⟨body, stuck, rfl, written, ends⟩
    induction written with
    | nil =>
      rcases ends with rfl | rfl | ⟨more, rfl⟩
      · rfl
      · simp [quotedBody?, other.symm]
      · simp [quotedBody?, other.symm]
    | plain bare simple _ ih =>
      rw [List.cons_append, quotedBody?.eq_def]
      simp [bare, simple, ih]
    | escape inner _ ih => simp [quotedBody?, other.symm, inner, ih]

end Text

def extent? (reader : Text → Option (Text × Text)) (text : Text) : Option Nat :=
  (reader text).map fun (_, rest) => byteLength text - byteLength rest

def TokenKind.length? (kind : TokenKind) : Text → Option Nat := extent? kind.read?

-- A reader that takes the written form of what it gives is measured by that form.
theorem extent?_eq_some {reader : Text → Option (Text × Text)} {written : Text → Text} {text : Text} {length : Nat}
    (takes : ∀ body rest, reader text = some (body, rest) → text = written body ++ rest) :
    extent? reader text = some length ↔
      ∃ body rest, reader text = some (body, rest) ∧ length = byteLength (written body) := by
  have measured : ∀ body rest, reader text = some (body, rest) →
      byteLength text - byteLength rest = byteLength (written body) := by
    intro body rest read
    rw [takes body rest read, byteLength_append, Nat.add_sub_cancel]
  simp only [extent?, Option.map_eq_some_iff, Prod.exists]
  constructor
  · rintro ⟨body, rest, read, same⟩
    exact ⟨body, rest, read, by rw [← same, measured body rest read]⟩
  · rintro ⟨body, rest, read, same⟩
    exact ⟨body, rest, read, by rw [same, measured body rest read]⟩

theorem extent?_eq_none {reader : Text → Option (Text × Text)} {text : Text} :
    extent? reader text = none ↔ reader text = none := Option.map_eq_none_iff

theorem TokenKind.length?_eq_some {kind : TokenKind} {text : Text} {length : Nat} : kind.length? text = some length ↔
    ∃ body rest, kind.read? text = some (body, rest) ∧ length = byteLength (Lexeme.mk kind body).text :=
  extent?_eq_some fun _ _ read => (TokenKind.read?_append read).2

-- A block comment at the start of a text: the marks at its ends, the closing one the first behind
-- the opening one.
def BlockCommentAt (text : Text) (length : Nat) : Prop :=
  ∃ inner body rest, text = '/' :: '*' :: inner ∧ FirstMark ['*', '/'] inner body rest ∧
    length = 2 + byteLength body + 2

structure BlockCommentExtent (text : Text) : Prop where
  matched : (TokenKind.blockComment.length? text).isSome ↔
    ∃ inner, text = '/' :: '*' :: inner ∧ ['*', '/'] <:+: inner
  lexed : ∀ length, TokenKind.blockComment.length? text = some length ↔ BlockCommentAt text length
  agreed : Skip.blockComment.length? text = TokenKind.blockComment.length? text

theorem blockComment_extent (text : Text) : BlockCommentExtent text := by
  have written : ∀ body, byteLength (Lexeme.mk .blockComment body).text = 2 + byteLength body + 2 := by
    intro body
    have single : '/'.utf8Size = 1 ∧ '*'.utf8Size = 1 := ⟨rfl, rfl⟩
    simp only [Lexeme.text, byteLength_cons, byteLength_append, byteLength_nil, single]
    omega
  have lexed : ∀ length, TokenKind.blockComment.length? text = some length ↔ BlockCommentAt text length := by
    intro length
    simp only [TokenKind.length?_eq_some, TokenKind.read?, blockComment?_exact, written]
    constructor
    · rintro ⟨body, rest, ⟨inner, whole, found⟩, same⟩
      exact ⟨inner, body, rest, whole, found, same⟩
    · rintro ⟨inner, body, rest, whole, found, same⟩
      exact ⟨body, rest, ⟨inner, whole, found⟩, same⟩
  refine ⟨?_, lexed, ?_⟩
  · rw [Option.isSome_iff_exists]
    simp only [lexed]
    constructor
    · rintro ⟨_, inner, body, rest, whole, found, _⟩
      exact ⟨inner, whole, body, rest, by rw [found.whole, List.append_assoc]⟩
    · rintro ⟨inner, whole, held⟩
      obtain ⟨body, rest, found⟩ := firstMark_exists held
      exact ⟨_, inner, body, rest, whole, found, rfl⟩
  · simp [Skip.length?, Skip.read?, TokenKind.length?, TokenKind.read?, extent?, Function.comp_def]

-- A line comment is measured from its first slash up to the newline. The scan takes the newline along.
structure LineCommentExtent (text : Text) : Prop where
  lexed : TokenKind.lineComment.length? text =
    if ['/', '/'] <+: text then some (byteLength (text.takeWhile (· != '\n'))) else none
  skipped : Skip.lineComment.length? text =
    if ['/', '/'] <+: text then
      some (byteLength (text.takeWhile (· != '\n')) + if '\n' ∈ text then 1 else 0)
    else none

-- Behind the line stands its newline, or nothing where the text has none.
theorem dropWhile_line (text : Text) :
    (text.dropWhile (· != '\n') = [] ∧ '\n' ∉ text) ∨
      ∃ rest, text.dropWhile (· != '\n') = '\n' :: rest ∧ '\n' ∈ text := by
  cases behind : text.dropWhile (· != '\n') with
  | nil =>
    left
    refine ⟨rfl, ?_⟩
    intro member
    simpa using List.dropWhile_eq_nil_iff.mp behind '\n' member
  | cons c rest =>
    right
    have stops := stops_dropWhile (· != '\n') text
    rw [behind, stops_cons] at stops
    have newline : c = '\n' := by simpa using stops
    rw [newline] at behind ⊢
    exact ⟨rest, rfl, (List.dropWhile_suffix _).subset (behind ▸ List.mem_cons_self)⟩

theorem lineComment_extent (text : Text) : LineCommentExtent text := by
  by_cases opened : ['/', '/'] <+: text
  · have parts : byteLength text =
        byteLength (text.takeWhile (· != '\n')) + byteLength (text.dropWhile (· != '\n')) := by
      rw [← byteLength_append, List.takeWhile_append_dropWhile]
    obtain ⟨inner, whole⟩ := opened
    have read : lineComment? text = some (inner.takeWhile (· != '\n'), text.dropWhile (· != '\n')) := by
      rw [← whole]
      rfl
    constructor
    · rw [if_pos ⟨inner, whole⟩]
      simp only [TokenKind.length?, TokenKind.read?, extent?, read, Option.map_some, Option.some.injEq]
      omega
    · rw [if_pos ⟨inner, whole⟩]
      simp only [Skip.length?, Skip.read?, read, Option.map_some, Option.some.injEq]
      rcases dropWhile_line text with ⟨ended, single⟩ | ⟨rest, ended, held⟩
      · rw [ended] at parts ⊢
        simp [parts, single]
      · have newline : '\n'.utf8Size = 1 := rfl
        rw [ended, byteLength_cons, newline] at parts
        rw [ended, List.drop_one, List.tail_cons, if_pos held]
        omega
  · have refused : lineComment? text = none := by
      unfold lineComment?
      split
      · rename_i inner
        exact absurd ⟨inner, rfl⟩ opened
      · rfl
    constructor
    · simp [TokenKind.length?, TokenKind.read?, extent?, refused, opened]
    · simp [Skip.length?, Skip.read?, refused, opened]

-- A string at the start of a text: bare characters and pairs between two quotes.
def StringAt (quote : Char) (text : Text) (length : Nat) : Prop :=
  ∃ body rest, text = quote :: (body ++ quote :: rest) ∧ QuotedText quote body ∧ length = 1 + byteLength body + 1

structure StringExtent (text : Text) : Prop where
  lexed : ∀ length, TokenKind.string.length? text = some length ↔ StringAt '"' text length
  skipped : ∀ length, Skip.string.length? text = some length ↔
    ∃ quote, isQuote quote = true ∧ StringAt quote text length
  unclosed : ∀ quote inner, isQuote quote = true → text = quote :: inner →
    (Skip.string.length? text = none ↔ Unclosed quote inner)
  agreed : text.head? = some '"' → TokenKind.string.length? text = Skip.string.length? text

theorem isQuote_iff {c : Char} : isQuote c = true ↔ c = '"' ∨ c = '\'' := by
  simp [isQuote]

theorem quoted_extent {quote : Char} (opened : isQuote quote = true) (text : Text) (length : Nat) :
    extent? (quoted? quote) text = some length ↔ StringAt quote text length := by
  have other : quote ≠ '\\' ∧ quote.utf8Size = 1 := by
    rcases isQuote_iff.mp opened with rfl | rfl <;> decide
  rw [@extent?_eq_some _ (fun body => quote :: (body ++ [quote])) _ _ fun body rest read => by
    simpa using quoted?_append read]
  simp only [quoted?_exact other.1, byteLength_cons, byteLength_append, byteLength_nil, other.2]
  constructor
  · rintro ⟨body, rest, ⟨whole, written⟩, same⟩
    exact ⟨body, rest, whole, written, by omega⟩
  · rintro ⟨body, rest, whole, written, same⟩
    exact ⟨body, rest, ⟨whole, written⟩, by omega⟩

theorem quoted?_other {quote c : Char} (other : c ≠ quote) (inner : Text) : quoted? quote (c :: inner) = none := by
  simp [quoted?, other]

theorem Skip.length?_quoted {quote : Char} (opened : isQuote quote = true) (inner : Text) :
    Skip.string.length? (quote :: inner) = extent? (quoted? quote) (quote :: inner) := by
  simp only [Skip.length?, Skip.read?, extent?]
  rcases isQuote_iff.mp opened with rfl | rfl
  · rw [quoted?_other (by decide : '"' ≠ '\'') inner]
    cases quoted? '"' ('"' :: inner) <;> rfl
  · rw [quoted?_other (by decide : '\'' ≠ '"') inner]
    cases quoted? '\'' ('\'' :: inner) <;> rfl

theorem Skip.length?_unquoted {text : Text} (bare : Stops isQuote text) : Skip.string.length? text = none := by
  cases text with
  | nil => rfl
  | cons c inner =>
    have other : c ≠ '"' ∧ c ≠ '\'' := by
      simpa [isQuote] using stops_cons.mp bare
    simp [Skip.length?, Skip.read?, quoted?_other other.1, quoted?_other other.2]

theorem string_extent (text : Text) : StringExtent text where
  lexed length := quoted_extent (by decide) text length
  skipped length := by
    constructor
    · intro measured
      cases text with
      | nil => cases measured
      | cons c inner =>
        cases opened : isQuote c with
        | true =>
          rw [Skip.length?_quoted opened] at measured
          exact ⟨c, opened, (quoted_extent opened (c :: inner) length).mp measured⟩
        | false =>
          rw [Skip.length?_unquoted (stops_cons.mpr opened)] at measured
          cases measured
    · rintro ⟨quote, opened, body, rest, whole, written, same⟩
      rw [whole, Skip.length?_quoted opened]
      exact (quoted_extent opened _ length).mpr ⟨body, rest, rfl, written, same⟩
  unclosed quote inner opened whole := by
    have other : quote ≠ '\\' := by
      rcases isQuote_iff.mp opened with rfl | rfl <;> decide
    rw [whole, Skip.length?_quoted opened, extent?_eq_none]
    simp [quoted?, quotedBody?_unclosed other]
  agreed opened := by
    obtain ⟨inner, rfl⟩ := List.head?_eq_some_iff.mp opened
    rw [Skip.length?_quoted (by decide)]
    rfl

theorem delimited_extents (text : Text) :
    BlockCommentExtent text ∧ LineCommentExtent text ∧ StringExtent text :=
  ⟨blockComment_extent text, lineComment_extent text, string_extent text⟩

end Intrinsics
