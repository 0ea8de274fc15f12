import Intrinsics.Proofs.Token.Extents
import Intrinsics.Proofs.Token.Places
import Mathlib.Data.List.Nodup

namespace Intrinsics
open Text

-- Symbols among the tokens. Many symbols begin with other symbols, and comments begin with one.
-- Which of them is read rests on two orders: the table runs from long to short, and the kinds
-- are tried with the comments in front.

namespace Punctuator

variable {p q : Punctuator} {text : Text}

theorem all_ordered : all.Pairwise fun earlier later => later.symbol.length ≤ earlier.symbol.length := by
  decide

theorem symbol_injective : Function.Injective symbol := by
  have distinct : (all.map symbol).Nodup := by decide +kernel
  intro p q same
  exact List.inj_on_of_nodup_map distinct p.mem_all q.mem_all same

theorem ofSymbol?_exact {written : Text} : ofSymbol? written = some p ↔ p.symbol = written := by
  have sound : ∀ {q}, ofSymbol? written = some q → q.symbol = written := by
    intro q found
    simpa using List.find?_some found
  constructor
  · exact sound
  · intro same
    cases found : ofSymbol? written with
    | none =>
      have missed := List.find?_eq_none.mp found p p.mem_all
      simp [same] at missed
    | some q => rw [symbol_injective ((sound found).trans same.symm)]

-- The symbol that a text begins with, when no longer one begins it.
structure Leads (p : Punctuator) (text : Text) : Prop where
  begins : p.symbol <+: text
  longest : ∀ q ∈ all, p.symbol.length < q.symbol.length → ¬ q.symbol <+: text

theorem Leads.unique (first : p.Leads text) (second : q.Leads text) : p = q := by
  have notLonger : q.symbol.length ≤ p.symbol.length := by
    by_contra longer
    exact first.longest q q.mem_all (by omega) second.begins
  have notShorter : p.symbol.length ≤ q.symbol.length := by
    by_contra shorter
    exact second.longest p p.mem_all (by omega) first.begins
  have within : p.symbol <+: q.symbol := List.prefix_of_prefix_length_le first.begins second.begins notShorter
  exact symbol_injective (within.eq_of_length (by omega))

theorem longest?_leads (found : longest? text = some p) : p.Leads text := by
  obtain ⟨begins, front, behind, parts, refused⟩ := List.find?_eq_some_iff_append.mp found
  have ordered := all_ordered
  rw [parts, List.pairwise_append, List.pairwise_cons] at ordered
  refine ⟨List.isPrefixOf_iff_prefix.mp begins, ?_⟩
  intro q member longer fits
  rw [parts, List.mem_append, List.mem_cons] at member
  rcases member with earlier | here | later
  · have missed := refused q earlier
    rw [List.isPrefixOf_iff_prefix.mpr fits] at missed
    cases missed
  · rw [here] at longer
    omega
  · have shorter := ordered.2.1.1 q later
    omega

theorem longest?_exact : longest? text = some p ↔ p.Leads text := by
  constructor
  · exact longest?_leads
  · intro leads
    cases found : longest? text with
    | none => exact absurd leads.begins (longest?_none.mp found p p.mem_all)
    | some q => rw [(longest?_leads found).unique leads]

-- Of the kinds that are tried before symbols, only comments begin like one.
theorem symbol_start : ∀ p ∈ all, p.symbol.head?.all
    (fun c => !isSpacing c && c != '"' && !isNameStart c) = true := by
  decide

end Punctuator

-- A comment at the start of a text. A block that is opened and never closed is none.
def CommentAt (text : Text) : Prop :=
  ['/', '/'] <+: text ∨ ∃ inner, text = '/' :: '*' :: inner ∧ ['*', '/'] <:+: inner

theorem comments_refused {text : Text} :
    (TokenKind.lineComment.read? text = none ∧ TokenKind.blockComment.read? text = none) ↔ ¬ CommentAt text := by
  have line : TokenKind.lineComment.length? text = none ↔ ¬ ['/', '/'] <+: text := by
    rw [(lineComment_extent text).lexed]
    split <;> simp [*]
  have block : TokenKind.blockComment.length? text = none ↔
      ¬ ∃ inner, text = '/' :: '*' :: inner ∧ ['*', '/'] <:+: inner := by
    rw [← Option.not_isSome_iff_eq_none, (blockComment_extent text).matched]
  rw [CommentAt, not_or, ← line, ← block, TokenKind.length?, TokenKind.length?, extent?_eq_none, extent?_eq_none]

theorem punctuation?_exact {text body rest : Text} : punctuation? text = some (body, rest) ↔
    ∃ p : Punctuator, p.Leads text ∧ p.symbol = body ∧ text = body ++ rest := by
  constructor
  · intro read
    obtain ⟨p, found, same⟩ := Option.bind_eq_some_iff.mp read
    cases same
    exact ⟨p, Punctuator.longest?_exact.mp found, rfl, (punctuation?_append read).2⟩
  · rintro ⟨p, leads, rfl, rfl⟩
    simp [punctuation?, Punctuator.longest?_exact.mpr leads]

namespace Lexeme

variable {text body rest : Text}

theorem symbol_refused {p : Punctuator} (begins : p.symbol <+: text) (bare : ¬ CommentAt text) :
    ∀ kind ∈ [TokenKind.whitespace, .lineComment, .blockComment, .string, .keyword, .identifier],
      kind.read? text = none := by
  obtain ⟨noLine, noBlock⟩ := comments_refused.mpr bare
  have start := p.symbol_start p.mem_all
  obtain ⟨tail, rfl⟩ := begins
  cases symbol : p.symbol with
  | nil => exact absurd symbol p.symbol_nonempty
  | cons c later =>
    rw [symbol] at start noLine noBlock
    simp only [List.head?_cons, Option.all_some, Bool.and_eq_true, Bool.not_eq_true', bne_iff_ne] at start
    obtain ⟨⟨solid, unquoted⟩, nameless⟩ := start
    obtain ⟨noKeyword, noName⟩ := words_none nameless (later ++ tail)
    have noSpace : run? isSpacing (c :: later ++ tail) = none := by
      simp [run?, solid]
    have noString : quoted? '"' (c :: later ++ tail) = none := quoted?_other unquoted (later ++ tail)
    simp only [List.forall_mem_cons]
    exact ⟨noSpace, noLine, noBlock, noString, noKeyword, noName, List.forall_mem_nil _⟩

theorem read?_punctuation : Lexeme.read? text = some (⟨.punctuation, body⟩, rest) ↔
    ∃ p : Punctuator, p.Leads text ∧ ¬ CommentAt text ∧ p.symbol = body ∧ text = body ++ rest := by
  have order : TokenKind.precedence =
    [.whitespace, .lineComment, .blockComment, .string, .keyword, .identifier] ++ .punctuation :: [] := rfl
  constructor
  · intro read
    have refused := read?_refused order read
    obtain ⟨p, leads, same, whole⟩ := punctuation?_exact.mp (read?_kind read)
    have bare : ¬ CommentAt text := comments_refused.mp ⟨refused _ (by decide), refused _ (by decide)⟩
    exact ⟨p, leads, bare, same, whole⟩
  · rintro ⟨p, leads, bare, same, whole⟩
    exact read?_first order (symbol_refused leads.begins bare) (punctuation?_exact.mpr ⟨p, leads, same, whole⟩)

theorem punctuator?_exact {lexeme : Lexeme} {p : Punctuator} :
    lexeme.punctuator? = some p ↔ lexeme = ⟨.punctuation, p.symbol⟩ := by
  obtain ⟨kind, body⟩ := lexeme
  cases kind <;> simp [punctuator?, Punctuator.ofSymbol?_exact, @eq_comm _ body]

end Lexeme

-- Symbols and the places they were read at. Each is an entry of the table, the longest that the
-- source has there, and stands where no comment does; and where a token is read at such a place,
-- it is that symbol.
structure SymbolPlaces (source : Text) (found : List Token) : Prop where
  resolved : ∀ token ∈ found, token.kind = .punctuation →
    ∃ p here, token.punctuator? = some p ∧ p.symbol = token.body ∧
      fromByte? source token.span.start = some here ∧ p.Leads here ∧ ¬ CommentAt here
  recognised : ∀ token ∈ found, ∀ p : Punctuator, ∀ here, fromByte? source token.span.start = some here →
    p.Leads here → ¬ CommentAt here → token.punctuator? = some p

theorem tokens_symbolPlaces (source : Text) : SymbolPlaces source (tokens source) where
  resolved token member punctuation := by
    obtain ⟨before, here, rest, placed⟩ := tokens_readAt member
    have lexeme : token.toLexeme = ⟨.punctuation, token.body⟩ := by rw [← punctuation]
    have read := placed.read
    rw [lexeme] at read
    obtain ⟨p, leads, bare, same, _⟩ := Lexeme.read?_punctuation.mp read
    refine ⟨p, here, Lexeme.punctuator?_exact.mpr ?_, same, placed.located, leads, bare⟩
    rw [lexeme, same]
  recognised token member p here located leads bare := by
    obtain ⟨before, there, rest, placed⟩ := tokens_readAt member
    have same : there = here := Option.some.inj (placed.located.symm.trans located)
    subst same
    obtain ⟨behind, whole⟩ := leads.begins
    have symbol := Lexeme.read?_punctuation.mpr ⟨p, leads, bare, rfl, whole.symm⟩
    rw [placed.read, Option.some.injEq, Prod.mk.injEq] at symbol
    exact Lexeme.punctuator?_exact.mpr symbol.1

theorem symbols_resolved (source : Text) :
    SymbolPlaces source (tokens source) ∧
      ∀ text, Punctuator.longest? text = none ↔ ∀ p ∈ Punctuator.all, ¬ p.symbol <+: text :=
  ⟨tokens_symbolPlaces source, fun _ => Punctuator.longest?_none⟩

-- A comment that is never closed is read symbol by symbol.
theorem symbols_resolved_unclosed :
    (⟨⟨.punctuation, "/".toList⟩, 4, 5⟩ : Token) ∈ tokens ">>>=/*=/".toList ∧
      Punctuator.divide.Leads "/*=/".toList ∧ ¬ CommentAt "/*=/".toList := by
  have member : (⟨⟨.punctuation, "/".toList⟩, 4, 5⟩ : Token) ∈ tokens ">>>=/*=/".toList := by decide +kernel
  obtain ⟨p, here, _, same, located, leads, bare⟩ := (symbols_resolved ">>>=/*=/".toList).1.resolved _ member rfl
  have place : fromByte? ">>>=/*=/".toList 4 = some "/*=/".toList := by decide
  have symbol : p = .divide := Punctuator.symbol_injective same
  cases place.symm.trans located
  rw [symbol] at leads
  exact ⟨member, leads, bare⟩

end Intrinsics
