import Intrinsics.Proofs.Token.Coverage
import Mathlib.Data.List.Basic

namespace Intrinsics
open Text

-- Which lexeme is read at a place, and at which places the tokens of a text were read.

namespace Lexeme

variable {text body rest : Text}

theorem read?_kind {lexeme : Lexeme} (read : Lexeme.read? text = some (lexeme, rest)) :
    lexeme.kind.read? text = some (lexeme.body, rest) := by
  obtain ⟨kind, _, found⟩ := List.exists_of_findSome?_eq_some read
  obtain ⟨⟨body, behind⟩, taken, same⟩ := Option.map_eq_some_iff.mp found
  cases same
  exact taken

theorem trivia_refused {c : Char} (bare : isSpacing c = false) (solid : c ≠ '/') (tail : Text) :
    ∀ kind ∈ [TokenKind.whitespace, .lineComment, .blockComment], kind.read? (c :: tail) = none := by
  obtain ⟨noLine, noBlock⟩ : lineComment? (c :: tail) = none ∧ blockComment? (c :: tail) = none :=
    comments_none fun slash => absurd slash solid
  simp [TokenKind.read?, run?, bare, noLine, noBlock]

-- A kind has its say once all kinds before it refuse.
theorem read?_first {kind : TokenKind} {before after : List TokenKind}
    (order : TokenKind.precedence = before ++ kind :: after) (refused : ∀ other ∈ before, other.read? text = none)
    (read : kind.read? text = some (body, rest)) : Lexeme.read? text = some (⟨kind, body⟩, rest) := by
  rw [Lexeme.read?, order, List.findSome?_append, List.findSome?_eq_none_iff.mpr, Option.none_or,
    List.findSome?_cons, read]
  · rfl
  · intro other member
    rw [refused other member]
    rfl

theorem read?_refused {kind : TokenKind} {before after : List TokenKind}
    (order : TokenKind.precedence = before ++ kind :: after)
    (read : Lexeme.read? text = some (⟨kind, body⟩, rest)) : ∀ other ∈ before, other.read? text = none := by
  obtain ⟨front, there, behind, parts, found, missed⟩ := List.findSome?_eq_some_iff.mp read
  obtain ⟨_, _, same⟩ := Option.map_eq_some_iff.mp found
  cases same
  -- No kind is listed twice, so the hit cuts the list where the given kind does.
  have distinct : (before ++ kind :: after).Nodup := by
    rw [← order]
    decide
  rw [List.nodup_append, List.nodup_cons] at distinct
  have apart : kind ∉ before := fun member => distinct.2.2 kind member kind List.mem_cons_self rfl
  obtain ⟨rfl, _⟩ := (List.append_cons_inj_of_notMem apart distinct.2.1.1).mp (order.symm.trans parts)
  intro other member
  exact Option.map_eq_none_iff.mp (missed other member)

end Lexeme

theorem tokensFrom_passed {offset : Nat} {c : Char} {tail : Text} (refused : Lexeme.read? (c :: tail) = none) :
    tokensFrom offset (c :: tail) = tokensFrom (offset + c.utf8Size) tail := by
  rw [tokensFrom]
  split
  · rename_i read
    rw [refused] at read
    cases read
  · rfl

def Token.shift (distance : Nat) (token : Token) : Token :=
  ⟨token.toLexeme, distance + token.span.start, distance + token.span.stop⟩

theorem tokensFrom_shift (distance offset : Nat) (text : Text) :
    tokensFrom (distance + offset) text = (tokensFrom offset text).map (Token.shift distance) := by
  fun_induction tokensFrom offset text with
  | case1 offset =>
    rw [tokensFrom]
    rfl
  | case2 offset c tail lexeme rest read stop ih =>
    rw [tokensFrom_read read, List.map_cons, ← ih, Nat.add_assoc]
    rfl
  | case3 offset c tail read ih => rw [tokensFrom_passed read, Nat.add_assoc, ih]

-- Where a token was read: the source up to it, the text it was read from and the text behind it.
structure ReadAt (source : Text) (offset : Nat) (token : Token) (before here rest : Text) : Prop where
  whole : source = before ++ here
  read : Lexeme.read? here = some (token.toLexeme, rest)
  start : token.span.start = offset + byteLength before
  stop : token.span.stop = token.span.start + byteLength token.text

-- The tokens behind a token are those of the text behind it.
theorem tokensFrom_split {offset : Nat} {source : Text} {behind : List Token} {token : Token} (front : List Token) :
    tokensFrom offset source = front ++ token :: behind →
      ∃ before here rest, ReadAt source offset token before here rest ∧ behind = tokensFrom token.span.stop rest := by
  revert front
  fun_induction tokensFrom offset source with
  | case1 offset =>
    intro front found
    simp at found
  | case2 offset c tail lexeme rest read stop ih =>
    intro front found
    cases front with
    | nil =>
      obtain ⟨rfl, rfl⟩ := List.cons.inj found
      exact ⟨[], c :: tail, rest, ⟨rfl, read, rfl, rfl⟩, rfl⟩
    | cons first front =>
      obtain ⟨before, here, later, placed, same⟩ := ih front (List.cons.inj found).2
      have whole := (Lexeme.read?_append read).2
      refine ⟨lexeme.text ++ before, here, later, ⟨?_, placed.read, ?_, placed.stop⟩, same⟩
      · rw [whole, placed.whole, List.append_assoc]
      · rw [placed.start, byteLength_append, ← Nat.add_assoc]
  | case3 offset c tail read ih =>
    intro front found
    obtain ⟨before, here, later, placed, same⟩ := ih front found
    refine ⟨c :: before, here, later, ⟨?_, placed.read, ?_, placed.stop⟩, same⟩
    · rw [placed.whole, List.cons_append]
    · rw [placed.start, byteLength_cons, Nat.add_assoc]

theorem ReadAt.behind {source before here rest : Text} {offset : Nat} {token : Token}
    (placed : ReadAt source offset token before here rest) :
    source = (before ++ token.text) ++ rest ∧ offset + byteLength (before ++ token.text) = token.span.stop := by
  refine ⟨?_, ?_⟩
  · rw [placed.whole, (Lexeme.read?_append placed.read).2, List.append_assoc]
  · rw [placed.stop, placed.start, byteLength_append, Nat.add_assoc]

theorem ReadAt.located {source before here rest : Text} {token : Token}
    (placed : ReadAt source 0 token before here rest) : fromByte? source token.span.start = some here := by
  have start := placed.start
  exact fromByte?_exact.mpr ⟨before, placed.whole, by omega⟩

theorem tokens_readAt {source : Text} {token : Token} (member : token ∈ tokens source) :
    ∃ before here rest, ReadAt source 0 token before here rest := by
  obtain ⟨front, behind, found⟩ := List.append_of_mem member
  obtain ⟨before, here, rest, placed, _⟩ := tokensFrom_split front found
  exact ⟨before, here, rest, placed⟩

end Intrinsics
